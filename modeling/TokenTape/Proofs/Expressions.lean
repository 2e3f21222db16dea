import Mathlib
import TokenTape.Proofs.Failures

/-!
# Expressions

A tape of operands and operators is evaluated from left to right, without precedence. The walk
begins anew with an operand that stands first or behind another operand, so only the last such
operand and what stands behind it count. That is a row of pairs, each an operator with its operand.
Of several operators in a row the last one counts, and those at the end do not.
-/

namespace TokenTape

namespace Token

def isOperand : Token → Bool
  | number _ => true
  | reference _ => true
  | operator _ | control _ | unclassified => false

/-- The value of an operand. -/
def value? (store : Store) : Token → Option Binary64
  | number value => some value
  | reference name => store.get? name
  | operator _ | control _ | unclassified => none

/-- An operand, or an operator that writes nothing. -/
def Plain (token : Token) : Prop :=
  token.isOperand = true ∨ ∃ op : Operator, op ≠ .assign ∧ token = .operator op

end Token

/-! ## What an expression means -/

def OperandAt (tokens : List Token) (k : Nat) : Prop :=
  ∃ token, tokens[k]? = some token ∧ token.isOperand = true

instance (tokens : List Token) (k : Nat) : Decidable (OperandAt tokens k) :=
  decidable_of_iff (tokens[k]?.any Token.isOperand = true) (by simp [OperandAt, Option.any_eq_true])

/-- The operand at an offset is the first token, or an operand stands before it. -/
def Restarts (tokens : List Token) (k : Nat) : Prop :=
  OperandAt tokens k ∧ (k = 0 ∨ OperandAt tokens (k - 1))

instance (tokens : List Token) (k : Nat) : Decidable (Restarts tokens k) :=
  inferInstanceAs (Decidable (_ ∧ _))

/-- A row of tokens as pairs. Operators before an operand count as their last one, and operators
behind the last operand are left over. -/
inductive Reads (store : Store) : List Token → List (Operator × Binary64) → Prop
  | rest (ops : List Operator) : Reads store (ops.map .operator) []
  | pair (ops : List Operator) (op : Operator) {operand : Token} {value : Binary64}
      {tokens : List Token} {pairs : List (Operator × Binary64)}
      (hvalue : operand.value? store = some value) (hreads : Reads store tokens pairs) :
      Reads store (ops.map .operator ++ .operator op :: operand :: tokens) ((op, value) :: pairs)

/-- The operators are applied one after the other. -/
def applyPairs (value : Binary64) (pairs : List (Operator × Binary64)) : Binary64 :=
  pairs.foldl (fun left pair => pair.1.apply left pair.2) value

/-! ## Rows of pairs -/

namespace Token

/-- An operator that writes nothing, or an operand that has a value. -/
def Settled (store : Store) (token : Token) : Prop :=
  (∃ op : Operator, op ≠ .assign ∧ token = .operator op) ∨
    ∃ value, token.value? store = some value

theorem isOperand_of_value? {store : Store} {token : Token} {value : Binary64}
    (h : token.value? store = some value) : token.isOperand = true := by
  cases token with
  | number _ | reference _ => rfl
  | operator _ | control _ | unclassified => cases h

theorem Settled.exists_value? {store : Store} {token : Token} (h : token.Settled store)
    (hoperand : token.isOperand = true) : ∃ value, token.value? store = some value := by
  obtain ⟨op, -, rfl⟩ | hvalue := h
  · cases hoperand
  · exact hvalue

theorem Plain.settled {store : Store} {token : Token} (h : token.Plain)
    (hdefined : ∀ name, token = .reference name → store.contains name) : token.Settled store := by
  obtain hoperand | hop := h
  · refine .inr ?_
    cases token with
    | number value => exact ⟨value, rfl⟩
    | reference name => exact Option.isSome_iff_exists.1 (hdefined name rfl)
    | operator _ | control _ | unclassified => cases hoperand
  · exact .inl hop

end Token

theorem OperandAt.lt_length {tokens : List Token} {k : Nat} (h : OperandAt tokens k) :
    k < tokens.length := by
  obtain ⟨token, hat, -⟩ := h
  exact (List.getElem?_eq_some_iff.1 hat).1

theorem operandAt_cons_succ {token : Token} {tokens : List Token} {k : Nat} :
    OperandAt (token :: tokens) (k + 1) ↔ OperandAt tokens k := by
  simp [OperandAt]

theorem operandAt_drop {tokens : List Token} {n k : Nat} :
    OperandAt (tokens.drop n) k ↔ OperandAt tokens (n + k) := by
  simp [OperandAt]

theorem restarts_head {store : Store} {token : Token} {tokens : List Token} {value : Binary64}
    (h : token.value? store = some value) : Restarts (token :: tokens) 0 :=
  ⟨⟨token, rfl, Token.isOperand_of_value? h⟩, .inl rfl⟩

theorem restarts_drop {tokens : List Token} {k j : Nat} (hk : OperandAt tokens k)
    (h : Restarts (tokens.drop (k + 1)) j) : Restarts tokens (k + 1 + j) := by
  obtain ⟨hat, hbefore⟩ := h
  refine ⟨operandAt_drop.1 hat, .inr ?_⟩
  cases j with
  | zero => exact hk
  | succ j =>
    obtain hzero | hbefore := hbefore
    · cases hzero
    · exact operandAt_drop.1 hbefore

theorem Restarts.cons {op : Operator} {tokens : List Token} {k : Nat}
    (h : Restarts (.operator op :: tokens) k) (token : Token) :
    Restarts (token :: .operator op :: tokens) (k + 1) := by
  obtain ⟨hat, hbefore⟩ := h
  refine ⟨operandAt_cons_succ.2 hat, .inr ?_⟩
  cases k with
  | zero =>
    obtain ⟨found, hfound, hoperand⟩ := hat
    cases hfound
    cases hoperand
  | succ k =>
    obtain hzero | hbefore := hbefore
    · cases hzero
    · exact operandAt_cons_succ.2 hbefore

theorem Reads.cons {store : Store} {tokens : List Token} {pairs : List (Operator × Binary64)}
    (h : Reads store tokens pairs) (op : Operator) :
    Reads store (.operator op :: tokens) pairs := by
  cases h with
  | rest ops => exact .rest (op :: ops)
  | pair ops op' hvalue hreads => exact .pair (op :: ops) op' hvalue hreads

theorem exists_reads {store : Store} : ∀ {tokens : List Token},
    (∀ token ∈ tokens, token.Settled store) → (∀ k, ¬Restarts tokens k) →
      ∃ pairs, Reads store tokens pairs
  | [], _, _ => ⟨[], .rest []⟩
  | [token], hsettled, hrestarts => by
    obtain ⟨op, -, rfl⟩ | ⟨value, hvalue⟩ := hsettled token (by simp)
    · exact ⟨[], .rest [op]⟩
    · exact absurd (restarts_head hvalue) (hrestarts 0)
  | token :: next :: tokens, hsettled, hrestarts => by
    -- An operand is read with the operator before it, so the recursion is over two tokens.
    obtain ⟨op, -, rfl⟩ | ⟨value, hvalue⟩ := hsettled token (by simp)
    · obtain ⟨op', -, rfl⟩ | ⟨value, hvalue⟩ := hsettled next (by simp)
      · have hreads : ∃ pairs, Reads store (.operator op' :: tokens) pairs :=
          exists_reads (fun token h => hsettled token (List.mem_cons_of_mem _ h))
            fun k hk => hrestarts (k + 1) (hk.cons _)
        obtain ⟨pairs, hreads⟩ := hreads
        exact ⟨pairs, hreads.cons op⟩
      · have hoperand : OperandAt (.operator op :: next :: tokens) 1 :=
          ⟨next, rfl, Token.isOperand_of_value? hvalue⟩
        have hreads : ∃ pairs, Reads store tokens pairs :=
          exists_reads
            (fun token h => hsettled token (List.mem_cons_of_mem _ (List.mem_cons_of_mem _ h)))
            fun k hk => hrestarts (1 + 1 + k) (restarts_drop hoperand hk)
        obtain ⟨pairs, hreads⟩ := hreads
        exact ⟨(op, value) :: pairs, .pair [] op hvalue hreads⟩
    · exact absurd (restarts_head hvalue) (hrestarts 0)

namespace Run

/-! ## The walk over a row -/

namespace Progress

variable {store : Store} {progress : Progress}

/-- How far a walk has come behind one more token. -/
def after (store : Store) (progress : Progress) (token : Token) : Progress :=
  match token with
  | .operator op => ⟨progress.result, some op⟩
  | _ => match token.value? store with
    | some value => progress.meet value
    | none => progress

theorem after_value {token : Token} {value : Binary64} (h : token.value? store = some value) :
    progress.after store token = progress.meet value := by
  cases token with
  | operator _ => cases h
  | number _ | reference _ | control _ | unclassified => simp only [after, h]

theorem foldl_after_operators (ops : List Operator) :
    ((ops.map .operator).foldl (after store) progress).result = progress.result := by
  induction ops generalizing progress with
  | nil => rfl
  | cons op ops ih => exact ih

theorem foldl_after_reads {tokens : List Token} {pairs : List (Operator × Binary64)}
    (h : Reads store tokens pairs) :
    (tokens.foldl (after store) progress).result = applyPairs progress.result pairs := by
  induction h generalizing progress with
  | rest ops => exact foldl_after_operators ops
  | @pair ops op operand value tokens pairs hvalue hreads ih =>
    rw [List.foldl_append, List.foldl_cons, List.foldl_cons, after_value hvalue, ih]
    show applyPairs (op.apply ((ops.map .operator).foldl (after store) progress).result value)
      pairs = _
    rw [foldl_after_operators]
    rfl

/-- No operator is pending where an operand restarts: the walk begins there, or the token before it
is an operand. -/
theorem pending_of_restarts {tokens : List Token} {k : Nat}
    (hsettled : ∀ token ∈ tokens, token.Settled store) (h : Restarts tokens k) :
    ((tokens.take k).foldl (after store) start).pending = none := by
  obtain ⟨-, hbefore⟩ := h
  cases k with
  | zero => rfl
  | succ k =>
    obtain hzero | ⟨last, hlast, hoperand⟩ := hbefore
    · cases hzero
    · have hlast : tokens[k]? = some last := hlast
      obtain ⟨value, hvalue⟩ :=
        (hsettled last (List.mem_of_getElem? hlast)).exists_value? hoperand
      rw [List.take_add_one, hlast, Option.toList_some, List.foldl_append, List.foldl_cons,
        List.foldl_nil, after_value hvalue, meet_pending]

theorem meet_of_pending_none {value : Binary64} (h : progress.pending = none) :
    progress.meet value = ⟨value, none⟩ := by
  rw [meet, h]

theorem foldl_after_restarts {tokens : List Token} {k : Nat} {token : Token} {value : Binary64}
    {pairs : List (Operator × Binary64)} (hsettled : ∀ token ∈ tokens, token.Settled store)
    (h : Restarts tokens k) (hat : tokens[k]? = some token)
    (hvalue : token.value? store = some value)
    (hreads : Reads store (tokens.drop (k + 1)) pairs) :
    (tokens.foldl (after store) start).result = applyPairs value pairs := by
  obtain ⟨hlt, hget⟩ := List.getElem?_eq_some_iff.1 hat
  have hsplit : tokens = tokens.take k ++ token :: tokens.drop (k + 1) := by
    rw [← hget, ← List.drop_eq_getElem_cons hlt, List.take_append_drop]
  have hfold : tokens.foldl (after store) start =
      (tokens.drop (k + 1)).foldl (after store) ⟨value, none⟩ := by
    conv_lhs => rw [hsplit]
    rw [List.foldl_append, List.foldl_cons, after_value hvalue,
      meet_of_pending_none (pending_of_restarts hsettled h)]
  rw [hfold, foldl_after_reads hreads]

end Progress

variable {setting : Setting} {start stop offset : Int} {progress : Progress} {s : State}

theorem dispatch_value {token : Token} {value : Binary64}
    (hvalue : token.value? s.store = some value) (hpending : progress.pending ≠ some .assign) :
    (dispatch setting start stop offset progress token).outcome s =
      (walk setting start stop (offset + 1) (progress.meet value)).outcome s := by
  cases token with
  | number number =>
    cases hvalue
    rw [dispatch, meetNumber, if_neg hpending, pure_bind]
  | reference name =>
    have hget : s.store.get? name = some value := hvalue
    have hlookup : (lookup name).outcome s = (.ok value, s) := by
      rw [outcome_lookup, Store.lookup, hget]
    have hmeet : (meetVariable progress name).outcome s = (.ok (progress.meet value), s) := by
      rw [meetVariable, outcome_bind_ok hlookup, if_neg hpending]
      rfl
    rw [dispatch, outcome_bind_ok hmeet]
  | operator _ | control _ | unclassified => cases hvalue

theorem walk_settled_step (start : Int) {token : Token} (hlt : offset < stop)
    (hat : setting.tape.at? offset = some token) (hsettled : token.Settled s.store)
    (hpending : progress.pending ≠ some .assign) :
    (progress.after s.store token).pending ≠ some .assign ∧ ∃ t : State, t.store = s.store ∧
      (walk setting start stop offset progress).outcome s =
        (walk setting start stop (offset + 1) (progress.after s.store token)).outcome t := by
  let event : Event := .dispatched offset token progress.result progress.pending
  have hemit : (emit setting event).outcome s = (.ok (), ((emit setting event).outcome s).2) := by
    rw [outcome_emit]
  have hstore := store_emit setting event s
  rw [walk_dispatch hlt hat, outcome_bind_ok hemit]
  obtain ⟨op, hop, rfl⟩ | ⟨value, hvalue⟩ := hsettled
  · exact ⟨by simpa [Progress.after] using hop, _, hstore, rfl⟩
  · rw [Progress.after_value hvalue, Progress.meet_pending]
    exact ⟨nofun, _, hstore, dispatch_value (by rw [hstore]; exact hvalue) hpending⟩

theorem walk_settled {tokens : List Token} (hholds : setting.tape.Holds offset tokens)
    (hsettled : ∀ token ∈ tokens, token.Settled s.store)
    (hpending : progress.pending ≠ some .assign) (hstop : stop = offset + tokens.length) :
    ∃ t : State, t.store = s.store ∧
      (walk setting start stop offset progress).outcome s =
        (.ok (tokens.foldl (Progress.after s.store) progress), t) := by
  induction tokens generalizing offset progress s with
  | nil =>
    refine ⟨s, rfl, ?_⟩
    rw [walk_end (by simp [hstop])]
    rfl
  | cons token tokens ih =>
    obtain ⟨hat, hholds⟩ := Tape.holds_cons.1 hholds
    rw [List.length_cons] at hstop
    have hlt : offset < stop := by omega
    obtain ⟨hnext, t, hstore, hstep⟩ :=
      walk_settled_step start hlt hat (hsettled token List.mem_cons_self) hpending
    obtain ⟨u, hu, hwalk⟩ := ih (s := t) hholds
      (fun token h => by rw [hstore]; exact hsettled token (List.mem_cons_of_mem _ h)) hnext
      (by omega)
    refine ⟨u, hu.trans hstore, ?_⟩
    rw [hstep, hwalk, hstore, List.foldl_cons]

theorem evaluate_settled {tokens : List Token} (verbosity : Int) (rounds : Nat)
    (hsettled : ∀ token ∈ tokens, token.Settled s.store) :
    ((evaluate ⟨tokens.toArray, verbosity, rounds⟩).outcome s).1 =
        .ok (tokens.foldl (Progress.after s.store) Progress.start).result ∧
      ((evaluate ⟨tokens.toArray, verbosity, rounds⟩).outcome s).2.store = s.store := by
  obtain ⟨t, hstore, hresult, hfinal⟩ := evaluate_outcome ⟨tokens.toArray, verbosity, rounds⟩ s
  rw [← hstore] at hsettled ⊢
  obtain ⟨u, hu, hwalk⟩ : ∃ u : State, u.store = t.store ∧
      (walk ⟨tokens.toArray, verbosity, rounds⟩ 0 tokens.toArray.size 0 Progress.start).outcome t =
        (.ok (tokens.foldl (Progress.after t.store) Progress.start), u) :=
    walk_settled (Tape.holds_toArray tokens) hsettled nofun (by simp)
  have hrange : (range ⟨tokens.toArray, verbosity, rounds⟩ 0 tokens.toArray.size).outcome t =
      (.ok (tokens.foldl (Progress.after t.store) Progress.start).result, u) := by
    rw [range, outcome_bind_ok hwalk]
    rfl
  rw [hresult, hfinal, hrange]
  exact ⟨rfl, hu⟩

/-- An expression that writes nothing has the value of the last operand that stands first or behind
an operand, with the pairs behind it applied from left to right. Without such an operand the pairs
are applied to zero. -/
theorem evaluate_expression (tokens : List Token) (hplain : ∀ token ∈ tokens, token.Plain)
    (verbosity : Int) (rounds : Nat) (state : State)
    (hdefined : ∀ name, .reference name ∈ tokens → state.store.contains name) :
    let final := (evaluate ⟨tokens.toArray, verbosity, rounds⟩).outcome state
    final.2.store = state.store ∧
      (∀ k, IsGreatest {k | Restarts tokens k} k →
        ∃ token value, tokens[k]? = some token ∧ token.value? state.store = some value ∧
          (∃ pairs, Reads state.store (tokens.drop (k + 1)) pairs) ∧
          ∀ pairs, Reads state.store (tokens.drop (k + 1)) pairs →
            final.1 = .ok (applyPairs value pairs)) ∧
      ((∀ k, ¬Restarts tokens k) →
        (∃ pairs, Reads state.store tokens pairs) ∧
          ∀ pairs, Reads state.store tokens pairs → final.1 = .ok (applyPairs 0 pairs)) := by
  intro final
  have hsettled : ∀ token ∈ tokens, token.Settled state.store := fun token hmem =>
    (hplain token hmem).settled fun name h => hdefined name (h ▸ hmem)
  obtain ⟨hresult, hstore⟩ := evaluate_settled verbosity rounds hsettled
  refine ⟨hstore, fun k hk => ?_,
    fun hnone => ⟨exists_reads hsettled hnone, fun pairs hreads => ?_⟩⟩
  · have hrestarts : Restarts tokens k := hk.1
    obtain ⟨token, hat, hoperand⟩ := hrestarts.1
    obtain ⟨value, hvalue⟩ := (hsettled token (List.mem_of_getElem? hat)).exists_value? hoperand
    -- An operand behind `k` that restarts would lie beyond the last one.
    have hbehind (j : Nat) : ¬Restarts (tokens.drop (k + 1)) j := fun hj => by
      have := hk.2 (restarts_drop hrestarts.1 hj)
      omega
    refine ⟨token, value, hat, hvalue,
      exists_reads (fun token h => hsettled token (List.mem_of_mem_drop h)) hbehind,
      fun pairs hreads => ?_⟩
    rw [← Progress.foldl_after_restarts hsettled hrestarts hat hvalue hreads]
    exact hresult
  · exact hresult.trans (congrArg Except.ok (Progress.foldl_after_reads hreads))

/-- `+ 5 2 - * x + 1 <= +`, where `x` is three. -/
def untidy : List Token :=
  [.operator .add, .number 5, .number 2, .operator .subtract, .operator .multiply,
    .reference "x", .operator .add, .number 1, .operator .lessThan, .operator .add]

theorem evaluate_expression_untidy :
    let state : State := ⟨Table.empty.insert "x" 3, #[]⟩
    let final := (evaluate ⟨untidy.toArray, 0, roundLimit⟩).outcome state
    IsGreatest {k | Restarts untidy k} 2 ∧
      Reads state.store (untidy.drop 3) [(.multiply, 3), (.add, 1)] ∧
      final.1 = .ok 7 ∧ final.2.store = state.store := by
  intro state final
  have hgreatest : IsGreatest {k | Restarts untidy k} 2 := by
    have hbelow : ∀ k < untidy.length, Restarts untidy k → k ≤ 2 := by decide
    exact ⟨by decide, fun k hk => hbelow k hk.1.lt_length hk⟩
  have hreads : Reads state.store (untidy.drop 3) [(.multiply, 3), (.add, 1)] :=
    .pair [.subtract] .multiply (by decide +kernel)
      (.pair [] .add rfl (.rest [.lessThan, .add]))
  have hplain : ∀ token ∈ untidy, token.Plain := by
    simp [untidy, Token.Plain, Token.isOperand]
  have hdefined : ∀ name, .reference name ∈ untidy → state.store.contains name := by
    intro name hmem
    obtain rfl : name = "x" := by simpa [untidy] using hmem
    decide
  obtain ⟨hstore, hrestart, -⟩ :=
    evaluate_expression untidy hplain 0 roundLimit state hdefined
  obtain ⟨token, value, hat, hvalue, -, hresult⟩ := hrestart 2 hgreatest
  cases hat
  cases hvalue
  refine ⟨hgreatest, hreads, (hresult _ hreads).trans ?_, hstore⟩
  exact congrArg Except.ok (by decide +kernel)

end Run

end TokenTape
