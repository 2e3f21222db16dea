import TokenTape.Proofs.Failures

/-!
# An if block and what stands behind it

The else marker of an if block is searched up to the end of the view, and the end of the block from
there on. So a block without else keeps to itself where no else marker stands behind it. Otherwise
it takes that marker for its own, and it comes to the same only where it fails before.
-/

namespace TokenTape.Run

variable {α : Type} {S T : Setting} {start stop offset : Int} {s t : State}

/-! ## What shows of a run -/

/-- The outcome without the reports. -/
def observed (outcome : Except Failure α × State) : Except Failure α × Store :=
  (outcome.1, outcome.2.store)

theorem sim_observed {m n : Run α} (h : Sim (.stores Eq) Eq m n) (hs : s.store = t.store) :
    observed (m.outcome s) = observed (n.outcome t) := by
  obtain ⟨houtcome, hstore⟩ := (h s t hs).eq fun _ _ he => he
  exact Prod.ext houtcome hstore

theorem sim_range_common {tokens : List Token} (hrounds : S.rounds = T.rounds)
    (hS : S.tape.Holds 0 tokens) (hT : T.tape.Holds 0 tokens) (hlo : 0 ≤ start)
    (hhi : stop ≤ tokens.length) :
    Sim (.stores Eq) Eq (range S start stop) (range T start stop) := by
  have haligned : Aligned (.stores Eq) 0 S T start stop := by
    constructor
    case rounds => exact hrounds
    case token => exact fun k hk hk' => hT.common hS (by omega) (by omega)
    case emit => exact fun event => sim_emit_stores _ _
    case read => exact fun _ => sim_lookup_stores (fun _ => rfl) _
    case write => exact fun _ _ _ => sim_assign_stores _ _
    case count => exact fun _ _ _ => sim_assign_stores _ _
    case accumulate => exact fun _ _ _ => sim_assign_stores _ _
    case failure => exact fun {e} _ _ => e.shift_zero
  simpa using haligned.range

theorem sim_range_self (hlo : 0 ≤ start) (hhi : stop ≤ S.tape.size) :
    Sim (.stores Eq) Eq (range S start stop) (range S start stop) := by
  have hholds := Tape.holds_toArray S.tape.toList
  exact sim_range_common rfl hholds hholds hlo (by simpa using hhi)

/-! ## The run of a block -/

/-- A condition decides between two runs, and the block ends at `last`. -/
def conditional (condition yes no : Run Binary64) (last : Int) : Run (Binary64 × Int) :=
  condition >>= fun value => (if value.same 0 then no else yes) >>= fun result =>
    pure (result, last)

def endingAt (last : Int) (outcome : Except Failure Binary64 × Store) :
    Except Failure (Binary64 × Int) × Store :=
  (outcome.1.map (·, last), outcome.2)

theorem sim_conditional {ρ : Relation} {condition condition' yes yes' no no' : Run Binary64}
    (hcondition : Sim ρ Eq condition condition') (hyes : Sim ρ Eq yes yes')
    (hno : Sim ρ Eq no no') (last : Int) :
    Sim ρ Eq (conditional condition yes no last) (conditional condition' yes' no' last) := by
  refine sim_bind hcondition ?_
  rintro value _ rfl
  have hbranch : Sim ρ Eq (if value.same 0 then no else yes)
      (if value.same 0 then no' else yes') := by
    split
    · exact hno
    · exact hyes
  refine sim_bind hbranch ?_
  rintro result _ rfl
  exact sim_pure rfl

theorem observed_conditional_error {condition yes no : Run Binary64} {last : Int} {e : Failure}
    (h : condition.outcome s = (.error e, t)) :
    observed ((conditional condition yes no last).outcome s) = (.error e, t.store) := by
  rw [conditional, outcome_bind_error h]
  rfl

theorem observed_conditional_ok {condition yes no : Run Binary64} {last : Int} {value : Binary64}
    (h : condition.outcome s = (.ok value, t)) :
    observed ((conditional condition yes no last).outcome s) =
      endingAt last (observed ((if value.same 0 then no else yes).outcome t)) := by
  rw [conditional, outcome_bind_ok h]
  rcases hbranch : (if value.same 0 then no else yes).outcome t with ⟨e | result, u⟩
  · rw [outcome_bind_error hbranch]
    rfl
  · rw [outcome_bind_ok hbranch]
    rfl

/-- Blocks with different ends come to the same only where both fail. -/
theorem endingAt_eq_iff {k l : Int} (hne : k ≠ l) {x y : Except Failure Binary64 × Store} :
    endingAt k x = endingAt l y ↔
      ∃ e store, x = (.error e, store) ∧ y = (.error e, store) := by
  rcases x with ⟨e | a, s⟩ <;> rcases y with ⟨f | b, t⟩ <;>
    simp [endingAt, Except.map, hne, eq_comm]

theorem endingAt_eq_error {last : Int} {x : Except Failure Binary64 × Store} {e : Failure}
    {store : Store} (h : endingAt last x = (.error e, store)) : x = (.error e, store) := by
  rcases x with ⟨f | a, s⟩ <;> simp_all [endingAt, Except.map]

theorem ifBlock_found {branches : Branches (offset + 4) stop} (hlong : offset + 4 ≤ stop)
    (hlo : 0 ≤ offset) (hhi : stop ≤ S.tape.size)
    (hbranches : findBranches S (offset + 4) stop hlong = pure branches) :
    Sim (.stores Eq) (fun x y => (x.1, x.2.offset) = y) (ifBlock S offset stop)
      (conditional (range S (offset + 1) (offset + 4)) (range S (offset + 4) branches.thenStop)
        (range S branches.elseStart branches.last.offset) branches.last.offset) := by
  have hlast := branches.last.le_stop
  have hthen := branches.thenStop_le
  have helse := branches.start_le
  unfold ifBlock conditional
  rw [dif_pos (by omega)]
  refine sim_bind (sim_range_self (by omega) (by omega)) ?_
  rintro value _ rfl
  rw [hbranches, pure_bind]
  refine sim_emit_left ?_
  split
  · refine sim_bind (sim_range_self (by omega) (by omega)) ?_
    rintro result _ rfl
    exact sim_pure rfl
  · refine sim_bind (sim_range_self (by omega) (by omega)) ?_
    rintro result _ rfl
    exact sim_pure rfl

theorem ifBlock_failed {e : Failure} (hlong : offset + 4 ≤ stop)
    (hbranches : findBranches S (offset + 4) stop hlong = throw e) :
    ifBlock S offset stop = range S (offset + 1) (offset + 4) >>= fun _ => throw e := by
  unfold ifBlock
  rw [dif_pos (by omega), hbranches]
  rfl

/-- The if block at an offset, with the offset of its last marker. -/
def ifAt (setting : Setting) (offset stop : Int) : Run (Binary64 × Int) := do
  let (result, last) ← ifBlock setting offset stop
  return (result, last.offset)

theorem ifAt_found {branches : Branches (offset + 4) stop} (hlong : offset + 4 ≤ stop)
    (hlo : 0 ≤ offset) (hhi : stop ≤ S.tape.size)
    (hbranches : findBranches S (offset + 4) stop hlong = pure branches) :
    Sim (.stores Eq) Eq (ifAt S offset stop)
      (conditional (range S (offset + 1) (offset + 4)) (range S (offset + 4) branches.thenStop)
        (range S branches.elseStart branches.last.offset) branches.last.offset) := by
  have hblock := ifBlock_found hlong hlo hhi hbranches
  have hpure (c : Run (Binary64 × Int)) : c = c >>= pure := (bind_pure c).symm
  rw [hpure (conditional _ _ _ _)]
  refine sim_bind hblock ?_
  rintro x _ rfl
  exact sim_pure rfl

theorem ifAt_failed {e : Failure} (hlong : offset + 4 ≤ stop)
    (hbranches : findBranches S (offset + 4) stop hlong = throw e) :
    ifAt S offset stop = range S (offset + 1) (offset + 4) >>= fun _ => throw e := by
  rw [ifAt, ifBlock_failed hlong hbranches, bind_assoc]
  rfl

theorem ifAt_condition_failed {e : Failure} (long : offset + 3 < stop)
    (h : (range S (offset + 1) (offset + 4)).outcome s = (.error e, t)) :
    (ifAt S offset stop).outcome s = (.error e, t) := by
  rw [ifAt, ifBlock, dif_pos long]
  exact outcome_bind_error (outcome_bind_error h)

/-! ## A block at the beginning of a tape -/

/-- The tokens of an if block without else. -/
def ifTokens (condition body : List Token) : List Token :=
  .control .ifThen :: (condition ++ body ++ [.control .endIf])

/-- The if block at the beginning of a tape, with the offset of its last marker. -/
def firstIf (setting : Setting) : Run (Binary64 × Int) := do
  let (result, last) ← ifBlock setting 0 setting.tape.size
  return (result, last.offset)

variable {condition body behind : List Token}

/-- A tape begins with an if block without else and without other if blocks in it. -/
structure Leads (S : Setting) (condition body behind : List Token) : Prop where
  tape : S.tape = (ifTokens condition body ++ behind).toArray
  three : condition.length = 3
  plain : ∀ kind ∈ [Control.ifThen, .orElse, .endIf], .control kind ∉ body

theorem Leads.holds (h : Leads S condition body behind) :
    S.tape.Holds 4 (body ++ .control .endIf :: behind) := by
  have htokens : ifTokens condition body ++ behind =
      (.control .ifThen :: condition) ++ (body ++ .control .endIf :: behind) := by
    simp [ifTokens]
  have hholds := Tape.holds_toArray (ifTokens condition body ++ behind)
  rw [← h.tape, htokens, Tape.holds_append] at hholds
  simpa [h.three] using hholds.2

theorem Leads.size (h : Leads S condition body behind) :
    (S.tape.size : Int) = 5 + body.length + behind.length := by
  rw [h.tape]
  simp only [ifTokens, List.size_toArray, List.length_append, List.length_cons, List.length_nil,
    h.three]
  omega

theorem firstIf_found {branches : Branches (0 + 4) S.tape.size}
    (hlong : 0 + 4 ≤ (S.tape.size : Int))
    (hbranches : findBranches S (0 + 4) S.tape.size hlong = pure branches) :
    Sim (.stores Eq) Eq (firstIf S)
      (conditional (range S 1 4) (range S 4 branches.thenStop)
        (range S branches.elseStart branches.last.offset) branches.last.offset) :=
  ifAt_found hlong (Int.le_refl 0) (Int.le_refl _) hbranches

/-- The run of a block without else that ends at its own end. -/
def ownRun (setting : Setting) (body : List Token) : Run (Binary64 × Int) :=
  conditional (range setting 1 4) (range setting 4 (4 + body.length)) (pure 0) (4 + body.length)

theorem firstIf_condition_failed {e : Failure} (hlong : 3 < (S.tape.size : Int))
    (h : (range S 1 4).outcome s = (.error e, t)) : (firstIf S).outcome s = (.error e, t) :=
  ifAt_condition_failed (by omega) h

theorem firstIf_alone (h : Leads S condition body behind) (hbehind : .control .orElse ∉ behind) :
    Sim (.stores Eq) Eq (firstIf S) (ownRun S body) := by
  have hsize := h.size
  have helse : S.tape.firstMarker? .orElse (0 + 4) S.tape.size = .ok none :=
    Tape.firstMarker?_absent h.holds (by simp [h.plain, hbehind])
      (by simp only [List.length_append, List.length_cons]; omega)
  have hlast := Tape.findMarker_found h.holds (h.plain _ (by simp))
    (by omega : _ < (S.tape.size : Int)) true
  obtain ⟨branches, hthen, hno, hoffset, hbranches⟩ := findBranches_alone (by omega) helse hlast
  have hfound := firstIf_found (by omega) hbranches
  rwa [hthen, hno, hoffset, range_empty] at hfound

/-! ## An else marker behind the block -/

section Else

variable {before rest : List Token} {middle : Int} {value : Binary64}

theorem Leads.firstMarker?_else
    (h : Leads S condition body (before ++ .control .orElse :: rest))
    (hbefore : .control .orElse ∉ before) (hmiddle : middle = 5 + body.length + before.length) :
    S.tape.firstMarker? .orElse 4 S.tape.size = .ok (some middle) ∧
      S.tape.Holds middle (.control .orElse :: rest) := by
  have hsize := h.size
  have hholds := h.holds
  simp only [List.length_append, List.length_cons] at hsize
  have hlength : 4 + ((body ++ .control .endIf :: before).length : Int) = middle := by
    simp only [List.length_append, List.length_cons]
    omega
  have hstop : middle < (S.tape.size : Int) := by omega
  rw [← List.cons_append, ← List.append_assoc] at hholds
  have hfound := Tape.firstMarker?_found hholds (by simp [h.plain, hbefore]) (hlength ▸ hstop)
  rw [Tape.holds_append] at hholds
  rw [hlength] at hfound hholds
  exact ⟨hfound, hholds.2⟩

theorem firstIf_else {between after : List Token} {last : Int}
    (h : Leads S condition body
      (before ++ .control .orElse :: (between ++ .control .endIf :: after)))
    (hbefore : .control .orElse ∉ before) (hbetween : .control .endIf ∉ between)
    (hmiddle : middle = 5 + body.length + before.length)
    (hlast : last = middle + 1 + between.length) :
    Sim (.stores Eq) Eq (firstIf S)
      (conditional (range S 1 4) (range S 4 middle) (range S middle last) last) := by
  have hsize := h.size
  simp only [List.length_append, List.length_cons] at hsize
  obtain ⟨helse, hrest⟩ := h.firstMarker?_else hbefore hmiddle
  rw [← List.cons_append] at hrest
  have hfound := Tape.findMarker_found hrest (by simp [hbetween])
    (by simp only [List.length_cons]; omega : _ < (S.tape.size : Int)) true
  obtain ⟨branches, hthen, hno, hoffset, hbranches⟩ := findBranches_else (by omega) helse hfound
  have hend : branches.last.offset = last := by
    rw [hoffset]
    simp only [List.length_cons]
    omega
  have hrun := firstIf_found (by omega) hbranches
  rwa [hthen, hno, hend] at hrun

theorem firstIf_missing (h : Leads S condition body (before ++ .control .orElse :: rest))
    (hbefore : .control .orElse ∉ before) (hrest : .control .endIf ∉ rest) :
    firstIf S = range S 1 4 >>= fun _ => throw (.fault (.missingMarker .endIf)) := by
  have hsize := h.size
  simp only [List.length_append, List.length_cons] at hsize
  obtain ⟨helse, hholds⟩ := h.firstMarker?_else hbefore rfl
  have hnone : Token.control .endIf ∉ .control .orElse :: rest := by simp [hrest]
  have hmissing := Tape.findMarker_absent hholds hnone (by omega : _ < (S.tape.size : Int))
    (by simp only [List.length_cons]; omega)
  exact ifAt_failed (by omega) (findBranches_failed (by omega) helse hmissing)

/-- Both runs fail from a state, with the same failure and the same variables. -/
def FailAlike (m n : Run Binary64) (s : State) : Prop :=
  ∃ e store, observed (m.outcome s) = (.error e, store) ∧ observed (n.outcome s) = (.error e, store)

/-- The branch fails, and it fails alike when it is stretched up to an else marker that stands
behind the block and the tokens `before`. -/
def StretchedAlike (setting : Setting) (body before : List Token) (s : State) : Prop :=
  FailAlike (range setting 4 (5 + body.length + before.length))
    (range setting 4 (4 + body.length)) s

theorem firstIf_else_iff
    (h : Leads S condition body (before ++ .control .orElse :: rest))
    (hbefore : .control .orElse ∉ before) (hrest : .control .endIf ∈ rest)
    (hvalue : (range S 1 4).outcome s = (.ok value, t)) :
    observed ((firstIf S).outcome s) = observed ((ownRun S body).outcome s) ↔
      value.same 0 = false ∧ StretchedAlike S body before t := by
  obtain ⟨between, after, rfl, hbetween⟩ := List.eq_append_cons_of_mem hrest
  rw [sim_observed (firstIf_else h hbefore hbetween rfl rfl) rfl, ownRun,
    observed_conditional_ok hvalue, observed_conditional_ok hvalue, endingAt_eq_iff (by omega)]
  cases hzero : value.same 0 with
  | true => simp [observed]
  | false => simp [StretchedAlike, FailAlike]

theorem firstIf_missing_ne (h : Leads S condition body (before ++ .control .orElse :: rest))
    (hbefore : .control .orElse ∉ before) (hrest : .control .endIf ∉ rest)
    (hvalue : (range S 1 4).outcome s = (.ok value, t)) :
    observed ((firstIf S).outcome s) ≠ observed ((ownRun S body).outcome s) := by
  have hsize := h.size
  rw [firstIf_missing h hbefore hrest, outcome_bind_ok hvalue, outcome_throw, ownRun,
    observed_conditional_ok hvalue]
  intro hsame
  have hown := endingAt_eq_error hsame.symm
  cases hzero : value.same 0 with
  | true => simp [hzero, observed] at hown
  | false =>
    -- The body has no if block of its own whose end could be missing
    simp only [hzero, Bool.false_eq_true, if_false] at hown
    obtain ⟨k, hlo, hhi, hat⟩ := range_arises (by omega) (by omega) t (congrArg Prod.fst hown)
    exact h.plain .ifThen (by simp) ((Tape.holds_append.1 h.holds).1.mem hlo hhi hat)

end Else

/-! ## The block alone -/

theorem observed_firstIf_alone {whole alone : Setting} (h : Leads whole condition body behind)
    (h' : Leads alone condition body []) (hrounds : alone.rounds = whole.rounds) (s : State) :
    observed ((firstIf alone).outcome s) = observed ((ownRun whole body).outcome s) := by
  have hlength : ((ifTokens condition body).length : Int) = 5 + body.length := by
    simp only [ifTokens, List.length_append, List.length_cons, List.length_nil, h.three]
    omega
  have hwhole : whole.tape.Holds 0 (ifTokens condition body) := by
    rw [h.tape]
    exact (Tape.holds_append.1 (Tape.holds_toArray _)).1
  have halone : alone.tape.Holds 0 (ifTokens condition body) := by
    rw [h'.tape]
    exact (Tape.holds_append.1 (Tape.holds_toArray _)).1
  have hcommon {start stop : Int} (hlo : 0 ≤ start) (hhi : stop ≤ 5 + body.length) :
      Sim (.stores Eq) Eq (range alone start stop) (range whole start stop) :=
    sim_range_common hrounds halone hwhole hlo (by omega)
  calc observed ((firstIf alone).outcome s)
    _ = observed ((ownRun alone body).outcome s) := sim_observed (firstIf_alone h' (by simp)) rfl
    _ = observed ((ownRun whole body).outcome s) :=
      sim_observed (sim_conditional (hcommon (by omega) (by omega)) (hcommon (by omega) (by omega))
        (sim_pure rfl) _) rfl

/-- A block without else keeps to itself if and only if no else marker stands behind it, or its
condition fails, or its branch fails and does so alike when it is stretched up to that marker. -/
theorem firstIf_local_iff (hcondition : condition.length = 3)
    (hbody : ∀ kind ∈ [Control.ifThen, .orElse, .endIf], .control kind ∉ body)
    (behind : List Token) (verbosity : Int) (rounds : Nat) (s : State) :
    let whole : Setting := ⟨(ifTokens condition body ++ behind).toArray, verbosity, rounds⟩
    let alone : Setting := ⟨(ifTokens condition body).toArray, verbosity, rounds⟩
    observed ((firstIf whole).outcome s) = observed ((firstIf alone).outcome s) ↔
      .control .orElse ∉ behind ∨
      (∃ e t, (range whole 1 4).outcome s = (.error e, t)) ∨
      ∃ value t before after, (range whole 1 4).outcome s = (.ok value, t) ∧
        behind = before ++ .control .orElse :: after ∧ .control .orElse ∉ before ∧
        .control .endIf ∈ after ∧ value.same 0 = false ∧ StretchedAlike whole body before t := by
  intro whole alone
  have hwhole : Leads whole condition body behind := ⟨rfl, hcondition, hbody⟩
  have halone : Leads alone condition body [] := ⟨by simp [alone], hcondition, hbody⟩
  have hsize := hwhole.size
  rw [observed_firstIf_alone hwhole halone rfl]
  constructor
  · intro hsame
    refine Decidable.or_iff_not_imp_left.2 fun hbehind => ?_
    obtain ⟨before, after, rfl, hbefore⟩ :=
      List.eq_append_cons_of_mem (Decidable.not_not.1 hbehind)
    rcases hvalue : (range whole 1 4).outcome s with ⟨e | value, t⟩
    · exact .inl ⟨e, t, rfl⟩
    -- The end is searched from the else marker on, and the block's own one lies before it
    by_cases hafter : .control .endIf ∈ after
    · have hfail := (firstIf_else_iff hwhole hbefore hafter hvalue).1 hsame
      exact .inr ⟨value, t, before, after, rfl, rfl, hbefore, hafter, hfail⟩
    · exact absurd hsame (firstIf_missing_ne hwhole hbefore hafter hvalue)
  · rintro (hbehind | ⟨e, t, hfailed⟩ | ⟨value, t, before, after, hvalue, rfl, hbefore, hafter,
      hfail⟩)
    · exact sim_observed (firstIf_alone hwhole hbehind) rfl
    · rw [firstIf_condition_failed (by omega) hfailed, ownRun, observed_conditional_error hfailed]
      rfl
    · exact (firstIf_else_iff hwhole hbefore hafter hvalue).2 hfail

theorem firstIf_local_beside_if :
    let condition : List Token := [.reference "x", .operator .greaterThan, .number 0]
    let body : List Token := [.reference "x", .operator .assign, .number 5]
    let behind : List Token := [.control .ifThen, .reference "x", .operator .greaterThan, .number 4,
      .number 6, .control .endIf]
    let state : State := ⟨Table.ofList [("x", 1)], #[]⟩
    condition.length = 3 ∧
      (∀ kind ∈ [Control.ifThen, .orElse, .endIf], .control kind ∉ body) ∧
      observed ((firstIf ⟨(ifTokens condition body ++ behind).toArray, 2, 9⟩).outcome state) =
        observed ((firstIf ⟨(ifTokens condition body).toArray, 2, 9⟩).outcome state) := by
  intro condition body behind state
  have hbody : ∀ kind ∈ [Control.ifThen, .orElse, .endIf], .control kind ∉ body := by decide
  exact ⟨rfl, hbody, (firstIf_local_iff rfl hbody behind 2 9 state).2 (.inl (by decide))⟩

/-- The condition is zero, so the block comes to nothing; but the else branch of the block behind it
is run in its place. -/
theorem firstIf_takes_else_behind :
    let condition : List Token := [.number 0, .operator .greaterThan, .number 1]
    let body : List Token := [.number 5]
    let behind : List Token := [.control .ifThen, .number 1, .operator .greaterThan, .number 0,
      .number 6, .control .orElse, .number 7, .control .endIf]
    let whole : Setting := ⟨(ifTokens condition body ++ behind).toArray, 0, 0⟩
    let alone : Setting := ⟨(ifTokens condition body).toArray, 0, 0⟩
    let state : State := ⟨.empty, #[]⟩
    observed ((firstIf whole).outcome state) = (.ok (7, 13), .empty) ∧
      observed ((firstIf alone).outcome state) = (.ok (0, 5), .empty) ∧
      observed ((firstIf whole).outcome state) ≠ observed ((firstIf alone).outcome state) := by
  intro condition body behind whole alone state
  let before : List Token :=
    [.control .ifThen, .number 1, .operator .greaterThan, .number 0, .number 6]
  have hplain : ∀ kind ∈ [Control.ifThen, .orElse, .endIf], .control kind ∉ body := by decide
  have hleads : Leads whole condition body
      (before ++ .control .orElse :: ([.number 7] ++ .control .endIf :: [])) := ⟨rfl, rfl, hplain⟩
  have hzero : Binary64.same 0 0 = true := by decide +kernel
  have hcondition : (range whole 1 4).outcome state = (.ok 0, state) := by
    rw [show (0 : Binary64) = Operator.greaterThan.apply 0 1 by decide +kernel]
    exact range_compared (by decide) (by decide) rfl rfl rfl _
  have helse : (range whole 11 13).outcome state = (.ok 7, state) := by cbv
  have hwhole : observed ((firstIf whole).outcome state) = (.ok (7, 13), .empty) := by
    have hrun : Sim (.stores Eq) Eq (firstIf whole)
        (conditional (range whole 1 4) (range whole 4 11) (range whole 11 13) 13) :=
      firstIf_else hleads (by decide) (by decide) rfl rfl
    rw [sim_observed hrun rfl, observed_conditional_ok hcondition, if_pos hzero, helse]
    rfl
  have halone : observed ((firstIf alone).outcome state) = (.ok (0, 5), .empty) := by
    have hleads' : Leads alone condition body [] := ⟨rfl, rfl, hplain⟩
    rw [observed_firstIf_alone hleads hleads' rfl, ownRun, observed_conditional_ok hcondition,
      if_pos hzero]
    rfl
  refine ⟨hwhole, halone, ?_⟩
  rw [hwhole, halone]
  simp

end TokenTape.Run
