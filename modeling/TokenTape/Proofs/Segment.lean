import TokenTape.Tape

/-!
# Segments of a tape

A tape holds a row of tokens from an offset on. What a marker search finds is then a matter of the
row alone.
-/

namespace TokenTape.Tape

variable {tape : Tape} {kind : Control} {start stop : Int}

theorem at?_natCast (tape : Tape) (n : Nat) : tape.at? n = tape[n]? := by
  have h : ¬((n : Int) < 0) := by omega
  simp [at?, h]

/-- The tape holds the tokens of a list, one after the other, from `start` on. -/
def Holds (tape : Tape) (start : Int) (tokens : List Token) : Prop :=
  ∀ (i : Nat) (token : Token), tokens[i]? = some token → tape.at? (start + i) = some token

theorem holds_nil (tape : Tape) (start : Int) : tape.Holds start [] := by
  intro i token h
  simp at h

theorem holds_cons {token : Token} {rest : List Token} :
    tape.Holds start (token :: rest) ↔
      tape.at? start = some token ∧ tape.Holds (start + 1) rest := by
  constructor
  · intro h
    refine ⟨by simpa using h 0 token rfl, fun i found hi => ?_⟩
    have := h (i + 1) found (by simpa using hi)
    rwa [show start + 1 + (i : Int) = start + ((i + 1 : Nat) : Int) by omega]
  · rintro ⟨hhead, hrest⟩ i found hi
    cases i with
    | zero => simpa using hhead.trans (by simpa using hi)
    | succ i =>
      rw [show start + ((i + 1 : Nat) : Int) = start + 1 + (i : Int) by omega]
      exact hrest i found (by simpa using hi)

theorem holds_append {before behind : List Token} :
    tape.Holds start (before ++ behind) ↔
      tape.Holds start before ∧ tape.Holds (start + before.length) behind := by
  induction before generalizing start with
  | nil => simp [holds_nil]
  | cons token rest ih =>
    rw [List.cons_append, holds_cons, holds_cons, ih, and_assoc, List.length_cons,
      show start + 1 + (rest.length : Int) = start + ((rest.length + 1 : Nat) : Int) by omega]

theorem holds_toArray (tokens : List Token) : Holds tokens.toArray 0 tokens := by
  intro i token h
  rw [Int.zero_add, at?_natCast]
  simpa using h

theorem holds_middle (before middle behind : List Token) :
    Holds (before ++ middle ++ behind).toArray before.length middle := by
  have h := (holds_append.1 (holds_append.1 (holds_toArray (before ++ middle ++ behind))).1).2
  simpa using h

theorem Holds.common {tape' : Tape} {tokens : List Token} {d k : Int} (h : tape.Holds start tokens)
    (h' : tape'.Holds (start + d) tokens) (hlo : start ≤ k) (hhi : k < start + tokens.length) :
    ∃ token, tape.at? k = some token ∧ tape'.at? (k + d) = some token := by
  obtain ⟨i, rfl⟩ : ∃ i : Nat, k = start + i := ⟨(k - start).toNat, by omega⟩
  have hi : i < tokens.length := by omega
  refine ⟨tokens[i], h i _ (List.getElem?_eq_getElem hi), ?_⟩
  rw [Int.add_right_comm]
  exact h' i _ (List.getElem?_eq_getElem hi)

theorem Holds.mem {tokens : List Token} {k : Int} {token : Token} (h : tape.Holds start tokens)
    (hlo : start ≤ k) (hhi : k < start + tokens.length) (hat : tape.at? k = some token) :
    token ∈ tokens := by
  obtain ⟨i, rfl⟩ : ∃ i : Nat, k = start + i := ⟨(k - start).toNat, by omega⟩
  have hi : i < tokens.length := by omega
  rw [h i _ (List.getElem?_eq_getElem hi)] at hat
  cases hat
  exact List.getElem_mem hi

/-! ## Searching a segment -/

theorem firstMarker?_eq (tape : Tape) (kind : Control) (h : start < stop) {token : Token}
    (hat : tape.at? start = some token) :
    tape.firstMarker? kind start stop =
      if token = .control kind then .ok (some start)
      else tape.firstMarker? kind (start + 1) stop := by
  rw [firstMarker?, if_pos h, hat]
  simp [Token.isMarker]

theorem firstMarker?_of_le (tape : Tape) (kind : Control) (h : stop ≤ start) :
    tape.firstMarker? kind start stop = .ok none := by
  rw [firstMarker?, if_neg (by omega)]

theorem firstMarker?_skip {tokens : List Token} (h : tape.Holds start tokens)
    (hnot : .control kind ∉ tokens) (hstop : start + tokens.length ≤ stop) :
    tape.firstMarker? kind start stop =
      tape.firstMarker? kind (start + tokens.length) stop := by
  induction tokens generalizing start with
  | nil => simp
  | cons token rest ih =>
    obtain ⟨hhead, hrest⟩ := holds_cons.1 h
    simp only [List.mem_cons, not_or, List.length_cons] at hnot hstop ⊢
    rw [firstMarker?_eq tape kind (by omega) hhead, if_neg (Ne.symm hnot.1),
      ih hrest hnot.2 (by omega)]
    congr 1
    omega

theorem firstMarker?_found {tokens rest : List Token}
    (h : tape.Holds start (tokens ++ .control kind :: rest))
    (hnot : .control kind ∉ tokens) (hstop : start + tokens.length < stop) :
    tape.firstMarker? kind start stop = .ok (some (start + tokens.length)) := by
  obtain ⟨htokens, hmarker⟩ := holds_append.1 h
  rw [firstMarker?_skip htokens hnot (by omega),
    firstMarker?_eq tape kind hstop (holds_cons.1 hmarker).1, if_pos rfl]

theorem firstMarker?_absent {tokens : List Token} (h : tape.Holds start tokens)
    (hnot : .control kind ∉ tokens) (hstop : stop = start + tokens.length) :
    tape.firstMarker? kind start stop = .ok none := by
  rw [firstMarker?_skip h hnot (by omega), firstMarker?_of_le tape kind (by omega)]

theorem findMarker_found {tokens rest : List Token}
    (h : tape.Holds start (tokens ++ .control kind :: rest))
    (hnot : .control kind ∉ tokens) (hstop : start + tokens.length < stop) (required : Bool) :
    tape.findMarker kind start stop required = .ok (start + tokens.length) := by
  rw [findMarker, if_neg (by omega), firstMarker?_found h hnot hstop]

theorem findMarker_absent {tokens : List Token} (h : tape.Holds start tokens)
    (hnot : .control kind ∉ tokens) (hlt : start < stop) (hstop : stop = start + tokens.length) :
    tape.findMarker kind start stop true = .error (.fault (.missingMarker kind)) := by
  rw [findMarker, if_neg (by omega), firstMarker?_absent h hnot hstop]
  rfl

/-! ## Searching further -/

theorem firstMarker?_stretch {stop' offset : Int} (hle : stop ≤ stop')
    (h : tape.firstMarker? kind start stop = .ok (some offset)) :
    tape.firstMarker? kind start stop' = .ok (some offset) := by
  induction start using firstMarker?.induct tape kind stop with
  | case1 start hlt hat =>
    rw [firstMarker?, if_pos hlt, hat] at h
    cases h
  | case2 start hlt token hat hmarker =>
    have htoken : token = .control kind := of_decide_eq_true hmarker
    rw [firstMarker?_eq tape kind hlt hat, if_pos htoken] at h
    rw [firstMarker?_eq tape kind (by omega) hat, if_pos htoken, h]
  | case3 start hlt token hat hmarker ih =>
    have htoken : token ≠ .control kind := fun heq => hmarker (decide_eq_true heq)
    rw [firstMarker?_eq tape kind hlt hat, if_neg htoken] at h
    rw [firstMarker?_eq tape kind (by omega) hat, if_neg htoken, ih h]
  | case4 start hge =>
    rw [firstMarker?_of_le tape kind (by omega)] at h
    cases h

theorem firstMarker?_resume {stop' : Int} (hle : start ≤ stop) (hle' : stop ≤ stop')
    (h : tape.firstMarker? kind start stop = .ok none) :
    tape.firstMarker? kind start stop' = tape.firstMarker? kind stop stop' := by
  induction start using firstMarker?.induct tape kind stop with
  | case1 start hlt hat =>
    rw [firstMarker?, if_pos hlt, hat] at h
    cases h
  | case2 start hlt token hat hmarker =>
    have htoken : token = .control kind := of_decide_eq_true hmarker
    rw [firstMarker?_eq tape kind hlt hat, if_pos htoken] at h
    cases h
  | case3 start hlt token hat hmarker ih =>
    have htoken : token ≠ .control kind := fun heq => hmarker (decide_eq_true heq)
    rw [firstMarker?_eq tape kind hlt hat, if_neg htoken] at h
    rw [firstMarker?_eq tape kind (by omega) hat, if_neg htoken, ih (by omega) h]
  | case4 start hge => rw [show start = stop by omega]

theorem findMarker_stretch {stop' offset : Int} (hlt : start < stop) (hle : stop ≤ stop')
    (h : tape.findMarker kind start stop true = .ok offset) :
    offset < stop ∧ tape.findMarker kind start stop' true = .ok offset := by
  unfold findMarker at h ⊢
  rw [if_neg (by omega)] at h ⊢
  split at h
  · cases h
  · next hfound =>
    cases h
    refine ⟨(firstMarker?_mem hfound).2, ?_⟩
    rw [firstMarker?_stretch hle hfound]
  · cases h

end TokenTape.Tape
