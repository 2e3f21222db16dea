import Mathlib
import TokenTape.Proofs.Rounding
import TokenTape.Proofs.Triples

/-!
# Counted loops

A loop between two integers takes one round for each integer from the first to the last. The bounds
are read once, so nothing that the body writes changes the rounds.
-/

namespace TokenTape.Run

variable {setting : Setting}

/-! ## Rounds -/

/-- One round of a loop. -/
def loopRound (setting : Setting) (name accumulator : Text) (body : Run Binary64)
    (count : Binary64) : Run Binary64 := do
  assign setting name count
  let result ← body
  assign setting accumulator result
  return result

/-- Rounds for one count after the other. The result is that of the last one, or `result` where
there is none. -/
def loopRounds (setting : Setting) (name accumulator : Text) (body : Run Binary64)
    (counts : List Binary64) (result : Binary64) : Run Binary64 :=
  counts.foldlM (fun _ count => loopRound setting name accumulator body count) result

/-- The numbers from `first`, which is the integer `a`, up to the integer `b`. -/
def counts (first : Binary64) (a b : Int) : List Binary64 :=
  (List.range (b + 1 - a).toNat).map fun i : Nat => if i = 0 then first else .ofInt (a + i)

theorem counts_of_lt (first : Binary64) {a b : Int} (h : b < a) : counts first a b = [] := by
  unfold counts
  rw [Int.toNat_of_nonpos (by omega)]
  rfl

theorem counts_of_le (first : Binary64) {a b : Int} (h : a ≤ b) :
    counts first a b = first :: counts (.ofInt (a + 1)) (a + 1) b := by
  unfold counts
  obtain ⟨n, hn⟩ : ∃ n : Nat, (b + 1 - a).toNat = n + 1 := ⟨(b - a).toNat, by omega⟩
  have hn' : (b + 1 - (a + 1)).toNat = n := by omega
  rw [hn, hn', List.range_succ_eq_map]
  simp only [List.map_cons, List.map_map, if_true, List.cons.injEq, true_and]
  apply List.map_congr_left
  intro i _
  simp only [Function.comp_apply, Nat.succ_eq_add_one, Nat.add_eq_zero_iff, one_ne_zero, and_false,
    if_false]
  split
  · next hi => simp [hi]
  · congr 1
    omega

theorem map_toInt?_counts {first : Binary64} {a b : Int} (hfirst : first.toInt? = some a)
    (ha : -2 ^ 53 ≤ a) (hb : b ≤ 2 ^ 53) :
    (counts first a b).map Binary64.toInt? =
      (List.range (b + 1 - a).toNat).map fun i : Nat => some (a + (i : Int)) := by
  unfold counts
  rw [List.map_map]
  apply List.map_congr_left
  intro i hi
  rw [List.mem_range] at hi
  simp only [Function.comp_apply]
  split
  · next hzero => simp [hzero, hfirst]
  · exact Binary64.ofInt_exact (by omega)

theorem loopBody_counts {first last : Binary64} {a b : Int} (hfirst : first.toInt? = some a)
    (hlast : last.toInt? = some b) (ha : -2 ^ 53 ≤ a) (hb : b < 2 ^ 53) (name accumulator : Text)
    (body : Run Binary64) {rounds : Nat} (hrounds : b + 1 - a ≤ rounds) (result : Binary64) :
    loopBody setting name accumulator body last rounds first result =
      loopRounds setting name accumulator body (counts first a b) result := by
  induction rounds generalizing first a result with
  | zero =>
    unfold loopBody
    rw [if_neg (by rw [Binary64.le_iff_of_toInt? hfirst hlast]; omega),
      counts_of_lt first (by omega)]
    rfl
  | succ rounds ih =>
    have horder := Binary64.le_iff_of_toInt? hfirst hlast
    unfold loopBody
    split
    · next hle =>
      rw [horder] at hle
      have hnext := Binary64.add_one_of_toInt? hfirst
      have hexact : (Binary64.ofInt (a + 1)).toInt? = some (a + 1) :=
        Binary64.ofInt_exact (by omega)
      simp only [counts_of_le first hle, loopRounds, List.foldlM_cons, loopRound, bind_assoc,
        pure_bind, hnext]
      congr 1
      funext _
      congr 1
      funext value
      congr 1
      funext _
      exact ih hexact (by omega) (by omega) value
    · next hgt =>
      rw [horder] at hgt
      rw [counts_of_lt first (by omega)]
      rfl

/-! ## How rounds end -/

section Rounds

variable {name accumulator : Text} {body : Run Binary64} {s t : State}

theorem outcome_assign_ok (setting : Setting) (name : Text) (value : Binary64) (s : State) :
    ∃ t, (assign setting name value).outcome s = (.ok (), t) ∧
      t.store = s.store.insert name value := by
  rw [outcome_assign, outcome_emit]
  refine ⟨_, rfl, ?_⟩
  split <;> rfl

theorem loopRound_ok {count value : Binary64}
    (h : (loopRound setting name accumulator body count).outcome s = (.ok value, t)) :
    t.store.get? accumulator = some value := by
  unfold loopRound at h
  obtain ⟨s₁, hcount, -⟩ := outcome_assign_ok setting name count s
  rw [outcome_bind_ok hcount] at h
  rcases hbody : body.outcome s₁ with ⟨e | result, s₂⟩
  · rw [outcome_bind_error hbody] at h
    cases h
  · obtain ⟨s₃, hresult, hstore⟩ := outcome_assign_ok setting accumulator result s₂
    rw [outcome_bind_ok hbody, outcome_bind_ok hresult] at h
    cases h
    rw [hstore, Table.get?_insert, if_pos rfl]

theorem loopRound_error {count : Binary64} {e : Failure}
    (h : (loopRound setting name accumulator body count).outcome s = (.error e, t)) :
    (assign setting name count >>= fun _ => body).outcome s = (.error e, t) := by
  unfold loopRound at h
  obtain ⟨s₁, hcount, -⟩ := outcome_assign_ok setting name count s
  rw [outcome_bind_ok hcount] at h ⊢
  rcases hbody : body.outcome s₁ with ⟨e' | result, s₂⟩
  · rw [outcome_bind_error hbody] at h
    exact h
  · obtain ⟨s₃, hresult, -⟩ := outcome_assign_ok setting accumulator result s₂
    rw [outcome_bind_ok hbody, outcome_bind_ok hresult] at h
    cases h

theorem loopRounds_cons (count : Binary64) (counts : List Binary64) (result : Binary64) :
    loopRounds setting name accumulator body (count :: counts) result =
      loopRound setting name accumulator body count >>=
        loopRounds setting name accumulator body counts := by
  unfold loopRounds
  rw [List.foldlM_cons]

theorem loopRounds_ok {counts : List Binary64} (hne : counts ≠ []) {result value : Binary64}
    (h : (loopRounds setting name accumulator body counts result).outcome s = (.ok value, t)) :
    t.store.get? accumulator = some value := by
  induction counts generalizing s result with
  | nil => exact absurd rfl hne
  | cons count rest ih =>
    rw [loopRounds_cons] at h
    rcases hround : (loopRound setting name accumulator body count).outcome s with ⟨e | value', u⟩
    · rw [outcome_bind_error hround] at h
      cases h
    · rw [outcome_bind_ok hround] at h
      cases rest with
      | nil =>
        cases h
        exact loopRound_ok hround
      | cons count' rest => exact ih (by simp) h

/-- Rounds that fail do so in one body, and all the rounds before it are whole. -/
theorem loopRounds_error {counts : List Binary64} {result : Binary64} {e : Failure}
    (h : (loopRounds setting name accumulator body counts result).outcome s = (.error e, t)) :
    ∃ before count behind value u, counts = before ++ count :: behind ∧
      (loopRounds setting name accumulator body before result).outcome s = (.ok value, u) ∧
      (assign setting name count >>= fun _ => body).outcome u = (.error e, t) := by
  induction counts generalizing s result with
  | nil => cases h
  | cons count rest ih =>
    rw [loopRounds_cons] at h
    rcases hround : (loopRound setting name accumulator body count).outcome s with ⟨e' | value', u⟩
    · rw [outcome_bind_error hround] at h
      cases h
      exact ⟨[], count, rest, result, s, rfl, rfl, loopRound_error hround⟩
    · rw [outcome_bind_ok hround] at h
      obtain ⟨before, count', behind, value, u', rfl, hbefore, hfailed⟩ := ih h
      refine ⟨count :: before, count', behind, value, u', rfl, ?_, hfailed⟩
      rw [loopRounds_cons, outcome_bind_ok hround]
      exact hbefore

end Rounds

/-! ## The block of a loop -/

/-- A loop with everything that its block asks for, in a view up to `stop`. -/
structure LoopHeader (setting : Setting) (offset stop : Int) where
  name : Text
  accumulator : Text
  bodyStop : Int
  long : offset + 5 < stop
  name_at : setting.tape.at? (offset + 1) = some (.reference name)
  accumulator_at : setting.tape.at? (offset + 4) = some (.reference accumulator)
  bodyStop_found : setting.tape.findMarker .endFor (offset + 4) stop true = .ok bodyStop

/-- The block of the loop at an offset, with the offset of its last marker. -/
def loopAt (setting : Setting) (offset stop : Int) (result : Binary64) : Run (Binary64 × Int) := do
  let (result, last) ← forBlock setting offset stop result
  return (result, last.offset)

variable {offset stop : Int}

def LoopHeader.body (header : LoopHeader setting offset stop) : Run Binary64 :=
  range setting (offset + 4) header.bodyStop

/-- The rounds of the loop, for given counts. -/
def LoopHeader.rounds (header : LoopHeader setting offset stop) :
    List Binary64 → Binary64 → Run Binary64 :=
  loopRounds setting header.name header.accumulator header.body

/-- What a loop reports before its first round. -/
def LoopHeader.event (header : LoopHeader setting offset stop) (first last : Binary64) : Event :=
  .loop header.name first last (offset + 4) header.bodyStop

section Bounds

variable (header : LoopHeader setting offset stop) {first last : Binary64} {s t u : State}
  (hfirst : (range setting (offset + 2) (offset + 3)).outcome s = (.ok first, t))
  (hlast : (range setting (offset + 3) (offset + 4)).outcome t = (.ok last, u))
include hfirst hlast

theorem LoopHeader.loopAt_eq (result : Binary64) :
    (loopAt setting offset stop result).outcome s =
      (emit setting (header.event first last) >>= fun _ =>
        loopBody setting header.name header.accumulator header.body last setting.rounds first
          result >>= fun value => pure (value, header.bodyStop)).outcome u := by
  have hlong := header.long
  obtain ⟨bodyStop, hoffset, hfound⟩ := findEnd_found (by omega) header.bodyStop_found
  unfold loopAt forBlock
  rw [dif_pos hlong, fetchName_reference header.name_at]
  simp only [pure_bind, bind_assoc]
  rw [outcome_bind_ok hfirst, outcome_bind_ok hlast, hfound]
  simp only [pure_bind, fetchName_reference header.accumulator_at, hoffset]
  rfl

theorem LoopHeader.outcome_loopAt (result : Binary64) :
    ∃ ready : State, ready.store = s.store ∧
      (loopAt setting offset stop result).outcome s =
        (loopBody setting header.name header.accumulator header.body last setting.rounds first
          result >>= fun value => pure (value, header.bodyStop)).outcome ready := by
  have hstore : u.store = s.store :=
    (store_of_single hlast (by omega)).trans (store_of_single hfirst (by omega))
  have hemit := outcome_emit setting (header.event first last) u
  refine ⟨_, ?_, (header.loopAt_eq hfirst hlast result).trans (outcome_bind_ok hemit)⟩
  rw [← hstore]
  split <;> rfl

end Bounds

/-- A loop whose bounds come to integers runs its body once for each integer between them, in order,
whatever the body writes. Its rounds never run out, since `2 ^ 54` of them are enough. -/
theorem loopAt_counted (header : LoopHeader setting offset stop)
    (hrounds : roundLimit ≤ setting.rounds) {first last : Binary64} {a b : Int} {s t u : State}
    (hfirst : (range setting (offset + 2) (offset + 3)).outcome s = (.ok first, t))
    (hlast : (range setting (offset + 3) (offset + 4)).outcome t = (.ok last, u))
    (ha : first.toInt? = some a) (hb : last.toInt? = some b) (hlow : a.natAbs ≤ 2 ^ 53)
    (hhigh : b ≤ 2 ^ 53 - 1) (result : Binary64) :
    (counts first a b).map Binary64.toInt? =
        (List.range (b + 1 - a).toNat).map (fun i : Nat => some (a + (i : Int))) ∧
      ∃ ready : State, ready.store = s.store ∧
        (loopAt setting offset stop result).outcome s =
          (header.rounds (counts first a b) result >>= fun value =>
            pure (value, header.bodyStop)).outcome ready ∧
        (b < a → (loopAt setting offset stop result).outcome s =
          (.ok (result, header.bodyStop), ready)) ∧
        (a ≤ b → ∀ value last t,
          (loopAt setting offset stop result).outcome s = (.ok (value, last), t) →
          last = header.bodyStop ∧ t.store.get? header.accumulator = some value) ∧
        ∀ e t, (loopAt setting offset stop result).outcome s = (.error e, t) →
          ∃ before count behind value u, counts first a b = before ++ count :: behind ∧
            (header.rounds before result).outcome ready = (.ok value, u) ∧
            (assign setting header.name count >>= fun _ => header.body).outcome u =
              (.error e, t) := by
  have hlimit : roundLimit = 2 ^ 55 := rfl
  refine ⟨map_toInt?_counts ha (by omega) (by omega), ?_⟩
  obtain ⟨ready, hready, hloop⟩ := header.outcome_loopAt hfirst hlast result
  have hbody : loopBody setting header.name header.accumulator header.body last setting.rounds first
      result = header.rounds (counts first a b) result :=
    loopBody_counts ha hb (by omega) (by omega) header.name header.accumulator header.body
      (by omega) result
  rw [hbody] at hloop
  refine ⟨ready, hready, hloop, ?_, ?_, ?_⟩
  · intro hlt
    rw [hloop, counts_of_lt first hlt]
    rfl
  · intro hle value last t hok
    have hne : counts first a b ≠ [] := by simp [counts_of_le first hle]
    rcases hrun : (header.rounds (counts first a b) result).outcome ready with ⟨e | value', t'⟩
    · rw [hloop, outcome_bind_error hrun] at hok
      cases hok
    · rw [hloop, outcome_bind_ok hrun] at hok
      cases hok
      exact ⟨rfl, loopRounds_ok hne hrun⟩
  · intro e t herror
    rcases hrun : (header.rounds (counts first a b) result).outcome ready with ⟨e' | value', t'⟩
    · rw [hloop, outcome_bind_error hrun] at herror
      cases herror
      exact loopRounds_error hrun
    · rw [hloop, outcome_bind_ok hrun] at herror
      cases herror

/-- The body sets the variable that the last count was read from, and there are three rounds
nevertheless. -/
theorem loopAt_counted_bound_written :
    let setting : Setting :=
      ⟨#[.control .forLoop, .reference "i", .number 1, .reference "n", .reference "n",
        .operator .assign, .number 0, .control .endFor], 2, roundLimit⟩
    let state : State := ⟨Table.ofList [("n", 3)], #[]⟩
    ∃ ready : State, ready.store = state.store ∧
      (loopAt setting 0 8 5).outcome state =
        (loopRounds setting "i" "n" (range setting 4 7) [1, 2, 3] 5 >>= fun value =>
          pure (value, 7)).outcome ready := by
  intro setting state
  let header : LoopHeader setting 0 8 :=
    ⟨"i", "n", 7, by decide, rfl, rfl, by cbv⟩
  have hfirst : (range setting (0 + 2) (0 + 3)).outcome state = (.ok 1, state) := by cbv
  have hlast : (range setting (0 + 3) (0 + 4)).outcome state = (.ok 3, state) := by cbv
  have hone : (1 : Binary64).toInt? = some 1 := Binary64.ofInt_exact (by norm_num)
  have hthree : (3 : Binary64).toInt? = some 3 := Binary64.ofInt_exact (by norm_num)
  obtain ⟨-, ready, hready, hloop, -⟩ := loopAt_counted header (Nat.le_refl _) hfirst hlast hone
    hthree (by norm_num) (by norm_num) 5
  exact ⟨ready, hready, hloop⟩

end TokenTape.Run
