import Mathlib
import TokenTape.Tape

/-!
# Searches between any two offsets

A search may begin before the tape and end behind it. It goes from offset to offset and stops at the
first one that has the marker or lies beyond the tape. A negative offset counts from the end, so one
search can run over the end of the tape and on to its beginning.
-/

namespace TokenTape.Tape

variable {tape : Tape} {kind : Control} {start stop k : Int}

/-! ## Offsets -/

/-- The offset lies beyond either end of the tape. -/
def Beyond (tape : Tape) (k : Int) : Prop :=
  k < -tape.size ∨ tape.size ≤ k

/-- The token stands at an offset, which counts its place from the beginning or from the end. -/
def Shows (tape : Tape) (k : Int) (token : Token) : Prop :=
  ∃ i : Nat, (k = i ∨ k = i - tape.size) ∧ tape[i]? = some token

theorem beyond_of_at? (h : tape.at? k = none) : tape.Beyond k := by
  unfold Tape.at? at h
  unfold Beyond
  dsimp only at h
  split at h
  · split at h
    · omega
    · rw [Array.getElem?_eq_none_iff] at h
      omega
  · rw [Array.getElem?_eq_none_iff] at h
    omega

theorem shows_of_at? {token : Token} (h : tape.at? k = some token) : tape.Shows k token := by
  unfold Tape.at? at h
  dsimp only at h
  split at h
  · split at h
    · cases h
    · exact ⟨_, by omega, h⟩
  · exact ⟨_, by omega, h⟩

theorem Shows.not_beyond {token : Token} (h : tape.Shows k token) : ¬tape.Beyond k := by
  obtain ⟨i, hk, hi⟩ := h
  obtain ⟨hlt, -⟩ := Array.getElem?_eq_some_iff.1 hi
  unfold Beyond
  omega

theorem Shows.unique {token token' : Token} (h : tape.Shows k token) (h' : tape.Shows k token') :
    token = token' := by
  obtain ⟨i, hk, hi⟩ := h
  obtain ⟨i', hk', hi'⟩ := h'
  obtain ⟨hlt, -⟩ := Array.getElem?_eq_some_iff.1 hi
  obtain ⟨hlt', -⟩ := Array.getElem?_eq_some_iff.1 hi'
  obtain rfl : i = i' := by omega
  simpa [hi] using hi'

theorem shows_iff {token : Token} : tape.Shows k token ↔ tape.at? k = some token := by
  refine ⟨fun h => ?_, shows_of_at?⟩
  cases hat : tape.at? k with
  | none => exact absurd (beyond_of_at? hat) h.not_beyond
  | some other => rw [(shows_of_at? hat).unique h]

instance (tape : Tape) (k : Int) : Decidable (tape.Beyond k) :=
  inferInstanceAs (Decidable (_ ∨ _))

instance (tape : Tape) (k : Int) (token : Token) : Decidable (tape.Shows k token) :=
  decidable_of_iff _ shows_iff.symm

/-! ## Where a search stops -/

/-- The offsets at which a search can go no further. -/
def stops (tape : Tape) (kind : Control) (start stop : Int) : Set Int :=
  {k | start ≤ k ∧ k < stop ∧ (tape.Beyond k ∨ tape.Shows k (.control kind))}

theorem stops_of_le (h : stop ≤ start) : tape.stops kind start stop = ∅ := by
  ext k
  simp only [stops, Set.mem_ofPred_eq, Set.mem_empty_iff_false, iff_false]
  omega

theorem isLeast_start (hlt : start < stop)
    (h : tape.Beyond start ∨ tape.Shows start (.control kind)) :
    IsLeast (tape.stops kind start stop) start :=
  ⟨⟨Int.le_refl _, hlt, h⟩, fun _ hk => hk.1⟩

theorem stops_skip {token : Token} (hat : tape.Shows start token)
    (hother : token ≠ .control kind) :
    tape.stops kind start stop = tape.stops kind (start + 1) stop := by
  ext k
  simp only [stops, Set.mem_ofPred_eq]
  constructor
  · rintro ⟨hle, hlt, hk⟩
    have hne : start ≠ k := by
      rintro rfl
      rcases hk with hbeyond | hmarker
      · exact hat.not_beyond hbeyond
      · exact hother (hat.unique hmarker)
    exact ⟨by omega, hlt, hk⟩
  · rintro ⟨hle, hlt, hk⟩
    exact ⟨by omega, hlt, hk⟩

/-- A search ends at its first stop, and how it ends there depends on the stop alone. -/
theorem firstMarker?_stops (tape : Tape) (kind : Control) (start stop : Int) :
    (∃ k, IsLeast (tape.stops kind start stop) k ∧
      (tape.Beyond k ∧ tape.firstMarker? kind start stop = .error .offsetOutOfRange ∨
        tape.Shows k (.control kind) ∧ tape.firstMarker? kind start stop = .ok (some k))) ∨
    tape.stops kind start stop = ∅ ∧ tape.firstMarker? kind start stop = .ok none := by
  fun_induction firstMarker? tape kind start stop with
  | case1 start hlt hat =>
    have hbeyond := beyond_of_at? hat
    exact .inl ⟨start, isLeast_start hlt (.inl hbeyond), .inl ⟨hbeyond, rfl⟩⟩
  | case2 start hlt token hat hmarker =>
    obtain rfl : token = .control kind := of_decide_eq_true hmarker
    have hshows := shows_of_at? hat
    exact .inl ⟨start, isLeast_start hlt (.inr hshows), .inr ⟨hshows, rfl⟩⟩
  | case3 start hlt token hat hmarker ih =>
    have hother : token ≠ .control kind := fun heq => hmarker (decide_eq_true heq)
    rw [stops_skip (shows_of_at? hat) hother]
    exact ih
  | case4 start hge => exact .inr ⟨stops_of_le (by omega), rfl⟩

/-- Between equal offsets there is nothing to search, and the search ends where it began. Otherwise
the first stop decides: beyond the tape the search fails, and a marker is what it was looking for.
Where there is no stop, a required marker is missing, and an optional one is answered by the
beginning. -/
theorem findMarkerFrom_stops (tape : Tape) (kind : Control) (start : Int) (last : Option Int)
    (required : Bool) :
    let stop := last.getD tape.size
    let stops := tape.stops kind start stop
    let found := tape.findMarkerFrom kind start last required
    (start = stop → found = .ok start) ∧
    (start ≠ stop →
      (∀ k, IsLeast stops k →
        (tape.Beyond k → found = .error .offsetOutOfRange) ∧
        (tape.Shows k (.control kind) → found = .ok k)) ∧
      (stops = ∅ →
        (required = false → found = .ok start) ∧
        (required = true →
          let fault := Fault.missingMarker kind
          found = .error (.fault fault) ∧
            fault.kind = if kind = .endFor then .missingEndFor
              else if kind = .endIf then .missingEndIf else .missingMarker))) ∧
    (stops = ∅ ∨ ∃ k, IsLeast stops k ∧ (tape.Beyond k ∨ tape.Shows k (.control kind))) := by
  intro stop stops found
  have hsearch := firstMarker?_stops tape kind start stop
  have hfound : found = tape.findMarker kind start stop required := rfl
  refine ⟨fun hempty => ?_, fun hne => ⟨fun k hk => ?_, fun hnone => ?_⟩, ?_⟩
  · rw [hfound, findMarker, if_pos hempty]
  · rw [hfound, findMarker, if_neg hne]
    rcases hsearch with ⟨j, hj, hends⟩ | ⟨hnone, -⟩
    · obtain rfl : j = k := hj.unique hk
      rcases hends with ⟨hbeyond, hfirst⟩ | ⟨hshows, hfirst⟩
      · exact ⟨fun _ => by rw [hfirst], fun hshows => absurd hbeyond hshows.not_beyond⟩
      · exact ⟨fun hbeyond => absurd hbeyond hshows.not_beyond, fun _ => by rw [hfirst]⟩
    · have hmem : k ∈ tape.stops kind start stop := hk.1
      simp [hnone] at hmem
  · rw [hfound, findMarker, if_neg hne]
    rcases hsearch with ⟨j, hj, -⟩ | ⟨-, hfirst⟩
    · have hmem : j ∈ stops := hj.1
      simp [hnone] at hmem
    · rw [hfirst]
      refine ⟨fun hoptional => by simp [hoptional], fun hrequired => ⟨by simp [hrequired], ?_⟩⟩
      cases kind <;> rfl
  · rcases hsearch with ⟨j, hj, -⟩ | ⟨hnone, -⟩
    · exact .inr ⟨j, hj, hj.1.2.2⟩
    · exact .inl hnone

theorem findMarkerFrom_stops_around :
    let tape : Tape := #[.control .endIf, .operator .add, .reference "x"]
    IsLeast (tape.stops .endIf (-2) 3) 0 ∧
      tape.findMarkerFrom .endIf (-2) none true = .ok 0 ∧
      tape.findMarkerFrom .endIf (-4) (some 3) false = .error .offsetOutOfRange ∧
      tape.findMarkerFrom .endIf 2 (some 1) true = .error (.fault (.missingMarker .endIf)) ∧
      tape.findMarkerFrom .endIf 1 (some 3) false = .ok 1 := by
  intro tape
  have hleast : IsLeast (tape.stops .endIf (-2) 3) 0 := by
    refine ⟨⟨by decide, by decide, .inr (by decide)⟩, ?_⟩
    rintro k ⟨hle, hlt, hk⟩
    by_contra hneg
    obtain rfl | rfl : k = -2 ∨ k = -1 := by omega
    · revert hk; decide
    · revert hk; decide
  have hbefore : IsLeast (tape.stops .endIf (-4) 3) (-4) :=
    isLeast_start (by decide) (.inl (by decide))
  have hnone : tape.stops .endIf 1 3 = ∅ := by
    have hfirst : tape.Shows 1 (.operator .add) := by decide
    have hsecond : tape.Shows (1 + 1) (.reference "x") := by decide
    rw [stops_skip hfirst (by decide), stops_skip hsecond (by decide)]
    exact stops_of_le (by decide)
  refine ⟨hleast, ?_, ?_, ?_, ?_⟩
  · exact (((findMarkerFrom_stops tape .endIf (-2) none true).2.1 (by decide)).1 0 hleast).2
      (by decide)
  · exact (((findMarkerFrom_stops tape .endIf (-4) (some 3) false).2.1 (by decide)).1 (-4)
      hbefore).1 (by decide)
  · exact ((((findMarkerFrom_stops tape .endIf 2 (some 1) true).2.1 (by decide)).2
      (stops_of_le (by decide))).2 rfl).1
  · exact (((findMarkerFrom_stops tape .endIf 1 (some 3) false).2.1 (by decide)).2 hnone).1 rfl

end TokenTape.Tape
