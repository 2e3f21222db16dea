import Mathlib
import TokenTape.Proofs.Invariants

/-!
# Where markers stand

A search for a marker walks along the tape. What it finds is the least offset that has the marker,
and where there is none it says so.
-/

namespace TokenTape.Tape

variable {tape : Tape} {kind : Control} {start stop k : Int}

/-- The first marker of a kind in a view. -/
def First (tape : Tape) (kind : Control) (start stop k : Int) : Prop :=
  IsLeast {k | tape.Within start stop k (.control kind)} k

def Lacks (tape : Tape) (kind : Control) (start stop : Int) : Prop :=
  ∀ k, ¬tape.Within start stop k (.control kind)

theorem Lacks.mono {start' stop' : Int} (h : tape.Lacks kind start stop) (hstart : start ≤ start')
    (hstop : stop' ≤ stop) : tape.Lacks kind start' stop' :=
  fun k hk => h k (hk.mono hstart hstop)

theorem First.not_lacks (h : tape.First kind start stop k) : ¬tape.Lacks kind start stop :=
  fun hlacks => hlacks k h.1

theorem First.lacks (h : tape.First kind start stop k) : tape.Lacks kind start k := by
  rintro j ⟨hlo, hhi, hat⟩
  have hle : k ≤ j := h.2 ⟨hlo, by have := h.1.2.1; omega, hat⟩
  omega

/-! ## A token that is no such marker -/

section Skip

variable (hat : tape.at? start ≠ some (.control kind))
include hat

theorem within_skip_iff :
    tape.Within start stop k (.control kind) ↔ tape.Within (start + 1) stop k (.control kind) := by
  constructor
  · rintro ⟨hlo, hhi, hk⟩
    have hne : start ≠ k := by
      rintro rfl
      exact hat hk
    exact ⟨by omega, hhi, hk⟩
  · exact fun h => h.mono (by omega) (Int.le_refl _)

theorem first_skip_iff : tape.First kind start stop k ↔ tape.First kind (start + 1) stop k := by
  simp only [First, within_skip_iff hat]

theorem lacks_skip_iff : tape.Lacks kind start stop ↔ tape.Lacks kind (start + 1) stop := by
  simp only [Lacks, within_skip_iff hat]

end Skip

/-! ## What a search finds -/

/-- On the tape the search ends at the first marker, or it finds that there is none. -/
theorem firstMarker?_cases (kind : Control) (hlo : 0 ≤ start) (hhi : stop ≤ tape.size) :
    (∃ k, tape.firstMarker? kind start stop = .ok (some k) ∧ tape.First kind start stop k) ∨
      tape.firstMarker? kind start stop = .ok none ∧ tape.Lacks kind start stop := by
  fun_induction firstMarker? tape kind start stop with
  | case1 start hlt hat =>
    obtain ⟨token, -, htoken⟩ := tape.at?_of_size hlo (by omega)
    rw [hat] at htoken
    cases htoken
  | case2 start hlt token hat hmarker =>
    have htoken : token = .control kind := of_decide_eq_true hmarker
    refine .inl ⟨start, rfl, ⟨Int.le_refl _, hlt, by rw [hat, htoken]⟩, ?_⟩
    exact fun j hj => hj.1
  | case3 start hlt token hat hmarker ih =>
    have hother : tape.at? start ≠ some (.control kind) := by
      rw [hat]
      rintro ⟨⟩
      exact hmarker (decide_eq_true rfl)
    rw [lacks_skip_iff hother]
    simp only [first_skip_iff hother]
    exact ih (by omega)
  | case4 start hge => exact .inr ⟨rfl, fun j hj => by have := hj.1; have := hj.2.1; omega⟩

theorem first_of_firstMarker? (h : tape.firstMarker? kind start stop = .ok (some k))
    (hlo : 0 ≤ start) (hhi : stop ≤ tape.size) : tape.First kind start stop k := by
  rcases firstMarker?_cases kind hlo hhi with ⟨j, hfound, hfirst⟩ | ⟨hnone, -⟩
  · rw [h] at hfound
    cases hfound
    exact hfirst
  · rw [h] at hnone
    cases hnone

theorem First.firstMarker? (h : tape.First kind start stop k) (hlo : 0 ≤ start)
    (hhi : stop ≤ tape.size) : tape.firstMarker? kind start stop = .ok (some k) := by
  rcases firstMarker?_cases kind hlo hhi with ⟨j, hfound, hfirst⟩ | ⟨-, hlacks⟩
  · rw [hfound, hfirst.unique h]
  · exact absurd hlacks h.not_lacks

theorem Lacks.firstMarker? (h : tape.Lacks kind start stop) (hlo : 0 ≤ start)
    (hhi : stop ≤ tape.size) : tape.firstMarker? kind start stop = .ok none := by
  rcases firstMarker?_cases kind hlo hhi with ⟨j, -, hfirst⟩ | ⟨hnone, -⟩
  · exact absurd h hfirst.not_lacks
  · exact hnone

theorem first_or_lacks (kind : Control) (hlo : 0 ≤ start) (hhi : stop ≤ tape.size) :
    (∃ k, tape.First kind start stop k) ∨ tape.Lacks kind start stop :=
  (firstMarker?_cases kind hlo hhi).imp (fun ⟨k, _, h⟩ => ⟨k, h⟩) And.right

theorem First.findMarker (h : tape.First kind start stop k) (hlo : 0 ≤ start)
    (hhi : stop ≤ tape.size) : tape.findMarker kind start stop true = .ok k := by
  have hlt : start ≠ stop := by
    have := h.1.1
    have := h.1.2.1
    omega
  rw [Tape.findMarker, if_neg hlt, h.firstMarker? hlo hhi]

theorem Lacks.findMarker (h : tape.Lacks kind start stop) (hne : start ≠ stop) (hlo : 0 ≤ start)
    (hhi : stop ≤ tape.size) :
    tape.findMarker kind start stop true = .error (.fault (.missingMarker kind)) := by
  rw [Tape.findMarker, if_neg hne, h.firstMarker? hlo hhi]
  rfl

theorem lacks_of_firstMarker? (h : tape.firstMarker? kind start stop = .ok none) (hlo : 0 ≤ start)
    (hhi : stop ≤ tape.size) : tape.Lacks kind start stop := by
  rcases firstMarker?_cases kind hlo hhi with ⟨j, hfound, -⟩ | ⟨-, hlacks⟩
  · rw [h] at hfound
    cases hfound
  · exact hlacks

theorem first_of_findMarker (h : tape.findMarker kind start stop true = .ok k) (hne : start ≠ stop)
    (hlo : 0 ≤ start) (hhi : stop ≤ tape.size) : tape.First kind start stop k := by
  rcases tape.first_or_lacks kind hlo hhi with ⟨j, hfirst⟩ | hlacks
  · rw [hfirst.findMarker hlo hhi] at h
    cases h
    exact hfirst
  · rw [hlacks.findMarker hne hlo hhi] at h
    cases h

theorem lacks_of_findMarker (h : tape.findMarker kind start stop true = .ok k) (hlo : 0 ≤ start)
    (hhi : stop ≤ tape.size) : tape.Lacks kind start k := by
  by_cases hempty : start = stop
  · rw [Tape.findMarker, if_pos hempty] at h
    cases h
    rintro j ⟨hlo, hhi, -⟩
    omega
  · exact (first_of_findMarker h hempty hlo hhi).lacks

end TokenTape.Tape
