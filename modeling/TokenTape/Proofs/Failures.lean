import Mathlib
import TokenTape.Proofs.Invariants

/-!
# How a walk fails

A walk of a view of its tape fails with a fault of the program, and never by looking beyond the
tape. Besides, it gives up at a token that was never classified and at a loop that does not end.
-/

namespace TokenTape

namespace Run

variable {setting : Setting} {start stop : Int}

theorem aligned_arises (hlo : 0 ≤ start) (hhi : stop ≤ setting.tape.size) :
    Aligned (.diagonal (fun _ => True) (·.Arises setting.tape start stop)) 0 setting setting
      start stop :=
  aligned_diagonal hlo hhi (fun _ _ _ => trivial) (fun _ _ _ _ => trivial) fun _ he => he

theorem range_arises (hlo : 0 ≤ start) (hhi : stop ≤ setting.tape.size) (s : State) {e : Failure}
    (h : ((range setting start stop).outcome s).1 = .error e) :
    e.Arises setting.tape start stop := by
  have hsim := (aligned_arises hlo hhi).range
  rw [Int.add_zero, Int.add_zero] at hsim
  exact (sim_diagonal_iff.1 hsim s trivial).1 e h

/-! ## Whole tapes -/

theorem evaluate_outcome (setting : Setting) (s : State) :
    ∃ t : State, t.store = s.store ∧
      ((evaluate setting).outcome s).1 = ((range setting 0 setting.tape.size).outcome t).1 ∧
      ((evaluate setting).outcome s).2.store =
        ((range setting 0 setting.tape.size).outcome t).2.store := by
  refine ⟨((emit setting (.started setting.tape.size)).outcome s).2, store_emit _ _ _, ?_⟩
  unfold evaluate
  rw [outcome_bind_ok (t := ((emit setting (.started setting.tape.size)).outcome s).2) (a := ())
    (by rw [outcome_emit])]
  rcases hrange : (range setting 0 setting.tape.size).outcome
    ((emit setting (.started setting.tape.size)).outcome s).2 with ⟨e | result, t⟩
  · rw [outcome_bind_error hrange]
    exact ⟨rfl, rfl⟩
  · rw [outcome_bind_ok hrange,
      outcome_bind_ok (a := ()) (t := ((emit setting (.finished result)).outcome t).2)
        (by rw [outcome_emit]), outcome_pure]
    exact ⟨rfl, store_emit _ _ _⟩

/-- A number, or a fault of one of six kinds, each reported under its own name. -/
def ValueOrFault : Except Failure Binary64 → Prop
  | .ok _ => True
  | .error (.fault f) =>
    (f.kind, f.report.name) ∈
      [(FaultKind.invalidAssignment, "InvalidAssignment"),
        (.undefinedVariable, "UndefinedVariable"), (.invalidForLoop, "InvalidForLoop"),
        (.invalidIfStatement, "InvalidIfStatement"), (.missingEndFor, "MissingEndFor"),
        (.missingEndIf, "MissingEndIf")]
  | .error _ => False

theorem valueOrFault_of_arises {f : Fault} (h : f.Arises setting.tape start stop) :
    ValueOrFault (.error (.fault f)) := by
  rcases f with _ | _ | _ | _ | _ | _ | _ | kind
  case missingMarker =>
    cases kind with
    | endFor | endIf =>
      simp [ValueOrFault, Fault.report, Fault.kind, FaultKind.ofMissing, FaultKind.name]
    | forLoop | ifThen | orElse => exact h.elim
  all_goals simp [ValueOrFault, Fault.report, Fault.kind, FaultKind.name]

theorem evaluate_valueOrFault (setting : Setting)
    (hclassified : ∀ token ∈ setting.tape, token ≠ .unclassified) (state : State)
    (hfinished : ((evaluate setting).outcome state).1 ≠ .error .unfinished) :
    ValueOrFault ((evaluate setting).outcome state).1 := by
  obtain ⟨t, -, houtcome, -⟩ := evaluate_outcome setting state
  rw [houtcome] at hfinished ⊢
  cases hrange : ((range setting 0 setting.tape.size).outcome t).1 with
  | ok result => exact trivial
  | error e =>
    have harises := range_arises (Int.le_refl 0) (Int.le_refl _) t hrange
    cases e with
    | fault f => exact valueOrFault_of_arises harises
    | unclassifiedToken =>
      obtain ⟨k, hlo, hhi, htoken⟩ := harises
      obtain ⟨token, hmem, hat⟩ := setting.tape.at?_of_size hlo hhi
      rw [htoken] at hat
      cases hat
      exact absurd rfl (hclassified _ hmem)
    | noOperator => exact harises.elim
    | offsetOutOfRange => exact harises.elim
    | unfinished => exact absurd hrange hfinished

end Run

end TokenTape
