import Mathlib
import TokenTape.Proofs.Contracts
import TokenTape.Proofs.Frame

/-!
# Undefined variables

A run never takes a variable away. So a name that it finds undefined was so from the beginning, and
it is so in the store that the run leaves.
-/

namespace TokenTape.Run

theorem contract_undefined (setting : Setting) (before : Store) :
    Contract setting 0 setting.tape.size
      (fun store => ∀ name, before.contains name → store.contains name)
      (fun e store => ∀ name, e = .fault (.undefinedVariable name) →
        setting.tape.Mentions name ∧ ¬before.contains name ∧ ¬store.contains name) where
  low := Int.le_refl 0
  high := Int.le_refl _
  write := by
    intro name value store _ hkept other hother
    exact Table.contains_insert.2 (.inr (hkept other hother))
  read := by
    rintro k name store hk hkept hnone _ ⟨⟩
    have hstore : ¬store.contains name := by simp [Table.contains, hnone]
    exact ⟨hk.mem (Int.le_refl 0) (Int.le_refl _), fun h => hstore (hkept name h), hstore⟩
  failure := by
    intro e store _ hdefined _ _ name he
    exact absurd he (hdefined name)
  loop := by
    intro k _ _
    refine .inr fun store _ name he => ?_
    cases he

/-- A variable that a run finds undefined is mentioned on the tape, and it is in the store neither
before the run nor behind it. Where all that the tape mentions is defined, there is none. -/
theorem evaluate_undefined (setting : Setting) (state : State) :
    let final := (evaluate setting).outcome state
    (∀ name, final.1 = .error (.fault (.undefinedVariable name)) →
      setting.tape.Mentions name ∧ ¬state.store.contains name ∧ ¬final.2.store.contains name) ∧
    ((∀ name, setting.tape.Mentions name → state.store.contains name) →
      ∀ name, final.1 ≠ .error (.fault (.undefinedVariable name))) := by
  intro final
  have hnamed (name : Text) (h : final.1 = .error (.fault (.undefinedVariable name))) :
      setting.tape.Mentions name ∧ ¬state.store.contains name ∧
        ¬final.2.store.contains name :=
    (contract_undefined setting state.store).evaluate.error (fun _ hname => hname) h name rfl
  refine ⟨hnamed, fun hdefined name h => ?_⟩
  obtain ⟨hmentioned, hbefore, -⟩ := hnamed name h
  exact hbefore (hdefined name hmentioned)

theorem evaluate_undefined_second :
    let setting : Setting :=
      ⟨#[.reference "x", .operator .assign, .number 1, .reference "q", .control .ifThen], 0, 0⟩
    let state : State := ⟨.ofList [("x", 0)], #[]⟩
    let final := (evaluate setting).outcome state
    (final.1 = .error (.fault (.undefinedVariable "q")) ∧ final.2.store.get? "x" = some 1 ∧
        ¬final.2.store.contains "q") ∧
      ∀ name, ((evaluate setting).outcome ⟨.ofList [("x", 0), ("q", 0)], #[]⟩).1 ≠
        .error (.fault (.undefinedVariable name)) := by
  intro setting state final
  have hfinal : ((evaluate setting).outcome state).1 =
      .error (.fault (.undefinedVariable "q")) := by cbv
  have hvalue : ((evaluate setting).outcome state).2.store.get? "x" = some 1 := by cbv
  refine ⟨⟨hfinal, hvalue, ((evaluate_undefined setting state).1 "q" hfinal).2.2⟩, ?_⟩
  refine (evaluate_undefined setting ⟨.ofList [("x", 0), ("q", 0)], #[]⟩).2 fun name hname => ?_
  have hmem : name = "x" ∨ name = "q" := by simpa [setting, Tape.Mentions] using hname
  rcases hmem with rfl | rfl
  · cbv
  · cbv

end TokenTape.Run
