import Mathlib
import TokenTape.Proofs.Invariants
import TokenTape.Session

/-!
# What a run leaves alone

Variables are neither removed nor moved. Those that change, and those that are new, stand at the
places of the tape where a run writes.
-/

namespace TokenTape

theorem Tape.Within.mem {tape : Tape} {start stop k : Int} {token : Token}
    (h : tape.Within start stop k token) (hlo : 0 ≤ start) (hhi : stop ≤ tape.size) :
    token ∈ tape := by
  obtain ⟨hstart, hstop, hat⟩ := h
  obtain ⟨found, hmem, hfound⟩ := tape.at?_of_size (k := k) (by omega) (by omega)
  rw [hat] at hfound
  cases hfound
  exact hmem

theorem Tape.Target.mem {tape : Tape} {name : Text} (h : tape.Target 0 tape.size name) :
    .control .forLoop ∈ tape ∨ .operator .assign ∈ tape := by
  have hmem {k : Int} {token : Token} (hk : tape.Within 0 tape.size k token) : token ∈ tape :=
    hk.mem (Int.le_refl 0) (Int.le_refl _)
  obtain ⟨j, -, hfor | hfor | ⟨-, i, hassign⟩⟩ := h
  · exact .inl (hmem hfor)
  · exact .inl (hmem hfor)
  · exact .inr (hmem hassign)

def Tape.Mentions (tape : Tape) (name : Text) : Prop :=
  .reference name ∈ tape

theorem Tape.Target.mentions {tape : Tape} {name : Text} (h : tape.Target 0 tape.size name) :
    tape.Mentions name := by
  obtain ⟨j, hj, -⟩ := h
  exact hj.mem (Int.le_refl 0) (Int.le_refl _)

/-- The second store keeps the variables of the first in their places, and all those that are not
`writable` at their values. -/
structure Store.Framed (writable : Text → Prop) (before after : Store) : Prop where
  names : before.names <+: after.names
  values : ∀ name, ¬writable name → after.get? name = before.get? name

namespace Store.Framed

variable {writable : Text → Prop} {before after : Store}

theorem refl (writable : Text → Prop) (store : Store) : Framed writable store store :=
  ⟨List.prefix_rfl, fun _ _ => rfl⟩

theorem insert (h : Framed writable before after) {name : Text} (hname : writable name)
    (value : Binary64) : Framed writable before (after.insert name value) where
  names := by
    rw [Table.names_insert]
    split
    · exact h.names
    · exact h.names.trans (List.prefix_append _ _)
  values other hother := by
    have hne : other ≠ name := by
      rintro rfl
      exact hother hname
    rw [Table.get?_insert, if_neg hne]
    exact h.values other hother

end Store.Framed

namespace Run

theorem evaluate_framed (setting : Setting) (state : State) :
    Store.Framed (setting.tape.Target 0 setting.tape.size) state.store
      ((evaluate setting).outcome state).2.store := by
  apply evaluate_keeps fun s => Store.Framed _ state.store s.store
  · intro event s hs
    rwa [store_emit]
  · intro name value s hname hs
    exact hs.insert hname value
  · exact .refl _ _

theorem evaluate_readOnly (setting : Setting) (hfor : .control .forLoop ∉ setting.tape)
    (hassign : .operator .assign ∉ setting.tape) (state : State) :
    ((evaluate setting).outcome state).2.store = state.store := by
  apply evaluate_keeps fun s => s.store = state.store
  · intro event s hs
    rwa [store_emit]
  · intro name value s hname hs
    rcases hname.mem with h | h
    · exact absurd h hfor
    · exact absurd h hassign
  · rfl

/-- However a run ends, the variables of before come first and in their order behind it, and what is
new or changed was a target. Without loops and assignments nothing changes, and a second run is like
the first. -/
theorem evaluate_frame (tape : Tape) :
    (∀ (verbosity : Int) (rounds : Nat) (state : State),
      let final := ((evaluate ⟨tape, verbosity, rounds⟩).outcome state).2.store
      state.store.names <+: final.names ∧
        ∀ name, final.get? name ≠ state.store.get? name → tape.Target 0 tape.size name) ∧
    (.control .forLoop ∉ tape → .operator .assign ∉ tape →
      (∀ (verbosity : Int) (rounds : Nat) (state : State),
        ((evaluate ⟨tape, verbosity, rounds⟩).outcome state).2.store = state.store) ∧
      ∀ session : Session,
        (session.evaluate tape).session.evaluate tape = session.evaluate tape) := by
  constructor
  · intro verbosity rounds state final
    have hframed := evaluate_framed ⟨tape, verbosity, rounds⟩ state
    refine ⟨hframed.names, fun name hchanged => ?_⟩
    by_contra htarget
    exact hchanged (hframed.values name htarget)
  · intro hfor hassign
    refine ⟨fun verbosity rounds => evaluate_readOnly ⟨tape, verbosity, rounds⟩ hfor hassign,
      fun session => ?_⟩
    have hsession : (session.evaluate tape).session = session := by
      have hstore := evaluate_readOnly ⟨tape, session.verbosity, roundLimit⟩ hfor hassign
        ⟨session.store, #[]⟩
      unfold Session.evaluate Session.perform
      dsimp only
      rw [hstore]
    rw [hsession]

theorem evaluate_frame_undefined :
    let writing : Tape := #[.reference "x", .operator .assign, .number 1, .reference "q"]
    let reading : Tape := #[.reference "x", .operator .add, .reference "q"]
    let state : State := ⟨Table.ofList [("y", 2), ("x", 0)], #[]⟩
    let written := (evaluate ⟨writing, 0, 0⟩).outcome state
    let read := (evaluate ⟨reading, 0, 0⟩).outcome state
    (written.1 = .error (.fault (.undefinedVariable "q")) ∧
        written.2.store.get? "x" ≠ state.store.get? "x" ∧
        writing.Target 0 writing.size "x") ∧
      read.1 = .error (.fault (.undefinedVariable "q")) ∧ read.2.store = state.store := by
  intro writing reading state written read
  have hchanged : written.2.store.get? "x" ≠ state.store.get? "x" := by
    have hwritten : ((evaluate ⟨writing, 0, 0⟩).outcome state).2.store.get? "x" = some 1 := by cbv
    have hbefore : state.store.get? "x" = some 0 := by cbv
    rw [show written = (evaluate ⟨writing, 0, 0⟩).outcome state from rfl, hwritten, hbefore]
    decide +kernel
  have hwritten : ((evaluate ⟨writing, 0, 0⟩).outcome state).1 =
      .error (.fault (.undefinedVariable "q")) := by cbv
  have hread : ((evaluate ⟨reading, 0, 0⟩).outcome state).1 =
      .error (.fault (.undefinedVariable "q")) := by cbv
  refine ⟨⟨hwritten, hchanged, ((evaluate_frame writing).1 0 0 state).2 "x" hchanged⟩, hread, ?_⟩
  exact ((evaluate_frame reading).2 (by simp [reading]) (by simp [reading])).1 0 0 state

end Run

end TokenTape
