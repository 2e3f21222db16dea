import Mathlib
import TokenTape.Proofs.Frame

/-!
# Variables that a tape does not mention

A run depends on no variable but those whose names stand on its tape, and it leaves the others as
they are. So two runs that start from the same values of these names are the same, wherever the
variables stand in the two stores and whatever else is in them.
-/

namespace TokenTape

/-- The two stores hold the same under each of these names, or both nothing. -/
def Store.AgreeOn (names : Text → Prop) (store store' : Store) : Prop :=
  ∀ name, names name → store.get? name = store'.get? name

theorem Store.AgreeOn.insert {names : Text → Prop} {store store' : Store}
    (h : store.AgreeOn names store') (name : Text) (value : Binary64) :
    Store.AgreeOn names (store.insert name value) (store'.insert name value) := by
  intro other hother
  rw [Table.get?_insert, Table.get?_insert, h other hother]

namespace Run

variable {names : Text → Prop} {setting : Setting}

/-- The stores agree on these names, and the same was told. -/
def Relation.agreeOn (names : Text → Prop) : Relation :=
  ⟨fun s t => s.store.AgreeOn names t.store ∧ s.trace = t.trace, Eq⟩

theorem sim_emit_agreeOn (event : Event) :
    Sim (.agreeOn names) Eq (emit setting event) (emit setting event) := by
  rintro s t ⟨hstore, htrace⟩
  rw [outcome_emit, outcome_emit]
  refine ⟨rfl, ?_⟩
  split
  · exact ⟨hstore, congrArg (·.push event) htrace⟩
  · exact ⟨hstore, htrace⟩

theorem sim_lookup_agreeOn {name : Text} (h : names name) :
    Sim (.agreeOn names) Eq (lookup name) (lookup name) := by
  rintro s t ⟨hstore, htrace⟩
  rw [outcome_lookup, outcome_lookup]
  unfold Store.lookup
  rw [hstore name h]
  cases t.store.get? name with
  | none => exact ⟨rfl, hstore, htrace⟩
  | some value => exact ⟨rfl, hstore, htrace⟩

theorem aligned_agreeOn (setting : Setting) :
    Aligned (.agreeOn setting.tape.Mentions) 0 setting setting 0 setting.tape.size := by
  apply aligned_same rfl rfl (Int.le_refl 0) (Int.le_refl _) fun event _ => sim_emit_agreeOn event
  case hread =>
    intro k name hk
    exact sim_lookup_agreeOn (hk.mem (Int.le_refl 0) (Int.le_refl _))
  case hassign =>
    rintro name value - s t ⟨hstore, htrace⟩
    rw [outcome_assign, outcome_assign]
    exact sim_emit_agreeOn _ _ _ ⟨hstore.insert name value, htrace⟩
  case hfailure => exact fun _ _ => rfl

/-- Two runs of a tape from stores that agree on the names it mentions end alike and tell the same.
Behind them the stores agree on these names again, and all other names are as they were. -/
theorem evaluate_noninterference (setting : Setting) {before before' : Store}
    (h : before.AgreeOn setting.tape.Mentions before') :
    let x := (evaluate setting).outcome ⟨before, #[]⟩
    let y := (evaluate setting).outcome ⟨before', #[]⟩
    x.1 = y.1 ∧ x.2.trace = y.2.trace ∧ x.2.store.AgreeOn setting.tape.Mentions y.2.store ∧
      x.2.store.AgreeOn (¬setting.tape.Mentions ·) before ∧
      y.2.store.AgreeOn (¬setting.tape.Mentions ·) before' := by
  intro x y
  have hsim := (aligned_agreeOn setting).evaluate rfl ⟨before, #[]⟩ ⟨before', #[]⟩ ⟨h, rfl⟩
  obtain ⟨houtcome, hstore, htrace⟩ := hsim.eq fun _ _ he => he
  have hother (store : Store) :
      Store.AgreeOn (¬setting.tape.Mentions ·) ((evaluate setting).outcome ⟨store, #[]⟩).2.store
        store := by
    intro name hname
    exact (evaluate_framed setting ⟨store, #[]⟩).values name fun htarget => hname htarget.mentions
  exact ⟨houtcome, htrace, hstore, hother before, hother before'⟩

theorem evaluate_noninterference_others :
    let setting : Setting := ⟨#[.reference "x", .operator .assign, .number 4, .reference "q"], 0, 0⟩
    let before : Store := .ofList [("x", 0), ("y", 2)]
    let before' : Store := .ofList [("z", 3), ("x", 0)]
    let y := (evaluate setting).outcome ⟨before', #[]⟩
    before.AgreeOn setting.tape.Mentions before' ∧
      y.1 = .error (.fault (.undefinedVariable "q")) ∧ y.2.store.get? "x" = some 4 ∧
      y.2.store.get? "y" = none ∧ y.2.store.get? "z" = some 3 := by
  intro setting before before' y
  have hagree : before.AgreeOn setting.tape.Mentions before' := by
    intro name hname
    have hmem : name = "x" ∨ name = "q" := by simpa [setting, Tape.Mentions] using hname
    rcases hmem with rfl | rfl
    · cbv
    · cbv
  obtain ⟨houtcome, -, hstore, -, hother⟩ := evaluate_noninterference setting hagree
  have hx : ((evaluate setting).outcome ⟨before, #[]⟩).1 =
      .error (.fault (.undefinedVariable "q")) := by cbv
  have hvalue : ((evaluate setting).outcome ⟨before, #[]⟩).2.store.get? "x" = some 4 := by cbv
  refine ⟨hagree, houtcome.symm.trans hx, ?_, ?_, ?_⟩
  · rw [← hvalue]
    exact (hstore "x" (by simp [setting, Tape.Mentions])).symm
  · exact (hother "y" (by simp [setting, Tape.Mentions])).trans (by cbv)
  · exact (hother "z" (by simp [setting, Tape.Mentions])).trans (by cbv)

end Run

end TokenTape
