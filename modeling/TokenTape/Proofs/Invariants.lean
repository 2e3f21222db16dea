import TokenTape.Proofs.Alignment
import TokenTape.Proofs.Segment

/-!
# What a run keeps

A run changes its state in two ways: it reports, and it writes to variables that stand at certain
places of the tape. What neither breaks, the run keeps, however it ends.
-/

namespace TokenTape

theorem Tape.at?_of_size (tape : Tape) {k : Int} (hlo : 0 ≤ k) (hhi : k < tape.size) :
    ∃ token ∈ tape, tape.at? k = some token := by
  obtain ⟨n, rfl⟩ := Int.eq_ofNat_of_zero_le hlo
  have hn : n < tape.size := by omega
  refine ⟨tape[n], Array.getElem_mem hn, ?_⟩
  rw [Tape.at?_natCast, Array.getElem?_eq_getElem hn]

/-- A variable that a run of a view writes to stands right behind a loop marker or four tokens
behind one, or two tokens before a number in a view with an assignment. -/
def Tape.Target (tape : Tape) (start stop : Int) (name : Text) : Prop :=
  ∃ j, tape.Within start stop j (.reference name) ∧
    (tape.Within start stop (j - 1) (.control .forLoop) ∨
      tape.Within start stop (j - 4) (.control .forLoop) ∨
      (∃ value, tape.Within start stop (j + 2) (.number value)) ∧
        ∃ i, tape.Within start stop i (.operator .assign))

namespace Run

variable {setting : Setting} {start stop : Int}

theorem store_emit (setting : Setting) (event : Event) (s : State) :
    ((emit setting event).outcome s).2.store = s.store := by
  rw [outcome_emit]
  dsimp only
  split <;> rfl

/-! ## One tape -/

section Same

variable {ρ : Relation} {S T : Setting}

theorem aligned_same (htape : S.tape = T.tape) (hrounds : S.rounds = T.rounds) (hlo : 0 ≤ start)
    (hhi : stop ≤ T.tape.size)
    (hemit : ∀ event : Event, event.Arises T.tape start stop →
      Sim ρ Eq (emit S event) (emit T event))
    (hread : ∀ {k name}, T.tape.Within start stop k (.reference name) →
      Sim ρ Eq (lookup name) (lookup name))
    (hassign : ∀ {name} value, T.tape.Target start stop name →
      Sim ρ Eq (assign S name value) (assign T name value))
    (hfailure : ∀ e : Failure, e.Arises T.tape start stop → ρ.failure e e) :
    Aligned ρ 0 S T start stop := by
  constructor
  case rounds => exact hrounds
  case token =>
    intro k hk hk'
    obtain ⟨token, -, htoken⟩ := T.tape.at?_of_size (k := k) (by omega) (by omega)
    exact ⟨token, htoken, by rwa [Int.add_zero, htape]⟩
  case emit =>
    intro event he
    rw [event.shift_zero]
    exact hemit event he
  case read => exact hread
  case write =>
    intro j k name value hj hname hk
    refine hassign value ⟨k - 2, hname, .inr (.inr ⟨⟨value, ?_⟩, j, hj⟩)⟩
    rwa [Int.sub_add_cancel]
  case count =>
    intro k name value hk hname
    refine hassign value ⟨k + 1, hname, .inl ?_⟩
    rwa [Int.add_sub_cancel]
  case accumulate =>
    intro k name value hk hname
    refine hassign value ⟨k + 4, hname, .inr (.inl ?_)⟩
    rwa [Int.add_sub_cancel]
  case failure =>
    intro e he _
    rw [e.shift_zero]
    exact hfailure e he

theorem Aligned.evaluate (htape : S.tape = T.tape) (h : Aligned ρ 0 S T 0 T.tape.size) :
    Sim ρ Eq (evaluate S) (evaluate T) := by
  have hrange := h.range
  rw [Int.add_zero, Int.add_zero] at hrange
  have hemit (event : Event) (he : event.Arises T.tape 0 T.tape.size) :
      Sim ρ Eq (Run.emit S event) (Run.emit T event) := by
    have hevent := h.emit he
    rwa [event.shift_zero] at hevent
  unfold Run.evaluate
  rw [htape]
  refine sim_bind (hemit _ trivial) fun _ _ _ => sim_bind hrange ?_
  rintro result _ rfl
  exact sim_bind (hemit _ trivial) fun _ _ _ => sim_pure rfl

end Same

/-! ## One run -/

/-- A run beside itself keeps to what no report breaks and no write, and fails in the ways named
above. -/
theorem aligned_diagonal {invariant : State → Prop} {good : Failure → Prop} (hlo : 0 ≤ start)
    (hhi : stop ≤ setting.tape.size)
    (hemit : ∀ event s, invariant s → invariant ((emit setting event).outcome s).2)
    (hwrite : ∀ {name} value s, setting.tape.Target start stop name → invariant s →
      invariant ⟨s.store.insert name value, s.trace⟩)
    (hgood : ∀ e : Failure, e.Arises setting.tape start stop → good e) :
    Aligned (.diagonal invariant good) 0 setting setting start stop := by
  apply aligned_same rfl rfl hlo hhi
  case hemit =>
    intro event _
    rw [sim_diagonal_iff]
    intro s hs
    exact ⟨by simp [outcome_emit], hemit event s hs⟩
  case hread =>
    intro k name hk
    rw [sim_diagonal_iff]
    intro s hs
    rw [outcome_lookup]
    unfold Store.lookup
    refine ⟨?_, hs⟩
    cases s.store.get? name with
    | none => rintro _ ⟨⟩; exact hgood _ ⟨k, hk⟩
    | some value => simp
  case hassign =>
    intro name value h
    rw [sim_diagonal_iff]
    intro s hs
    rw [outcome_assign]
    exact ⟨by simp [outcome_emit], hemit _ _ (hwrite value s h hs)⟩
  case hfailure => exact fun e he => ⟨rfl, hgood e he⟩

theorem evaluate_keeps (invariant : State → Prop)
    (hemit : ∀ event s, invariant s → invariant ((emit setting event).outcome s).2)
    (hwrite : ∀ {name} value s, setting.tape.Target 0 setting.tape.size name → invariant s →
      invariant ⟨s.store.insert name value, s.trace⟩)
    {state : State} (hstate : invariant state) :
    invariant ((evaluate setting).outcome state).2 := by
  have haligned : Aligned (.diagonal invariant fun _ => True) 0 setting setting 0
      setting.tape.size :=
    aligned_diagonal (Int.le_refl 0) (Int.le_refl _) hemit hwrite fun _ _ => trivial
  exact (sim_diagonal_iff.1 (haligned.evaluate rfl) state hstate).2

end Run

end TokenTape
