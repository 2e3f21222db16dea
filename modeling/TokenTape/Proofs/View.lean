import TokenTape.Proofs.Failures

/-!
# Views and slices

A view of a tape is walked as if the tokens in it were the whole tape. Only the offsets that are
told, in events and in one fault, count from the beginning of the tape.
-/

namespace TokenTape

def State.shift (d : Int) (s : State) : State :=
  ⟨s.store, s.trace.map (·.shift d)⟩

theorem Event.shift_level (d : Int) (event : Event) : (event.shift d).level = event.level := by
  cases event <;> rfl

namespace Run

variable {α : Type} {d : Int} {S T : Setting} {start stop : Int}

/-- The outcome, told from an origin that lies `d` before. -/
def shiftOutcome (d : Int) (outcome : Except Failure α × State) : Except Failure α × State :=
  (outcome.1.mapError (·.shift d), outcome.2.shift d)

def Relation.shifted (d : Int) : Relation :=
  ⟨fun s t => s = t.shift d, fun e f => e = f.shift d⟩

theorem agree_shifted {x y : Except Failure α × State} (h : (Relation.shifted d).Agree Eq x y) :
    x = shiftOutcome d y := by
  obtain ⟨houtcome, hstate⟩ := h.mapError (f := id) (g := (·.shift d)) fun _ _ he => he
  rw [mapError_id] at houtcome
  exact Prod.ext houtcome hstate

theorem sim_emit_shifted (hverbosity : S.verbosity = T.verbosity) (event : Event) :
    Sim (.shifted d) Eq (emit S (event.shift d)) (emit T event) := by
  rintro _ t rfl
  rw [outcome_emit, outcome_emit, Event.shift_level, hverbosity]
  refine ⟨rfl, ?_⟩
  split
  · simp [Relation.shifted, State.shift]
  · rfl

theorem sim_lookup_shifted (name : Text) : Sim (.shifted d) Eq (lookup name) (lookup name) := by
  rintro _ t rfl
  rw [outcome_lookup, outcome_lookup]
  show Relation.Agree _ Eq (t.store.lookup name, _) _
  unfold Store.lookup
  cases t.store.get? name with
  | none => exact ⟨rfl, rfl⟩
  | some value => exact ⟨rfl, rfl⟩

theorem sim_assign_shifted (hverbosity : S.verbosity = T.verbosity) (name : Text)
    (value : Binary64) : Sim (.shifted d) Eq (assign S name value) (assign T name value) := by
  rintro _ t rfl
  rw [outcome_assign, outcome_assign]
  exact sim_emit_shifted hverbosity (.assigned name (.number value)) _ _ rfl

theorem aligned_shifted (hverbosity : S.verbosity = T.verbosity) (hrounds : S.rounds = T.rounds)
    (htoken : ∀ k, start ≤ k → k < stop →
      ∃ token, T.tape.at? k = some token ∧ S.tape.at? (k + d) = some token) :
    Aligned (.shifted d) d S T start stop where
  rounds := hrounds
  token := htoken
  emit {event} _ := sim_emit_shifted hverbosity event
  read {_ name} _ := sim_lookup_shifted name
  write {_ _ name value} _ _ _ := sim_assign_shifted hverbosity name value
  count {_ name} value _ _ := sim_assign_shifted hverbosity name value
  accumulate {_ name} value _ _ := sim_assign_shifted hverbosity name value
  failure _ _ := rfl

/-- The walk of a view comes to what the walk of the slice comes to, told from the beginning of the
tape. So it reads nothing outside the view, and it never looks beyond the tape. -/
theorem range_slice (before middle behind : List Token) (verbosity : Int) (rounds : Nat)
    (store : Store) :
    let whole : Setting := ⟨(before ++ middle ++ behind).toArray, verbosity, rounds⟩
    let slice : Setting := ⟨middle.toArray, verbosity, rounds⟩
    let view := range whole before.length (before.length + middle.length)
    view.outcome ⟨store, #[]⟩ =
        shiftOutcome before.length ((range slice 0 middle.length).outcome ⟨store, #[]⟩) ∧
      (view.outcome ⟨store, #[]⟩).1 ≠ .error .offsetOutOfRange := by
  intro whole slice view
  have hmiddle := Tape.holds_middle before middle behind
  constructor
  · have haligned : Aligned (.shifted before.length) before.length whole slice 0 middle.length := by
      refine aligned_shifted rfl rfl fun k hlo hhi => ?_
      exact (Tape.holds_toArray middle).common (by rwa [Int.zero_add]) hlo (by omega)
    have hsim := haligned.range ⟨store, #[]⟩ ⟨store, #[]⟩ (by simp [Relation.shifted, State.shift])
    rw [Int.zero_add, Int.add_comm] at hsim
    exact agree_shifted hsim
  · intro herror
    have hsize : (whole.tape.size : Int) = before.length + middle.length + behind.length := by
      simp only [whole, List.size_toArray, List.length_append]
      omega
    exact range_arises (by omega) (by omega) _ herror

end Run

end TokenTape
