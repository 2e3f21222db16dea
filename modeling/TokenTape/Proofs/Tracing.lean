import Mathlib
import TokenTape.Proofs.Invariants
import TokenTape.Session

/-!
# Traces

How much a run tells of itself changes nothing else about it. A run that is asked for less tells the
same events in the same order, with those of the higher levels left out.
-/

namespace TokenTape

/-! ## Levels -/

namespace Event

/-- A variable is written, or a block has found its ends. -/
def isAction : Event → Bool
  | assigned .. | loop .. | branch .. => true
  | note _ | started _ | finished _ | dispatched .. => false

/-- The walk stands on a token. -/
def isDispatch : Event → Bool
  | dispatched .. => true
  | note _ | started _ | finished _ | assigned .. | loop .. | branch .. => false

theorem one_le_level (event : Event) : 1 ≤ event.level := by
  cases event <;> simp [level]

theorem level_le_three (event : Event) : event.level ≤ 3 := by
  cases event <;> simp [level]

theorem level_le_two_iff (event : Event) : event.level ≤ 2 ↔ !event.isDispatch := by
  cases event <;> simp [level, isDispatch]

theorem level_le_one_iff (event : Event) : event.level ≤ 1 ↔ !event.isAction ∧ event.level ≤ 2 := by
  cases event <;> simp [level, isAction]

/-- The events of a trace up to a level. -/
def upTo (level : Int) (trace : Array Event) : Array Event :=
  trace.filter (·.level ≤ level)

variable {trace : Array Event}

theorem upTo_push (level : Int) (trace : Array Event) (event : Event) :
    upTo level (trace.push event) =
      if event.level ≤ level then (upTo level trace).push event else upTo level trace := by
  simp only [upTo, Array.filter_push, decide_eq_true_eq]

theorem upTo_of_nonpos {level : Int} (h : level ≤ 0) : upTo level trace = #[] := by
  rw [upTo, Array.filter_eq_empty_iff]
  intro event _
  have := event.one_le_level
  simp only [decide_eq_true_eq]
  omega

theorem upTo_one_upTo_two : upTo 1 (upTo 2 trace) = (upTo 2 trace).filter (!·.isAction) := by
  simp only [upTo, Array.filter_filter]
  congr 1
  funext event
  rw [Bool.eq_iff_iff]
  simp only [Bool.and_eq_true, decide_eq_true_eq, event.level_le_one_iff]
  tauto

theorem upTo_two : upTo 2 trace = trace.filter (!·.isDispatch) := by
  simp only [upTo, level_le_two_iff, Bool.decide_eq_true]

theorem upTo_of_three_le {level : Int} (h : 3 ≤ level) : upTo level trace = trace := by
  rw [upTo, Array.filter_eq_self]
  intro event _
  have := event.level_le_three
  simp only [decide_eq_true_eq]
  omega

end Event

/-! ## Two verbosities -/

namespace Run

variable {S T : Setting}

/-- The variables are the same, and the first run has told what the second told up to a level. -/
def Relation.upTo (level : Int) : Relation :=
  ⟨fun s t => s.store = t.store ∧ s.trace = Event.upTo level t.trace, Eq⟩

theorem sim_emit_upTo (h : S.verbosity ≤ T.verbosity) (event : Event) :
    Sim (.upTo S.verbosity) Eq (emit S event) (emit T event) := by
  rintro s t ⟨hstore, htrace⟩
  rw [outcome_emit, outcome_emit]
  refine ⟨rfl, ?_⟩
  by_cases hS : event.level ≤ S.verbosity
  · rw [if_pos hS, if_pos (by omega)]
    refine ⟨hstore, ?_⟩
    rw [Event.upTo_push, if_pos hS, htrace]
  · rw [if_neg hS]
    split
    · refine ⟨hstore, ?_⟩
      rw [Event.upTo_push, if_neg hS, htrace]
    · exact ⟨hstore, htrace⟩

theorem aligned_upTo (htape : S.tape = T.tape) (hrounds : S.rounds = T.rounds)
    (h : S.verbosity ≤ T.verbosity) :
    Aligned (.upTo S.verbosity) 0 S T 0 T.tape.size := by
  apply aligned_same htape hrounds (Int.le_refl 0) (Int.le_refl _) fun event _ =>
    sim_emit_upTo h event
  case hread =>
    rintro k name - s t ⟨hstore, htrace⟩
    rw [outcome_lookup, outcome_lookup, hstore]
    cases t.store.lookup name with
    | error e => exact ⟨rfl, hstore, htrace⟩
    | ok value => exact ⟨rfl, hstore, htrace⟩
  case hassign =>
    rintro name value - s t ⟨hstore, htrace⟩
    rw [outcome_assign, outcome_assign, hstore]
    exact sim_emit_upTo h _ _ _ ⟨rfl, htrace⟩
  case hfailure => exact fun _ _ => rfl

theorem evaluate_upTo (htape : S.tape = T.tape) (hrounds : S.rounds = T.rounds)
    (h : S.verbosity ≤ T.verbosity) (store : Store) :
    let x := (evaluate S).outcome ⟨store, #[]⟩
    let y := (evaluate T).outcome ⟨store, #[]⟩
    x.1 = y.1 ∧ x.2.store = y.2.store ∧ x.2.trace = Event.upTo S.verbosity y.2.trace := by
  have hsim := (aligned_upTo htape hrounds h).evaluate htape
  exact (hsim ⟨store, #[]⟩ ⟨store, #[]⟩ ⟨rfl, rfl⟩).eq fun _ _ he => he

theorem trace_evaluate (setting : Setting) (h : setting.verbosity ≤ 0) (store : Store) :
    ((evaluate setting).outcome ⟨store, #[]⟩).2.trace = #[] := by
  rw [(evaluate_upTo (S := setting) (T := setting) rfl rfl (Int.le_refl _) store).2.2]
  exact Event.upTo_of_nonpos h

end Run

/-! ## Sessions -/

namespace Session

theorem evaluate_upTo (store : Store) (tape : Tape) {v w : Int} (h : v ≤ w) (sink sink' : Sink) :
    let x := Session.evaluate ⟨store, v, sink⟩ tape
    let y := Session.evaluate ⟨store, w, sink'⟩ tape
    x.outcome = y.outcome ∧ x.session.store = y.session.store ∧
      x.trace = Event.upTo v y.trace :=
  Run.evaluate_upTo (S := ⟨tape, v, roundLimit⟩) (T := ⟨tape, w, roundLimit⟩) rfl rfl h store

/-- What a session tells, and where to, changes neither the result nor the variables. The events of
level 1 are those of level 2 without the actions, and the events of level 2 are those of level 3
without the tokens. -/
theorem evaluate_traced (store : Store) (tape : Tape) :
    let step (verbosity : Int) (sink : Sink) := Session.evaluate ⟨store, verbosity, sink⟩ tape
    (∀ v w sink sink', (step v sink).outcome = (step w sink').outcome ∧
      (step v sink).session.store = (step w sink').session.store) ∧
    ∀ sink sink',
      (step 1 sink).trace = (step 2 sink').trace.filter (!·.isAction) ∧
      (step 2 sink).trace = (step 3 sink').trace.filter (!·.isDispatch) ∧
      (∀ v, 3 ≤ v → (step v sink).trace = (step 3 sink').trace) ∧
      ∀ v, v ≤ 0 → (step v sink).trace = #[] := by
  intro step
  have hstep {v w : Int} (h : v ≤ w) (sink sink' : Sink) := evaluate_upTo store tape h sink sink'
  constructor
  · intro v w sink sink'
    rcases Int.le_total v w with h | h
    · exact ⟨(hstep h sink sink').1, (hstep h sink sink').2.1⟩
    · exact ⟨(hstep h sink' sink).1.symm, (hstep h sink' sink).2.1.symm⟩
  · intro sink sink'
    have htwo (sink : Sink) : (step 2 sink).trace = Event.upTo 2 (step 3 sink').trace :=
      (hstep (by omega) sink sink').2.2
    refine ⟨?_, ?_, fun v hv => ?_, fun v hv => ?_⟩
    · rw [show (step 1 sink).trace = Event.upTo 1 (step 2 sink').trace from
        (hstep (by omega) sink sink').2.2, htwo]
      exact Event.upTo_one_upTo_two
    · rw [htwo]
      exact Event.upTo_two
    · have hthree : (step 3 sink').trace = Event.upTo 3 (step v sink).trace :=
        (hstep hv sink' sink).2.2
      rw [hthree, Event.upTo_of_three_le (Int.le_refl 3)]
    · rw [show (step v sink).trace = Event.upTo v (step v sink).trace from
        (hstep (Int.le_refl v) sink sink).2.2]
      exact Event.upTo_of_nonpos hv

theorem evaluate_traced_undefined :
    let tape : Tape := #[.reference "x", .operator .assign, .number 1, .reference "q"]
    let store : Store := Table.ofList [("x", 0)]
    let step (verbosity : Int) (sink : Sink) := Session.evaluate ⟨store, verbosity, sink⟩ tape
    (step 3 .output).trace =
        #[.started 4, .dispatched 0 (.reference "x") 0 none,
          .dispatched 1 (.operator .assign) 0 none, .dispatched 2 (.number 1) 0 (some .assign),
          .assigned "x" (.number 1), .dispatched 3 (.reference "q") 1 none] ∧
      (step 2 (.file "trace")).trace = #[.started 4, .assigned "x" (.number 1)] ∧
      (step 1 .output).trace = #[.started 4] ∧
      (step (-7) .output).outcome = .error (.fault (.undefinedVariable "q")) := by
  intro tape store step
  have hthree : (step 3 .output).trace =
      #[.started 4, .dispatched 0 (.reference "x") 0 none,
        .dispatched 1 (.operator .assign) 0 none, .dispatched 2 (.number 1) 0 (some .assign),
        .assigned "x" (.number 1), .dispatched 3 (.reference "q") 1 none] ∧
      (step 3 .output).outcome = .error (.fault (.undefinedVariable "q")) := by
    simp only [step, Session.evaluate, Session.perform]
    generalize roundLimit = rounds
    constructor
    · cbv
    · cbv
  obtain ⟨hsame, htrace⟩ := evaluate_traced store tape
  have htwo : (step 2 (.file "trace")).trace = #[.started 4, .assigned "x" (.number 1)] := by
    rw [show (step 2 (.file "trace")).trace = _ from (htrace (.file "trace") .output).2.1, hthree.1]
    rfl
  refine ⟨hthree.1, htwo, ?_, ?_⟩
  · rw [show (step 1 .output).trace = _ from (htrace .output (.file "trace")).1, htwo]
    rfl
  · rw [show (step (-7) .output).outcome = _ from (hsame (-7) 3 .output .output).1, hthree.2]

end Session

end TokenTape
