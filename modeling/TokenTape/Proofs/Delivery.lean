import Mathlib
import TokenTape.Proofs.Failures
import TokenTape.Proofs.Frame

/-!
# Delivery

What is told of a run is written somewhere. A text with a surrogate may be refused there, and then
the run breaks off. Only names bring surrogates into the texts, so a tape whose names have none ends
as if nothing were written.
-/

namespace TokenTape

/-! ## Surrogates in texts -/

theorem Text.points_append (s t : Text) : (s ++ t).points = s.points ++ t.points :=
  rfl

theorem Text.surrogate_not_mem (s : String) (surrogate : Surrogate) :
    .surrogate surrogate ∉ (ofString s).points := by
  simp [ofString, ofList]

/-- The name that the text of an event holds. -/
def Event.name? : Event → Option Text
  | .assigned name _ | .loop name .. | .dispatched _ (.reference name) .. => some name
  | .note message => some message
  | .started _ | .finished _ | .branch .. | .dispatched .. => none

theorem Event.surrogate_mem_message {event : Event} {s : Surrogate} :
    .surrogate s ∈ event.message.points ↔
      ∃ name, event.name? = some name ∧ .surrogate s ∈ name.points := by
  cases event with
  | dispatched offset token result pending =>
    cases token <;>
      simp [message, name?, Token.text, Text.points_append, Text.surrogate_not_mem]
  | note | started | finished | assigned | loop | branch =>
    simp [message, name?, Text.points_append, Text.surrogate_not_mem]

theorem Event.takes_message {outlet : Outlet} {event : Event} :
    outlet.Takes event.message ↔ ∀ name, event.name? = some name → outlet.Takes name := by
  simp only [Outlet.Takes, surrogate_mem_message]
  constructor
  · exact fun h name hname s hs => h s ⟨name, hname, hs⟩
  · rintro h s ⟨name, hname, hs⟩
    exact h name hname s hs

/-! ## Breaking off -/

namespace Outlet

variable {outlet : Outlet} {texts written : List Text} {fault : EncodeFault}

theorem writeAll_cons_taken {text : Text} (h : outlet.refusal? text = none) (rest : List Text) :
    outlet.writeAll (text :: rest) =
      (text :: (outlet.writeAll rest).1, (outlet.writeAll rest).2) := by
  simp only [writeAll, h]

theorem writeAll_cons_refused {text : Text} (h : outlet.refusal? text = some fault)
    (rest : List Text) : outlet.writeAll (text :: rest) = ([], some fault) := by
  simp only [writeAll, h]

theorem writeAll_eq_taken :
    outlet.writeAll texts = (written, none) ↔
      written = texts ∧ ∀ text ∈ texts, outlet.Takes text := by
  induction texts generalizing written with
  | nil => simp [writeAll, eq_comm]
  | cons text rest ih =>
    rw [List.forall_mem_cons, ← refusal?_eq_none]
    cases hrefusal : outlet.refusal? text with
    | some fault => simp [writeAll_cons_refused hrefusal]
    | none =>
      rw [writeAll_cons_taken hrefusal, Prod.mk.injEq]
      constructor
      · rintro ⟨rfl, hnone⟩
        obtain ⟨hwritten, htaken⟩ := ih.1 (Prod.ext rfl hnone)
        exact ⟨congrArg (List.cons text) hwritten, rfl, htaken⟩
      · rintro ⟨rfl, -, htaken⟩
        rw [ih.2 ⟨rfl, htaken⟩]
        exact ⟨rfl, rfl⟩

theorem writeAll_eq_refused :
    outlet.writeAll texts = (written, some fault) ↔
      ∃ text behind, texts = written ++ text :: behind ∧ (∀ text ∈ written, outlet.Takes text) ∧
        outlet.refusal? text = some fault := by
  induction texts generalizing written with
  | nil => simp [writeAll]
  | cons first rest ih =>
    cases hrefusal : outlet.refusal? first with
    | some found =>
      rw [writeAll_cons_refused hrefusal, Prod.mk.injEq, Option.some_inj]
      constructor
      · rintro ⟨rfl, rfl⟩
        exact ⟨first, rest, rfl, by simp, hrefusal⟩
      · rintro ⟨text, behind, heq, htaken, hlast⟩
        cases written with
        | nil =>
          cases heq
          exact ⟨rfl, Option.some.inj (hrefusal.symm.trans hlast)⟩
        | cons head before =>
          cases heq
          have := refusal?_eq_none.2 (htaken first List.mem_cons_self)
          rw [hrefusal] at this
          cases this
    | none =>
      rw [writeAll_cons_taken hrefusal, Prod.mk.injEq]
      constructor
      · rintro ⟨rfl, hsome⟩
        obtain ⟨text, behind, hrest, htaken, hlast⟩ := ih.1 (Prod.ext rfl hsome)
        refine ⟨text, behind, by rw [List.cons_append, ← hrest], ?_, hlast⟩
        exact List.forall_mem_cons.2 ⟨refusal?_eq_none.1 hrefusal, htaken⟩
      · rintro ⟨text, behind, heq, htaken, hlast⟩
        cases written with
        | nil =>
          cases heq
          rw [hrefusal] at hlast
          cases hlast
        | cons head before =>
          cases heq
          rw [ih.2 ⟨text, behind, rfl, fun t ht => htaken t (List.mem_cons_of_mem _ ht), hlast⟩]
          exact ⟨rfl, rfl⟩

theorem exists_writeAll_refused (h : ¬∀ text ∈ texts, outlet.Takes text) :
    ∃ written fault, outlet.writeAll texts = (written, some fault) := by
  rcases hall : outlet.writeAll texts with ⟨written, _ | fault⟩
  · exact absurd (writeAll_eq_taken.1 hall).2 h
  · exact ⟨written, fault, rfl⟩

end Outlet

/-! ## What a run tells -/

namespace Run

/-- What is told of the run of a tape, and how the variables are known from it. -/
structure Told (setting : Setting) (before : Store) (state : State) : Prop where
  level : ∀ event ∈ state.trace, event.level ≤ setting.verbosity
  arises : ∀ event ∈ state.trace, event.Arises setting.tape 0 setting.tape.size ∨
    ∃ name value, setting.tape.Mentions name ∧ event = .assigned name value
  store : 2 ≤ setting.verbosity → state.store = before.replay state.trace.toList

variable {setting : Setting} {before : Store} {state : State}

theorem replay_append (before : Store) (events more : List Event) :
    before.replay (events ++ more) = (before.replay events).replay more :=
  List.foldl_append

theorem Told.push (h : Told setting before state) {event : Event} {store : Store}
    (hlevel : event.level ≤ setting.verbosity)
    (hevent : event.Arises setting.tape 0 setting.tape.size ∨
      ∃ name value, setting.tape.Mentions name ∧ event = .assigned name value)
    (hstore : store = state.store.replay [event]) :
    Told setting before ⟨store, state.trace.push event⟩ := by
  constructor
  · intro other hother
    rcases Array.mem_push.1 hother with hother | rfl
    · exact h.level other hother
    · exact hlevel
  · intro other hother
    rcases Array.mem_push.1 hother with hother | rfl
    · exact h.arises other hother
    · exact hevent
  · intro hverbosity
    rw [hstore, h.store hverbosity, Array.toList_push, replay_append]

theorem Told.emit (h : Told setting before state) {event : Event}
    (he : event.Arises setting.tape 0 setting.tape.size) :
    Told setting before ((emit setting event).outcome state).2 := by
  rw [outcome_emit]
  dsimp only
  split
  · next hlevel =>
    refine h.push hlevel (.inl he) ?_
    cases event with
    | assigned | note => exact he.elim
    | started | finished | loop | branch | dispatched => rfl
  · exact h

theorem Told.assign (h : Told setting before state) {name : Text}
    (hname : setting.tape.Mentions name) (value : Binary64) :
    Told setting before ((assign setting name value).outcome state).2 := by
  rw [outcome_assign, outcome_emit]
  dsimp only
  split
  · next hlevel => exact h.push hlevel (.inr ⟨name, _, hname, rfl⟩) rfl
  · next hlevel => exact ⟨h.level, h.arises, fun hverbosity => absurd hverbosity hlevel⟩

theorem told_evaluate (setting : Setting) (store : Store) :
    Told setting store ((evaluate setting).outcome ⟨store, #[]⟩).2 := by
  have haligned : Aligned (.diagonal (Told setting store) fun _ => True) 0 setting setting 0
      setting.tape.size := by
    apply aligned_same rfl rfl (Int.le_refl 0) (Int.le_refl _)
    case hemit =>
      intro event he
      rw [sim_diagonal_iff]
      exact fun s hs => ⟨fun _ _ => trivial, hs.emit he⟩
    case hread =>
      intro k name _
      rw [sim_diagonal_iff]
      intro s hs
      rw [outcome_lookup]
      exact ⟨fun _ _ => trivial, hs⟩
    case hassign =>
      intro name value htarget
      rw [sim_diagonal_iff]
      exact fun s hs => ⟨fun _ _ => trivial, hs.assign htarget.mentions value⟩
    case hfailure => exact fun _ _ => ⟨rfl, trivial⟩
  refine (sim_diagonal_iff.1 (haligned.evaluate rfl) ⟨store, #[]⟩ ?_).2
  exact ⟨by simp, by simp, fun _ => rfl⟩

theorem Told.name (h : Told setting before state) {event : Event} (hmem : event ∈ state.trace)
    {name : Text} (hname : event.name? = some name) :
    2 ≤ setting.verbosity ∧ setting.tape.Mentions name := by
  have hlevel := h.level event hmem
  rcases h.arises event hmem with harises | ⟨assigned, value, hmentions, rfl⟩
  · cases event with
    | assigned | note => exact harises.elim
    | started | finished | branch => cases hname
    | loop =>
      cases hname
      obtain ⟨k, hk⟩ := harises
      exact ⟨hlevel, hk.mem (Int.le_refl 0) (Int.le_refl _)⟩
    | dispatched offset token result pending =>
      cases token with
      | reference found =>
        cases hname
        have hthree : 3 ≤ setting.verbosity := hlevel
        exact ⟨by omega, Tape.Within.mem harises (Int.le_refl 0) (Int.le_refl _)⟩
      | number | operator | control | unclassified => cases hname
  · cases hname
    exact ⟨hlevel, hmentions⟩

end Run

/-! ## Sessions -/

namespace Session

variable {ε α : Type}

theorem deliver_of_taken (session : Session) (output : Outlet) {step : Step ε α}
    (h : ∀ event ∈ step.trace, (session.sink.outlet output).Takes event.message) :
    session.deliver output step = ⟨step.outcome.mapError .error, step.session, step.trace⟩ := by
  have hwrite : (session.sink.outlet output).writeAll (step.trace.toList.map Event.message) =
      (step.trace.toList.map Event.message, none) := by
    refine Outlet.writeAll_eq_taken.2 ⟨rfl, ?_⟩
    rw [List.forall_mem_map]
    exact fun event hmem => h event (Array.mem_toList_iff.1 hmem)
  simp only [deliver, hwrite]

theorem deliver_of_refused (session : Session) (output : Outlet) {step : Step ε α}
    (h : ¬∀ event ∈ step.trace, (session.sink.outlet output).Takes event.message) :
    ∃ told event rest fault, step.trace.toList = told ++ event :: rest ∧
      (∀ earlier ∈ told, (session.sink.outlet output).Takes earlier.message) ∧
      (session.sink.outlet output).refusal? event.message = some fault ∧
      session.deliver output step = ⟨.error (.refused fault),
        { session with store := session.store.replay (told ++ [event]) }, told.toArray⟩ := by
  have hmessages : ¬∀ text ∈ step.trace.toList.map Event.message,
      (session.sink.outlet output).Takes text := by
    rw [List.forall_mem_map]
    exact fun hall => h fun event hmem => hall event (Array.mem_toList_iff.2 hmem)
  obtain ⟨written, fault, hwrite⟩ := Outlet.exists_writeAll_refused hmessages
  obtain ⟨text, behind, hsplit, htaken, hlast⟩ := Outlet.writeAll_eq_refused.1 hwrite
  obtain ⟨told, others, htrace, rfl, hothers⟩ := List.map_eq_append_iff.1 hsplit
  obtain ⟨event, rest, rfl, rfl, -⟩ := List.map_eq_cons_iff.1 hothers
  refine ⟨told, event, rest, fault, htrace, List.forall_mem_map.1 htaken, hlast, ?_⟩
  have hnext : (told ++ event :: rest).take (told.length + 1) = told ++ [event] := by
    simp [List.take_append]
  rw [htrace] at hwrite
  simp only [deliver, htrace, hwrite, List.length_map, List.take_left, hnext]

theorem outcome_of_deliver {session : Session} {output : Outlet} {step : Step ε α} {e : ε}
    (h : (session.deliver output step).outcome = .error (.error e)) : step.outcome = .error e := by
  by_cases htaken : ∀ event ∈ step.trace, (session.sink.outlet output).Takes event.message
  · rw [deliver_of_taken session output htaken] at h
    cases houtcome : step.outcome with
    | ok a =>
      rw [houtcome] at h
      cases h
    | error e' =>
      rw [houtcome] at h
      cases h
      rfl
  · obtain ⟨_, _, _, _, -, -, -, hstep⟩ := deliver_of_refused session output htaken
    rw [hstep] at h
    cases h

theorem told_evaluate (session : Session) (tape : Tape) :
    Run.Told ⟨tape, session.verbosity, roundLimit⟩ session.store
      ⟨(session.evaluate tape).session.store, (session.evaluate tape).trace⟩ :=
  Run.told_evaluate ⟨tape, session.verbosity, roundLimit⟩ session.store

/-- A session tells a name only where the tape has it, and only from the second level on. -/
theorem evaluate_refusal {session : Session} {tape : Tape} {outlet : Outlet} {event : Event}
    (hmem : event ∈ (session.evaluate tape).trace) (hrefused : ¬outlet.Takes event.message) :
    2 ≤ session.verbosity ∧ ∃ name, tape.Mentions name ∧ ¬outlet.Takes name := by
  rw [Event.takes_message] at hrefused
  push Not at hrefused
  obtain ⟨name, hname, hnot⟩ := hrefused
  obtain ⟨hverbosity, hmentions⟩ := (session.told_evaluate tape).name hmem hname
  exact ⟨hverbosity, name, hmentions, hnot⟩

/-- A tape of classified tokens whose loops end comes to a number or to a fault of one of six kinds,
each reported under its own name, unless a text of its trace is refused. That takes a verbosity of
two, and a name on the tape with a surrogate that the sink does not take. Every write is told of
then, so the trace up to the refusal says how the variables are. -/
theorem evaluate_delivered (session : Session) (output : Outlet) {tape : Tape}
    (hclassified : ∀ token ∈ tape, token ≠ .unclassified)
    (hfinished : (session.deliver output (session.evaluate tape)).outcome ≠
      .error (.error .unfinished)) :
    let outlet := session.sink.outlet output
    let run := session.evaluate tape
    let step := session.deliver output run
    ((∀ event ∈ run.trace, outlet.Takes event.message) →
      Run.ValueOrFault run.outcome ∧
        step = ⟨run.outcome.mapError .error, run.session, run.trace⟩) ∧
    ((¬∀ event ∈ run.trace, outlet.Takes event.message) →
      (∃ told event rest fault, run.trace.toList = told ++ event :: rest ∧
        (∀ earlier ∈ told, outlet.Takes earlier.message) ∧
        outlet.refusal? event.message = some fault ∧
        step = ⟨.error (.refused fault),
          { session with store := session.store.replay (told ++ [event]) }, told.toArray⟩) ∧
      2 ≤ session.verbosity ∧ (∃ name, tape.Mentions name ∧ ¬outlet.Takes name) ∧
      run.session.store = session.store.replay run.trace.toList) := by
  intro outlet run step
  constructor
  · intro htaken
    have hstep : step = _ := deliver_of_taken session output htaken
    refine ⟨?_, hstep⟩
    refine Run.evaluate_valueOrFault ⟨tape, session.verbosity, roundLimit⟩ hclassified
      ⟨session.store, #[]⟩ fun hunfinished => hfinished ?_
    have hrun : run.outcome = .error .unfinished := hunfinished
    show step.outcome = _
    rw [hstep, hrun]
    rfl
  · intro hrefused
    refine ⟨deliver_of_refused session output hrefused, ?_⟩
    push Not at hrefused
    obtain ⟨event, hmem, hnot⟩ := hrefused
    obtain ⟨hverbosity, hname⟩ := evaluate_refusal hmem hnot
    exact ⟨hverbosity, hname, (session.told_evaluate tape).store hverbosity⟩

/-- The walk writes a variable, and then it meets a condition that is cut off. One outlet takes the
variable's name, and another one does not. -/
theorem evaluate_delivered_condition :
    let name : Text := ⟨[.surrogate 0x480]⟩
    let session : Session := ⟨Table.ofList [(name, 0)], 2, .output⟩
    let tape : Tape :=
      #[.reference name, .operator .assign, .number 1, .control .ifThen, .reference name]
    let run := session.evaluate tape
    (Run.ValueOrFault run.outcome ∧ (session.deliver .utf8Bytes run).outcome =
      .error (.error (.fault .conditionTooShort))) ∧
    ∃ fault, (session.deliver .utf8 run).outcome = .error (.refused fault) := by
  intro name session tape run
  have hrun : run.outcome = .error (.fault .conditionTooShort) ∧
      run.trace = #[.started 5, .assigned name (.number 1)] := by
    simp only [run, Session.evaluate, Session.perform]
    generalize roundLimit = rounds
    constructor
    · cbv
    · cbv
  have htaken : ∀ event ∈ run.trace, Outlet.utf8Bytes.Takes event.message := by
    simp only [← Outlet.refusal?_eq_none, hrun.2]
    decide +kernel
  have hrefused : ¬∀ event ∈ run.trace, Outlet.utf8.Takes event.message := by
    simp only [← Outlet.refusal?_eq_none, hrun.2]
    decide +kernel
  have hclassified : ∀ token ∈ tape, token ≠ .unclassified := by decide
  constructor
  · have hfinished : (session.deliver .utf8Bytes run).outcome ≠ .error (.error .unfinished) := by
      rw [deliver_of_taken session .utf8Bytes htaken, hrun.1]
      simp [Except.mapError]
    obtain ⟨hvalue, hdelivered⟩ :=
      (evaluate_delivered session .utf8Bytes hclassified hfinished).1 htaken
    refine ⟨hvalue, ?_⟩
    rw [hdelivered, show (session.evaluate tape).outcome = _ from hrun.1]
    rfl
  · obtain ⟨_, _, _, _, -, -, -, hstep⟩ := deliver_of_refused session .utf8 hrefused
    have hfinished : (session.deliver .utf8 run).outcome ≠ .error (.error .unfinished) := by
      rw [hstep]
      simp
    obtain ⟨⟨told, event, rest, fault, -, -, -, hdelivered⟩, -⟩ :=
      (evaluate_delivered session .utf8 hclassified hfinished).2 hrefused
    exact ⟨fault, by rw [hdelivered]⟩

/-- The write of a variable is told of, and the file does not take its name. -/
theorem evaluate_surrogate_refused :
    let name : Text := ⟨[.surrogate 0]⟩
    let session := Session.start (Table.ofList [(name, 0)]) 2 (some defaultFile)
    let tape : Tape := #[.reference name, .operator .assign, .number 1, .reference "q"]
    let run := session.evaluate tape
    let step := session.deliver .utf8 run
    run.outcome = .error (.fault (.undefinedVariable "q")) ∧
      step.outcome = .error (.refused ⟨0, 7, 1⟩) ∧ step.trace = #[.started 4] := by
  intro name session tape run step
  have hrun : run.outcome = .error (.fault (.undefinedVariable "q")) ∧
      run.trace = #[.started 4, .assigned name (.number 1)] := by
    simp only [run, Session.evaluate, Session.perform]
    generalize roundLimit = rounds
    constructor
    · cbv
    · cbv
  have hwrite : (session.sink.outlet .utf8).writeAll
      ([.started 4, .assigned name (.number 1)].map Event.message) =
      ([(Event.started 4).message], some ⟨0, 7, 1⟩) := by
    decide +kernel
  refine ⟨hrun.1, ?_⟩
  simp only [step, deliver, hrun.2, hwrite]
  trivial

end Session

end TokenTape
