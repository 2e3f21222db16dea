import TokenTape.Run.Walk

/-!
# Sessions

A session keeps its variables from one request to the next. Its trace goes to a file or to standard
output. A request first comes to what it does and tells by itself; then its trace is delivered, and
a text that is refused breaks the request off at that place.
-/

namespace TokenTape

inductive Sink where
  | output
  | file (name : Text)
deriving DecidableEq

/-- The outlet that the texts for a sink go to, where `output` is standard output. -/
def Sink.outlet (output : Outlet) : Sink → Outlet
  | .output => output
  | .file _ => .utf8

structure Session where
  store : Store
  verbosity : Int
  sink : Sink

/-- What a request comes to: its answer, the session after it, and the events it reported. -/
structure Step (ε α : Type) where
  outcome : Except ε α
  session : Session
  trace : Array Event

/-- The text that the events of a trace are written as. -/
def traceText (trace : Array Event) : Text :=
  .join (trace.toList.map fun event => event.message ++ "\n")

namespace Session

/-- The file of a trace, unless a caller names another one. -/
def defaultFile : Text := "debug.txt"

/-- A file is used only where there is something to write and the file has a name. -/
def sinkFor (verbosity : Int) (file : Option Text) : Sink :=
  match file with
  | some name => if 0 < verbosity ∧ name ≠ "" then .file name else .output
  | none => .output

def start (store : Store) (verbosity : Int) (file : Option Text) : Session :=
  ⟨store, verbosity, sinkFor verbosity file⟩

/-- From now on the trace goes to standard output. -/
def close (session : Session) : Session :=
  { session with sink := .output }

def perform {α : Type} (session : Session) (tape : Tape) (run : Setting → Run α) :
    Step Failure α :=
  let setting : Setting := ⟨tape, session.verbosity, roundLimit⟩
  let (outcome, state) := (run setting).outcome ⟨session.store, #[]⟩
  ⟨outcome, { session with store := state.store }, state.trace⟩

def evaluate (session : Session) (tape : Tape) : Step Failure Binary64 :=
  session.perform tape Run.evaluate

/-- The events that a session reports at its verbosity. -/
def report (session : Session) (event : Event) : Array Event :=
  if event.level ≤ session.verbosity then #[event] else #[]

def assign (session : Session) (name : Text) (quantity : Quantity) :
    Step QuantityError Unit :=
  match session.store.assign name quantity with
  | .ok store =>
    ⟨.ok (), { session with store }, session.report (.assigned name quantity)⟩
  | .error error => ⟨.error error, session, #[]⟩

def note (session : Session) (message : Text) : Step Failure Unit :=
  ⟨.ok (), session, session.report (.note message)⟩

end Session

/-! ## Delivery -/

/-- Why a request is not answered: it fails, or a text of its trace is refused. -/
inductive Halt (ε : Type) where
  | error (e : ε)
  | refused (fault : EncodeFault)

/-- The writes that events tell of, made to a store in turn. -/
def Store.replay (store : Store) (events : List Event) : Store :=
  events.foldl (fun store event =>
    match event with
    | .assigned name quantity => (store.assign name quantity).toOption.getD store
    | _ => store) store

/-- What a request of a session comes to once its trace is written. The first text that is refused
breaks it off. A write is told of as soon as it is made, so the variables are as the events up to
that text say. -/
def Session.deliver {ε α : Type} (session : Session) (output : Outlet) (step : Step ε α) :
    Step (Halt ε) α :=
  let events := step.trace.toList
  match (session.sink.outlet output).writeAll (events.map Event.message) with
  | (_, none) => ⟨step.outcome.mapError .error, step.session, step.trace⟩
  | (written, some fault) =>
    ⟨.error (.refused fault),
      { session with store := session.store.replay (events.take (written.length + 1)) },
      (events.take written.length).toArray⟩

end TokenTape
