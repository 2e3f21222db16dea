import TokenTape.Run.Event
import TokenTape.Tape

/-!
# Runs

A run reads a tape, writes variables and reports events. However it ends, the variables and the
events so far stay.
-/

namespace TokenTape

/-- What a run goes by. -/
structure Setting where
  tape : Tape
  verbosity : Int
  /-- How many rounds a loop may take. -/
  rounds : Nat

structure State where
  store : Store
  trace : Array Event

abbrev Run := ExceptT Failure (StateM State)

/-- The rounds that are given to a loop unless a caller says otherwise. A counter gains about one
each round and stands still from `2 ^ 53` on, so a loop that takes all of them has a counter that
stands still. -/
def roundLimit : Nat :=
  Nat.pow 2 55

def Store.lookup (store : Store) (name : Text) : Except Failure Binary64 :=
  match store.get? name with
  | some value => .ok value
  | none => .error (.fault (.undefinedVariable name))

namespace Run

/-- What a run comes to from a state: how it ends, and the state it leaves. -/
def outcome {α : Type} (run : Run α) (state : State) : Except Failure α × State :=
  (ExceptT.run run).run state

def ofExcept {α : Type} : Except Failure α → Run α
  | .ok a => pure a
  | .error e => throw e

def fault {α : Type} (f : Fault) : Run α :=
  throw (.fault f)

def emit (setting : Setting) (event : Event) : Run Unit :=
  if event.level ≤ setting.verbosity then
    modify fun state => { state with trace := state.trace.push event }
  else pure ()

def lookup (name : Text) : Run Binary64 := do
  ofExcept ((← get).store.lookup name)

def assign (setting : Setting) (name : Text) (value : Binary64) : Run Unit := do
  modify fun state => { state with store := state.store.insert name value }
  emit setting (.assigned name (.number value))

/-- The token at an offset. -/
def fetch (setting : Setting) (offset : Int) : Run Token :=
  match setting.tape.at? offset with
  | some token => pure token
  | none => throw .offsetOutOfRange

end Run

end TokenTape
