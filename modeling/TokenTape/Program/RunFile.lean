import TokenTape.Program.Decode
import TokenTape.Session

/-!
# Running program files

A program is run from the variables of its file. A caller may override them; a variable that the
file declares keeps its place.
-/

namespace TokenTape

namespace Program

def override (program : Program) (overrides : Store) : Program :=
  { program with store := program.store.insertAll overrides.entries }

/-- Runs a program in a session of its own. -/
def run (program : Program) (verbosity : Int) (file : Option Text) (output : Outlet) :
    Step (Halt Failure) Binary64 :=
  let session := Session.start program.store verbosity file
  session.deliver output (session.evaluate program.tokens.toArray)

end Program

inductive FileRunError where
  | program (error : ProgramError)
  | quantity (error : QuantityError)
  | failure (failure : Failure)
  | refused (fault : EncodeFault)

/-- What running a file comes to: the result and the variables, or why there are none, and the trace
where the run began. -/
structure FileRun where
  outcome : Except FileRunError (Binary64 × Store)
  trace : Option (Array Event)

/-- Runs the program in the file at `path`, which holds `bytes`. Its trace goes to the default
file. -/
def runFile (path : Text) (bytes : List UInt8) (overrides : Table Quantity) (verbosity : Int) :
    FileRun :=
  match Program.load path bytes with
  | .error error => ⟨.error (.program error), none⟩
  | .ok program =>
    match Store.ofTable overrides with
    | .error error => ⟨.error (.quantity error), none⟩
    | .ok overrides =>
      let step := (program.override overrides).run verbosity (some Session.defaultFile) .utf8
      match step.outcome with
      | .ok result => ⟨.ok (result, step.session.store), some step.trace⟩
      | .error (.error failure) => ⟨.error (.failure failure), some step.trace⟩
      | .error (.refused fault) => ⟨.error (.refused fault), some step.trace⟩

end TokenTape
