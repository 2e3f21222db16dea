import TokenTape.CommandLine.Run

/-!
# The program

The command line on real files and streams. Its words hold no surrogates, and so its paths do not.
-/

namespace TokenTape.CommandLine

/-- The fault that the system reports. It gives some of its codes with a minus sign. -/
def faultOf? : IO.Error → Option FileFault
  | .noFileOrDirectory .. => some .notFound
  | .inappropriateType _ code _ =>
    some (if code = 21 ∨ code = -21 then .isDirectory else .notDirectory)
  | .invalidArgument _ code _ =>
    some (if code = 36 ∨ code = -36 then .nameTooLong else .embeddedNull)
  | _ => none

def readSource (path : Text) : IO Source := do
  try
    return .bytes (← IO.FS.readBinFile path.escaped).toList
  catch error =>
    match faultOf? error with
    | some fault => return .ofFault path fault
    | none => throw error

/-- Writes the debug file. -/
def writeLog (path text : Text) : IO (Except FileError Unit) := do
  try
    IO.FS.writeFile path.escaped text.escaped
    return .ok ()
  catch error =>
    match faultOf? error with
    | some fault => return .error ⟨fault, path⟩
    | none => throw error

def print (answer : Answer) : IO UInt32 := do
  IO.print answer.output.escaped
  IO.eprint answer.errors.escaped
  match answer.ending with
  | .exit status => return status.toUInt32
  | .escape error =>
    IO.eprintln error.message.escaped
    return 1

def answerRequest (options : Options) : IO UInt32 := do
  let path := normalizePath options.program
  let source ← readSource path
  let answer := perform .utf8 options path source (.ok ())
  match answer.log with
  | some text => do
    match ← writeLog options.debugFile text with
    | .ok () => print answer
    | .error error => print (perform .utf8 options path source (.error error))
  | none => print answer

end TokenTape.CommandLine

open TokenTape TokenTape.CommandLine in
def main (words : List String) : IO UInt32 :=
  match request (words.map Text.ofString) with
  | .error error => print (.ofUsageError error)
  | .ok .help => print (.exit 0 help "")
  | .ok (.run options) => answerRequest options
