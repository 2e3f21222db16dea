import TokenTape.CommandLine.Options
import TokenTape.CommandLine.Workspace
import TokenTape.Program.RunFile

/-!
# The command line

A command line is answered with an exit status, a text for each of the two output streams, and
perhaps a file. Some errors are not reported but end the command as they are. The stream for errors
takes every text, which standard output may not.
-/

namespace TokenTape.CommandLine

/-! ## Texts -/

def usage : String :=
  "usage: flateval [-h] [-v] [--var NAME=VALUE] [--dump]\n" ++
  "                [--debug-file DEBUG_FILE]\n" ++
  "                program\n"

def help : String :=
  usage ++ "\n" ++
  "flateval token interpreter\n\n" ++
  "positional arguments:\n" ++
  "  program               JSON program file to evaluate\n\n" ++
  "options:\n" ++
  "  -h, --help            show this help message and exit\n" ++
  "  -v                    increase debug verbosity (can be repeated)\n" ++
  "  --var NAME=VALUE      set a variable before evaluation (can be repeated)\n" ++
  "  --dump                print all variables after evaluation\n" ++
  "  --debug-file DEBUG_FILE\n" ++
  "                        file receiving debug output\n"

/-- The variables of a run, one a line, in the order of their names' code points. -/
def dumpLines (store : Store) : List Text :=
  let sorted := store.entries.mergeSort fun a b => a.1 ≤ b.1
  sorted.map fun (name, value) => name ++ " = " ++ value.display

/-- Lines as they are printed. -/
def lineText (lines : List Text) : Text :=
  .join (lines.map (· ++ "\n"))

/-! ## Answers -/

/-- An error that ends the command without a report. -/
inductive Escape where
  | file (error : FileError)
  | program (error : ProgramError)
  /-- A variable is to be set and no value was given. -/
  | emptyAssignment (index : Nat)
  | failure (failure : Failure)
  /-- A text cannot be written. -/
  | refused (fault : EncodeFault)

def Escape.message : Escape → Text
  | file error => error.message
  | program error => error.message
  | emptyAssignment index =>
    "dictionary update sequence element #" ++ toString index ++ " has length 0; 2 is required"
  | failure f => f.message
  | refused fault => fault.message

inductive Ending where
  | exit (status : Nat)
  | escape (error : Escape)

structure Answer where
  ending : Ending
  output : Text
  errors : Text
  /-- The text of the debug file, if that was opened. -/
  log : Option Text

namespace Answer

def exit (status : Nat) (output errors : Text) : Answer :=
  ⟨.exit status, output, errors, none⟩

def escape (error : Escape) : Answer :=
  ⟨.escape error, "", "", none⟩

def ofUsageError (error : UsageError) : Answer :=
  exit 2 "" (usage ++ "flateval: error: " ++ error.message ++ "\n")

end Answer

/-- What stands at the program's path. -/
inductive Source where
  | absent
  | unreadable (error : FileError)
  | bytes (bytes : List UInt8)

/-- A path that leads nowhere has no program; what else is wrong with it is an error. -/
def Source.ofFault (path : Text) : FileFault → Source
  | .isDirectory => .unreadable ⟨.isDirectory, path⟩
  | .nameTooLong => .unreadable ⟨.nameTooLong, path⟩
  | .notFound | .notDirectory | .embeddedNull | .noBytes _ => .absent

/-- Runs a program that was loaded. The trace comes before the result, and the variables behind it
if they are asked for. Printing ends at the first line that is refused. -/
def runProgram (output : Outlet) (options : Options) (program : Program) : Answer :=
  let overrides := Table.ofList (options.assignments.filterMap id)
  let step := (program.override overrides).run options.verbosity (some options.debugFile) output
  let trace := traceText step.trace
  let (log, traced) :=
    match step.session.sink with
    | .file _ => (some trace, "")
    | .output => (none, trace)
  match step.outcome with
  | .ok result =>
    let dump := if options.dump then dumpLines step.session.store else []
    let (printed, refusal) := output.writeAll (result.display :: dump)
    ⟨refusal.elim (.exit 0) fun fault => .escape (.refused fault), traced ++ lineText printed, "",
      log⟩
  | .error (.error (.fault fault)) =>
    ⟨.exit 1, traced, "Runtime error: " ++ fault.report.text ++ "\n", log⟩
  | .error (.error failure) => ⟨.escape (.failure failure), traced, "", log⟩
  | .error (.refused fault) => ⟨.escape (.refused fault), traced, "", log⟩

/-- Loads and runs the program at a path. `openLog` is what opening the debug file would come to; it
is opened once the program is loaded, and only to hold a trace. -/
def perform (output : Outlet) (options : Options) (path : Text) (source : Source)
    (openLog : Except FileError Unit) : Answer :=
  match source with
  | .absent => .exit 1 "" ("Error: file " ++ path ++ " not found\n")
  | .unreadable error => .escape (.file error)
  | .bytes bytes =>
    match Program.load path bytes with
    | .error (.format error) => .exit 1 "" ("Error: " ++ error.message ++ "\n")
    | .error error => .escape (.program error)
    | .ok program =>
      match options.assignments.findIdx? (·.isNone) with
      | some index => .escape (.emptyAssignment index)
      | none =>
        match Session.sinkFor options.verbosity (some options.debugFile), openLog with
        | .file _, .error error => .escape (.file error)
        | _, _ => runProgram output options program

/-! ## In a workspace -/

/-- What a workspace has at a normalized path. -/
def Workspace.source (workspace : Workspace) (path : Text) : Source :=
  match workspace.locate path (components path) with
  | .ok (.file _ bytes) => .bytes bytes
  | .ok .directory => .ofFault path .isDirectory
  | .ok (.vacant _) => .ofFault path .notFound
  | .error fault => .ofFault path fault

/-- Answers a command line in a workspace, where `output` is standard output. -/
def run (output : Outlet) (workspace : Workspace) (words : List Text) : Answer :=
  match request words with
  | .error error => .ofUsageError error
  | .ok .help => .exit 0 help ""
  | .ok (.run options) =>
    let path := normalizePath options.program
    perform output options path (workspace.source path)
      ((workspace.openForWriting options.debugFile).map fun _ => ())

/-- The files that an answer creates or changes, with their texts. -/
def changedFiles (workspace : Workspace) (words : List Text) (answer : Answer) :
    List (Text × Text) :=
  match answer.log, request words with
  | some text, .ok (.run options) =>
    match workspace.openForWriting options.debugFile with
    | .ok (some name) =>
      if workspace.files.get? name = text.encode? then [] else [(name, text)]
    | _ => []
  | _, _ => []

end TokenTape.CommandLine
