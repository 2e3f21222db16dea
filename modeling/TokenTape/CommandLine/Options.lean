import TokenTape.Json.Basic
import TokenTape.Session

/-!
# Command line options

The words of a command line are first sorted into options and operands, all of them, and then taken
from left to right. The first operand is the program's path. A long option may be shortened as long
as it stays unique, and short options may share a dash.
-/

namespace TokenTape.CommandLine

/-! ## Flags -/

inductive Flag where
  | help
  | verbose
  | setVariable
  | dump
  | debugFile
deriving DecidableEq

/-- Every spelling of a flag, in the order in which they are listed. -/
def spellings : List (String × Flag) :=
  [("-h", .help), ("--help", .help), ("-v", .verbose), ("--var", .setVariable), ("--dump", .dump),
   ("--debug-file", .debugFile)]

/-- The flag that a word spells. -/
def spelled? (word : Text) : Option Flag :=
  (spellings.find? fun spelling => (spelling.1 : Text) = word).map Prod.snd

namespace Flag

def title (flag : Flag) : String :=
  "/".intercalate ((spellings.filter (·.2 = flag)).map Prod.fst)

def takesValue : Flag → Bool
  | setVariable => true
  | debugFile => true
  | _ => false

end Flag

/-! ## Errors -/

inductive AssignmentError where
  | malformed (text : Text)
  | number (error : Json.NumberError)
deriving DecidableEq

def AssignmentError.message : AssignmentError → String
  | malformed text => "expected NAME=VALUE, got " ++ Text.quoted text
  | number error => error.message

inductive UsageError where
  | ambiguous (word : Text) (matching : List String)
  | valueExpected (flag : Flag)
  | valueIgnored (flag : Flag) (value : Text)
  | assignment (error : AssignmentError)
  | programRequired
  | unrecognized (words : List Text)
deriving DecidableEq

def UsageError.message : UsageError → Text
  | ambiguous word matching =>
    "ambiguous option: " ++ word ++ " could match " ++ ", ".intercalate matching
  | valueExpected flag => "argument " ++ flag.title ++ ": expected one argument"
  | valueIgnored flag value =>
    "argument " ++ flag.title ++ ": ignored explicit argument " ++ Text.quoted value
  | assignment error => "argument " ++ Flag.setVariable.title ++ ": " ++ error.message
  | programRequired => "the following arguments are required: program"
  | unrecognized words => "unrecognized arguments: " ++ Text.intercalate " " words

/-- Reads `NAME=VALUE`. The first equals sign counts. -/
def readAssignment (text : Text) : Except AssignmentError (Text × Binary64) :=
  let name := text.points.takeWhile (· ≠ .char '=')
  match text.points.dropWhile (· ≠ .char '=') with
  | _ :: value =>
    if name = [] then .error (.malformed text)
    else
      match Json.numberOfText ⟨value⟩ with
      | .ok x => .ok (⟨name⟩, x)
      | .error e => .error (.number e)
  | [] => .error (.malformed text)

/-! ## Sorting words -/

inductive Word where
  | operand (text : Text)
  /-- Two dashes. All words behind them are operands. -/
  | separator
  /-- A flag, with the value that is written in the same word. -/
  | option (flag : Flag) (short : Bool) (value : Option Text)
  | unknownOption (text : Text)
deriving DecidableEq

/-- A negative number is no option. A line feed at its end does not change that. -/
def isNegativeNumber (points : List CodePoint) : Bool :=
  let isDigit (point : CodePoint) := (point.char?.bind Text.digitValue?).isSome
  let points := if points.getLast? = some (.char '\n') then points.dropLast else points
  match points with
  | .char '-' :: rest =>
    match rest.dropWhile isDigit with
    | [] => !rest.isEmpty
    | .char '.' :: part => !part.isEmpty && part.all isDigit
    | _ => false
  | _ => false

/-- A word that may carry a value behind an equals sign. -/
def splitValue (points : List CodePoint) : List CodePoint × Option Text :=
  match points.dropWhile (· ≠ .char '=') with
  | _ :: value => (points.takeWhile (· ≠ .char '='), some ⟨value⟩)
  | [] => (points, none)

/-- The options that a word which is no exact spelling can stand for, each with its spelling. -/
def candidates (points : List CodePoint) : List (String × Word) :=
  match points with
  | .char '-' :: .char '-' :: _ =>
    let (name, value) := splitValue points
    (spellings.filter fun s => name.isPrefixOf (Text.ofString s.1).points).map fun s =>
      (s.1, .option s.2 false value)
  | .char '-' :: letter :: value =>
    (spellings.filter fun s => (Text.ofString s.1).points = [.char '-', letter]).map fun s =>
      (s.1, .option s.2 true (some ⟨value⟩))
  | _ => []

/-- The option that a word spells in full, with or without a value. -/
def exactOption? (points : List CodePoint) : Option Word :=
  let short := points.take 2 ≠ [.char '-', .char '-']
  match spelled? ⟨points⟩ with
  | some flag => some (.option flag short none)
  | none =>
    let (name, value) := splitValue points
    match value, spelled? ⟨name⟩ with
    | some value, some flag => some (.option flag short (some value))
    | _, _ => none

def sortWord (text : Text) : Except UsageError Word :=
  let points := text.points
  if points.head? ≠ some (.char '-') ∨ points = [.char '-'] then .ok (.operand text)
  else
    match exactOption? points, candidates points with
    | some word, _ => .ok word
    | none, [(_, word)] => .ok word
    | none, [] =>
      if isNegativeNumber points || points.contains (.char ' ') then .ok (.operand text)
      else .ok (.unknownOption text)
    | none, several => .error (.ambiguous text (several.map Prod.fst))

def sortWords : List Text → Except UsageError (List Word)
  | [] => .ok []
  | text :: rest => do
    if text = "--" then return .separator :: rest.map .operand
    let word ← sortWord text
    return word :: (← sortWords rest)

/-! ## Taking words -/

structure Options where
  program : Text
  verbosity : Nat
  /-- The variables to set; one is `none` where the option was left without a value. -/
  assignments : List (Option (Text × Binary64))
  dump : Bool
  debugFile : Text
deriving DecidableEq

inductive Request where
  | help
  | run (options : Options)
deriving DecidableEq

/-- What has been taken so far. -/
structure Taken where
  program : Option Text
  verbosity : Nat
  assignments : List (Option (Text × Binary64))
  dump : Bool
  debugFile : Text
  surplus : List Text

def Taken.nothing : Taken :=
  ⟨none, 0, [], false, Session.defaultFile, []⟩

def Taken.finish (taken : Taken) : Except UsageError Request :=
  match taken.program with
  | none => .error .programRequired
  | some program =>
    if taken.surplus = [] then
      .ok (.run ⟨program, taken.verbosity, taken.assignments, taken.dump, taken.debugFile⟩)
    else .error (.unrecognized taken.surplus)

/-- The flags that share a dash with `flag`, whose letters are `letters`. -/
def sharedFlags (flag : Flag) : List CodePoint → Except UsageError (List Flag)
  | [] => .ok [flag]
  | letter :: rest =>
    match spelled? ⟨[.char '-', letter]⟩ with
    | some next => (sharedFlags next rest).map (flag :: ·)
    | none => .error (.valueIgnored flag ⟨letter :: rest⟩)

/-- Counts flags that take no value; `none` where help is asked for. -/
def Taken.count (taken : Taken) : List Flag → Option Taken
  | [] => some taken
  | .help :: _ => none
  | .verbose :: rest => count { taken with verbosity := taken.verbosity + 1 } rest
  | .dump :: rest => count { taken with dump := true } rest
  | _ :: rest => count taken rest

/-- Sets the value of a flag. Two dashes are never a value: where they are written as one, they are
dropped. -/
def Taken.setValue (taken : Taken) (flag : Flag) (value : Text) : Except UsageError Taken :=
  match flag with
  | .setVariable => do
    let assignment ←
      if value = "--" then pure none
      else some <$> (readAssignment value).mapError .assignment
    return { taken with assignments := taken.assignments ++ [assignment] }
  | .debugFile => .ok { taken with debugFile := if value = "--" then "" else value }
  | _ => .ok taken

def Taken.addOperand (taken : Taken) (text : Text) : Taken :=
  match taken.program with
  | none => { taken with program := some text }
  | some _ => { taken with surplus := taken.surplus ++ [text] }

def takeWords (taken : Taken) : List Word → Except UsageError Request
  | [] => taken.finish
  -- The separator belongs to the program's path, before it or right behind it
  | .operand text :: .separator :: rest =>
    if taken.program = none then takeWords (taken.addOperand text) rest
    else takeWords { taken with surplus := taken.surplus ++ [text, Text.ofString "--"] } rest
  | .separator :: rest =>
    if taken.program = none ∧ rest ≠ [] then takeWords taken rest
    else takeWords { taken with surplus := taken.surplus ++ [Text.ofString "--"] } rest
  | .operand text :: rest => takeWords (taken.addOperand text) rest
  | .unknownOption text :: rest =>
    takeWords { taken with surplus := taken.surplus ++ [text] } rest
  | .option flag short value :: rest =>
    if flag.takesValue then
      match value, rest with
      | some value, rest => do takeWords (← taken.setValue flag value) rest
      | none, .operand value :: rest => do takeWords (← taken.setValue flag value) rest
      | none, _ => .error (.valueExpected flag)
    else do
      let flags ←
        match value with
        | none => .ok [flag]
        | some value =>
          if short ∧ value ≠ "" then sharedFlags flag value.points
          else .error (.valueIgnored flag value)
      match taken.count flags with
      | some taken => takeWords taken rest
      | none => return .help

/-- What a command line asks for. -/
def request (words : List Text) : Except UsageError Request := do
  takeWords .nothing (← sortWords words)

end TokenTape.CommandLine
