import TokenTape.Token

/-!
# Faults

What can be wrong with a tape, and how it is reported. A fault is one of a few kinds; its report is
the kind's name and a message.
-/

namespace TokenTape

inductive FaultKind where
  | invalidAssignment
  | undefinedVariable
  | invalidForLoop
  | invalidIfStatement
  | missingMarker
  | missingEndFor
  | missingEndIf
deriving DecidableEq

namespace FaultKind

def all : List FaultKind :=
  [invalidAssignment, undefinedVariable, invalidForLoop, invalidIfStatement, missingMarker,
   missingEndFor, missingEndIf]

def name : FaultKind → String
  | invalidAssignment => "InvalidAssignment"
  | undefinedVariable => "UndefinedVariable"
  | invalidForLoop => "InvalidForLoop"
  | invalidIfStatement => "InvalidIfStatement"
  | missingMarker => "MissingMarker"
  | missingEndFor => "MissingEndFor"
  | missingEndIf => "MissingEndIf"

def ofName? (name : String) : Option FaultKind :=
  all.find? (·.name = name)

/-- The kind that a kind is a special case of. -/
def parent? : FaultKind → Option FaultKind
  | missingEndFor => some missingMarker
  | missingEndIf => some missingMarker
  | _ => none

/-- A kind and the kinds above it, the most special first. -/
def lineage (kind : FaultKind) : List FaultKind :=
  kind :: kind.parent?.toList

/-- The kind of fault that a missing marker is. -/
def ofMissing : Control → FaultKind
  | .endFor => missingEndFor
  | .endIf => missingEndIf
  | _ => missingMarker

end FaultKind

inductive Fault where
  /-- A number is assigned, and no variable stands two tokens before it. -/
  | noTarget (offset : Int)
  | variableAssigned (name : Text)
  | undefinedVariable (name : Text)
  | loopTooShort
  | loopVariable (found : Token)
  | loopBody (found : Token)
  | conditionTooShort
  | missingMarker (kind : Control)
deriving DecidableEq

/-- How a fault is told to the outside. -/
structure Report where
  name : String
  message : Text
deriving DecidableEq

namespace Report

def text (report : Report) : Text :=
  report.name ++ ": " ++ report.message

/-- The report with its two parts quoted. -/
def quoted (report : Report) : String :=
  "Error(name=" ++ Text.quoted report.name ++ ", message=" ++ Text.quoted report.message ++ ")"

end Report

namespace Fault

def kind : Fault → FaultKind
  | noTarget _ => .invalidAssignment
  | variableAssigned _ => .invalidAssignment
  | undefinedVariable _ => .undefinedVariable
  | loopTooShort => .invalidForLoop
  | loopVariable _ => .invalidForLoop
  | loopBody _ => .invalidForLoop
  | conditionTooShort => .invalidIfStatement
  | missingMarker marker => .ofMissing marker

def message : Fault → Text
  | noTarget offset => "assignment at offset " ++ toString offset ++ " has no target variable"
  | variableAssigned name =>
    "cannot assign variable " ++ name ++ "; only literals can be assigned"
  | undefinedVariable name => "undefined variable " ++ name
  | loopTooShort => "for loop needs a variable, a start, an end and a body"
  | loopVariable found => "for loop variable must be a variable, got " ++ found.text
  | loopBody found => "for loop body must start with a variable, got " ++ found.text
  | conditionTooShort => "if statement needs a three token condition"
  | missingMarker marker => "missing " ++ marker.name ++ " marker"

def report (fault : Fault) : Report :=
  ⟨fault.kind.name, fault.message⟩

end Fault

/-- Why a run ends without a result. -/
inductive Failure where
  | fault (fault : Fault)
  | unclassifiedToken
  /-- An operator is applied where there is none. A walk never does that. -/
  | noOperator
  /-- An offset lies outside the tape. A run over a whole tape never meets this. -/
  | offsetOutOfRange
  /-- A loop took all the rounds it was given. -/
  | unfinished
deriving DecidableEq

def Failure.message : Failure → Text
  | fault f => f.report.text
  | unclassifiedToken =>
    "evaluate: unexpected token type <class 'flateval.tokens.Token'>"
  | noOperator => "apply_operation: unexpected operator None"
  | offsetOutOfRange => "list index out of range"
  | unfinished => "a loop did not end"

/-- Applies an operator, if there is one. -/
def applyOperator (op : Option Operator) (left right : Binary64) : Except Failure Binary64 :=
  match op with
  | some op => .ok (op.apply left right)
  | none => .error .noOperator

end TokenTape
