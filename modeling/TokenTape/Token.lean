import TokenTape.Operator

/-!
# Tokens

A program is a tape of tokens, each classified beforehand. There is no tree: blocks are delimited by
control markers.
-/

namespace TokenTape

inductive Control where
  | forLoop
  | ifThen
  | orElse
  | endFor
  | endIf
deriving DecidableEq

namespace Control

def all : List Control :=
  [forLoop, ifThen, orElse, endFor, endIf]

def name : Control → String
  | forLoop => "For"
  | ifThen => "If"
  | orElse => "Else"
  | endFor => "EndFor"
  | endIf => "EndIf"

def ofName? (name : Text) : Option Control :=
  all.find? fun kind => (kind.name : Text) = name

end Control

inductive Token where
  | number (value : Binary64)
  | reference (name : Text)
  | operator (kind : Operator)
  | control (kind : Control)
  /-- A token that was never classified. No program file holds one, and no walk gets past one. -/
  | unclassified
deriving DecidableEq

namespace Token

def text : Token → Text
  | number value => "Number(" ++ value.literal ++ ")"
  | reference name => "Variable(" ++ name ++ ")"
  | operator kind => "Operator(" ++ kind.name ++ ")"
  | control kind => "Control(" ++ kind.name ++ ")"
  | unclassified => "Token()"

/-- Equal tokens, with numbers compared as numbers. -/
def same : Token → Token → Bool
  | number x, number y => x.same y
  | s, t => s = t

def isMarker (kind : Control) (token : Token) : Bool :=
  token = control kind

end Token

end TokenTape
