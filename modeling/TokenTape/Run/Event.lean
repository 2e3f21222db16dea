import TokenTape.Quantity
import TokenTape.Token

/-!
# Events

What a run tells about itself while it goes on. An event has a level, and a run reports the events
up to the verbosity that is asked of it.
-/

namespace TokenTape

inductive Event where
  | note (message : Text)
  | started (count : Nat)
  | finished (result : Binary64)
  | assigned (name : Text) (value : Quantity)
  | loop (name : Text) (first last : Binary64) (bodyStart bodyStop : Int)
  | branch (condition : Binary64) (thenStart thenStop elseStart elseStop : Int)
  | dispatched (offset : Int) (token : Token) (result : Binary64) (pending : Option Operator)
deriving DecidableEq

namespace Event

def level : Event → Int
  | note _ => 1
  | started _ => 1
  | finished _ => 1
  | assigned .. => 2
  | loop .. => 2
  | branch .. => 2
  | dispatched .. => 3

def view (start stop : Int) : String :=
  "[" ++ toString start ++ ", " ++ toString stop ++ ")"

def message : Event → Text
  | note message => message
  | started count => "evaluate " ++ toString count ++ " tokens"
  | finished result => "result " ++ result.display
  | assigned name value => "assign " ++ name ++ " = " ++ value.display
  | loop name first last bodyStart bodyStop =>
    "for " ++ name ++ " in " ++ first.display ++ ".." ++ last.display ++
      " body " ++ view bodyStart bodyStop
  | branch condition thenStart thenStop elseStart elseStop =>
    "if condition " ++ condition.display ++ " then " ++ view thenStart thenStop ++
      " else " ++ view elseStart elseStop
  | dispatched offset token result pending =>
    "  [" ++ toString offset ++ "] " ++ token.text ++ " result=" ++ result.display ++
      " pending=" ++ (pending.map Operator.name).getD "None"

end Event

end TokenTape
