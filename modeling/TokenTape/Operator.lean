import TokenTape.Binary64.Text
import TokenTape.Text.Basic

/-!
# Operators

The binary operators of a tape, and assignment.
-/

namespace TokenTape

inductive Operator where
  | add
  | subtract
  | multiply
  | lessThan
  | greaterThan
  | equals
  | assign
deriving DecidableEq

namespace Operator

def all : List Operator :=
  [add, subtract, multiply, lessThan, greaterThan, equals, assign]

def name : Operator → String
  | add => "Add"
  | subtract => "Subtract"
  | multiply => "Multiply"
  | lessThan => "LessThan"
  | greaterThan => "GreaterThan"
  | equals => "Equals"
  | assign => "Assign"

def ofName? (name : Text) : Option Operator :=
  all.find? fun op => (op.name : Text) = name

/-- The number nearest to `10 ^ -8`. -/
def tolerance : Binary64 :=
  .ofDecimal false ⟨1, -8⟩

def truth (b : Bool) : Binary64 :=
  if b then 1 else 0

/-- A comparison yields one or zero. `lessThan` holds of equal numbers too, and `equals` of numbers
that are close. Assignment yields what is assigned; writing it down is left to the walk. -/
def apply (op : Operator) (left right : Binary64) : Binary64 :=
  match op with
  | add => left + right
  | subtract => left - right
  | multiply => left * right
  | lessThan => truth (left ≤ right)
  | greaterThan => truth (right < left)
  | equals => truth ((left - right).abs < tolerance)
  | assign => right

end Operator

end TokenTape
