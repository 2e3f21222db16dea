import TokenTape.Binary64.Text
import TokenTape.Table

/-!
# Quantities

What a caller hands over where a number is wanted: a number, or an integer of any size. An integer
is rounded to a number, and one beyond the range of numbers is refused.
-/

namespace TokenTape

inductive Quantity where
  | number (value : Binary64)
  | integer (value : Int)
deriving DecidableEq

/-- Why a quantity is refused: it is an integer that rounds to no finite number. -/
inductive QuantityError where
  | tooLarge
deriving DecidableEq

def QuantityError.message : QuantityError → String
  | .tooLarge => "int too large to convert to float"

namespace Quantity

/-- A truth value counts as one or zero. -/
def ofBool (b : Bool) : Quantity :=
  integer (if b then 1 else 0)

def toNumber : Quantity → Except QuantityError Binary64
  | number value => .ok value
  | integer value => (Binary64.ofInt? value).elim (.error .tooLarge) .ok

/-- The display form, in which an integer keeps all its digits. -/
def display : Quantity → String
  | number value => value.display
  | integer value => toString value

end Quantity

/-- The variables of a run. -/
abbrev Store := Table Binary64

namespace Store

/-- Writes the number that a quantity stands for. -/
def assign (store : Store) (name : Text) (quantity : Quantity) :
    Except QuantityError Store :=
  quantity.toNumber.map (store.insert name)

def ofTable (table : Table Quantity) : Except QuantityError Store :=
  table.entries.foldlM (fun store entry => assign store entry.1 entry.2) Table.empty

end Store

end TokenTape
