import TokenTape.Binary64.Text
import TokenTape.Table

/-!
# JSON values

Integers are kept apart from other numbers, since they have no bounds. The fields of an object keep
the order in which their names first occur.
-/

namespace TokenTape

inductive Json where
  | null
  | bool (value : Bool)
  | integer (value : Int)
  | number (value : Binary64)
  | string (value : Text)
  | array (items : List Json)
  | object (fields : List (Text × Json))

namespace Json

/-- The field of a name, in an object. -/
def field? (name : Text) : Json → Option Json
  | object fields => fields.lookup name
  | _ => none

/-- The type that an object says it is of, if that can be the name of one. -/
def typeName? (value : Json) : Option String :=
  match value.field? "type" with
  | some (.string name) => name.toString?
  | _ => none

/-! ## Showing values in messages -/

mutual

/-- A value as messages show it. That is meant for values that were read: an integer with more digits
than are converted is none of them, and is shown here all the same. -/
def display : Json → String
  | null => "None"
  | bool true => "True"
  | bool false => "False"
  | integer value => toString value
  | number value => value.literal
  | string value => Text.quoted value
  | array items => "[" ++ ", ".intercalate (displayItems items) ++ "]"
  | object fields => "\x7b" ++ ", ".intercalate (displayFields fields) ++ "\x7d"

def displayItems : List Json → List String
  | [] => []
  | item :: rest => item.display :: displayItems rest

def displayFields : List (Text × Json) → List String
  | [] => []
  | (name, value) :: rest => (Text.quoted name ++ ": " ++ value.display) :: displayFields rest

end

/-! ## Numbers -/

inductive NumberError where
  /-- The value is of a type that no number is read from. -/
  | wrongType (name : String)
  | unreadable (text : Text)
  | tooLarge
deriving DecidableEq

def NumberError.message : NumberError → String
  | wrongType name => "expected a number, got " ++ name
  | unreadable text => "cannot parse number from " ++ Text.quoted text
  | tooLarge => "int too large to convert to float"

/-- The number that a text holds. -/
def numberOfText (text : Text) : Except NumberError Binary64 :=
  (text.toString?.bind Binary64.read?).elim (.error (.unreadable text)) .ok

/-- The number that a value stands for: a number, an integer in range, or a text that holds one. -/
def toNumber : Json → Except NumberError Binary64
  | null => .error (.wrongType "NoneType")
  | bool _ => .error (.wrongType "bool")
  | integer value => (Binary64.ofInt? value).elim (.error .tooLarge) .ok
  | number value => .ok value
  | string text => numberOfText text
  | array _ => .error (.wrongType "list")
  | object _ => .error (.wrongType "dict")

end Json

end TokenTape
