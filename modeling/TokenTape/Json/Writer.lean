import TokenTape.Json.Basic

/-!
# Writing JSON

A value is written on one line, or with one item or field a line. Only what must be escaped is.
-/

namespace TokenTape.Json

/-- Numbers are written as literals, with the words of the format for those that are not finite. -/
def numberLayout : Decimal.Layout :=
  { Binary64.literalLayout with nan := "NaN", infinity := "Infinity" }

def escapeChar (c : Char) : List Char :=
  if c = '"' then ['\\', '"']
  else if c = '\\' then ['\\', '\\']
  else if c = '\n' then ['\\', 'n']
  else if c = '\r' then ['\\', 'r']
  else if c = '\t' then ['\\', 't']
  else if c = '\x08' then ['\\', 'b']
  else if c = '\x0c' then ['\\', 'f']
  else if c.toNat < 0x20 then '\\' :: 'u' :: Text.hex 4 c.toNat
  else [c]

def escapePoint : CodePoint → List CodePoint
  | .char c => (escapeChar c).map .char
  | .surrogate s => [.surrogate s]

def quoteText (text : Text) : Text :=
  ⟨.char '"' :: (text.points.flatMap escapePoint ++ [.char '"'])⟩

mutual

def writeLine : Json → Text
  | null => "null"
  | bool value => if value then "true" else "false"
  | integer value => toString value
  | number value => value.write numberLayout
  | string value => quoteText value
  | array items => "[" ++ Text.intercalate ", " (lineItems items) ++ "]"
  | object fields => "\x7b" ++ Text.intercalate ", " (lineFields fields) ++ "\x7d"

def lineItems : List Json → List Text
  | [] => []
  | item :: rest => item.writeLine :: lineItems rest

def lineFields : List (Text × Json) → List Text
  | [] => []
  | (name, value) :: rest => (quoteText name ++ ": " ++ value.writeLine) :: lineFields rest

end

/-- Items between brackets, each on a line of its own and indented by two spaces a level. -/
def writeBlock (level : Nat) (opening closing : Char) (items : List Text) : Text :=
  let line (level : Nat) := '\n' :: List.replicate (2 * level) ' '
  if items = [] then .ofList [opening, closing]
  else
    Text.ofList (opening :: line (level + 1)) ++
      Text.intercalate (.ofList (',' :: line (level + 1))) items ++
      .ofList (line level ++ [closing])

mutual

/-- Writes a value over several lines, inside `level` arrays and objects. -/
def writeIndented (level : Nat) : Json → Text
  | array items => writeBlock level '[' ']' (indentedItems (level + 1) items)
  | object fields => writeBlock level '\x7b' '\x7d' (indentedFields (level + 1) fields)
  | value => value.writeLine

def indentedItems (level : Nat) : List Json → List Text
  | [] => []
  | item :: rest => item.writeIndented level :: indentedItems level rest

def indentedFields (level : Nat) : List (Text × Json) → List Text
  | [] => []
  | (name, value) :: rest =>
    (quoteText name ++ ": " ++ value.writeIndented level) :: indentedFields level rest

end

end TokenTape.Json
