import TokenTape.Json.Basic

/-!
# Reading JSON

A strict reader, with three words added: `NaN`, `Infinity` and `-Infinity`. What is wrong with a
text is told with the place where it is noticed. Of a repeated name the first place and the last
value count. Reading gives up at an integer with too many digits, and where too many arrays and
objects are open.
-/

namespace TokenTape.Json

/-! ## Errors -/

inductive SyntaxFault where
  | byteOrderMark
  | valueExpected
  | nameExpected
  | colonExpected
  | commaExpected
  | extraData
  | unterminatedString
  | controlCharacter
  | invalidEscape
  | invalidCodeEscape
deriving DecidableEq

def SyntaxFault.message : SyntaxFault → String
  | byteOrderMark => "Unexpected UTF-8 BOM (decode using utf-8-sig)"
  | valueExpected => "Expecting value"
  | nameExpected => "Expecting property name enclosed in double quotes"
  | colonExpected => "Expecting ':' delimiter"
  | commaExpected => "Expecting ',' delimiter"
  | extraData => "Extra data"
  | unterminatedString => "Unterminated string starting at"
  | controlCharacter => "Invalid control character at"
  | invalidEscape => "Invalid \\escape"
  | invalidCodeEscape => "Invalid \\uXXXX escape"

/-- A place in a text. Lines and columns count from one. -/
structure Place where
  offset : Nat
  line : Nat
  column : Nat
deriving DecidableEq

def Place.ofOffset (text : List Char) (offset : Nat) : Place :=
  let before := text.take offset
  ⟨offset, before.count '\n' + 1, (before.reverse.takeWhile (· ≠ '\n')).length + 1⟩

inductive Container where
  | array
  | object
deriving DecidableEq

def Container.name : Container → String
  | array => "array"
  | object => "object"

inductive ReadError where
  | malformed (fault : SyntaxFault) (place : Place)
  /-- An integer has more digits than are converted. -/
  | integerTooLong (digits : Nat)
  /-- One more array or object is opened inside others than can be open at once. -/
  | nestedTooDeep (container : Container)
deriving DecidableEq

def digitLimit : Nat := 4300

/-- How many arrays and objects can be open at once while the command line reads a file. -/
def nestingLimit : Nat := 989

def ReadError.message : ReadError → String
  | malformed fault place =>
    fault.message ++ ": line " ++ toString place.line ++ " column " ++ toString place.column ++
      " (char " ++ toString place.offset ++ ")"
  | integerTooLong digits =>
    "Exceeds the limit (4300 digits) for integer string conversion: value has " ++
      toString digits ++ " digits; use sys.set_int_max_str_digits() to increase the limit"
  | nestedTooDeep container =>
    "maximum recursion depth exceeded while decoding a JSON " ++ container.name ++
      " from a unicode string"

/-! ## Cursors -/

/-- An offset, and the text from there on. -/
structure Cursor where
  offset : Nat
  rest : List Char

/-- Why reading stops: at a fault at an offset, or at a limit. -/
inductive Stop where
  | fault (fault : SyntaxFault) (offset : Nat)
  | integerTooLong (digits : Nat)
  | nestedTooDeep (container : Container)

def Stop.toError (text : List Char) : Stop → ReadError
  | fault f offset => .malformed f (.ofOffset text offset)
  | integerTooLong digits => .integerTooLong digits
  | nestedTooDeep container => .nestedTooDeep container

namespace Cursor

def skip (cursor : Cursor) (count : Nat) : Cursor :=
  ⟨cursor.offset + count, cursor.rest.drop count⟩

def isGap (c : Char) : Bool :=
  c = ' ' || c = '\t' || c = '\n' || c = '\r'

def skipGap (cursor : Cursor) : Cursor :=
  cursor.skip (cursor.rest.takeWhile isGap).length

/-- Past a mark and the gap behind it. -/
def passMark (cursor : Cursor) : Cursor :=
  (cursor.skip 1).skipGap

def fail {α : Type} (cursor : Cursor) (fault : SyntaxFault) : Except Stop α :=
  .error (.fault fault cursor.offset)

/-- Whether a row of items or fields goes on, where a comma or the row's last mark is to stand. -/
def goesOn (cursor : Cursor) (closing : Char) : Except Stop Bool :=
  if cursor.rest.head? = some ',' then .ok true
  else if cursor.rest.head? = some closing then .ok false
  else cursor.fail .commaExpected

end Cursor

/-! ## Strings -/

def hexDigit? (c : Char) : Option Nat :=
  if c.isDigit then some (c.toNat - '0'.toNat)
  else if 'a' ≤ c ∧ c ≤ 'f' then some (c.toNat - 'a'.toNat + 10)
  else if 'A' ≤ c ∧ c ≤ 'F' then some (c.toNat - 'A'.toNat + 10)
  else none

/-- The code unit that four hexadecimal digits stand for. -/
def codeUnit? (a b c d : Char) : Option Nat := do
  return (((← hexDigit? a) * 16 + (← hexDigit? b)) * 16 + (← hexDigit? c)) * 16 + (← hexDigit? d)

def isHighSurrogate (unit : Nat) : Bool := 0xD800 ≤ unit && unit ≤ 0xDBFF
def isLowSurrogate (unit : Nat) : Bool := 0xDC00 ≤ unit && unit ≤ 0xDFFF

/-- The code point of a code unit. A surrogate that is not half of a pair stands for itself. -/
def pointOfUnit (unit : Nat) : CodePoint :=
  if isHighSurrogate unit || isLowSurrogate unit then .surrogate (Fin.ofNat _ (unit - 0xD800))
  else .char (Char.ofNat unit)

def pointOfPair (high low : Nat) : CodePoint :=
  .char (Char.ofNat (0x10000 + (high - 0xD800) * 0x400 + (low - 0xDC00)))

def escaped? : Char → Option Char
  | '"' => some '"'
  | '\\' => some '\\'
  | '/' => some '/'
  | 'b' => some '\x08'
  | 'f' => some '\x0c'
  | 'n' => some '\n'
  | 'r' => some '\r'
  | 't' => some '\t'
  | _ => none

/-- The code point of a code escape at `offset` with the digits `a b c d`, and how many characters it
takes of the `rest` behind them: a pair of surrogates is written as two escapes. A string goes on
behind an escape, if only to its closing quote. -/
def readCode (offset : Nat) (a b c d : Char) (rest : List Char) :
    Except Stop (CodePoint × Nat) :=
  match codeUnit? a b c d with
  | none => .error (.fault .invalidCodeEscape (offset + 1))
  | some unit =>
    if rest = [] then .error (.fault .invalidCodeEscape (offset + 1))
    else if isHighSurrogate unit then
      match rest with
      | '\\' :: 'u' :: a :: b :: c :: d :: _ :: _ =>
        match codeUnit? a b c d with
        | none => .error (.fault .invalidCodeEscape (offset + 7))
        | some low =>
          .ok (if isLowSurrogate low then (pointOfPair unit low, 6) else (pointOfUnit unit, 0))
      | _ => .ok (pointOfUnit unit, 0)
    else .ok (pointOfUnit unit, 0)

/-- Reads on inside a string that was opened at `opening`; `read` holds its code points so far, the
last one first. -/
def readString (opening : Nat) (read : List CodePoint) (offset : Nat) :
    List Char → Except Stop (Text × Cursor)
  | [] => .error (.fault .unterminatedString opening)
  | '"' :: rest => .ok (⟨read.reverse⟩, ⟨offset + 1, rest⟩)
  | '\\' :: 'u' :: a :: b :: c :: d :: rest => do
    let (point, more) ← readCode offset a b c d rest
    readString opening (point :: read) (offset + 6 + more) (rest.drop more)
  | '\\' :: 'u' :: _ => .error (.fault .invalidCodeEscape (offset + 1))
  | ['\\'] => .error (.fault .unterminatedString opening)
  | '\\' :: c :: rest =>
    match escaped? c with
    | some c => readString opening (.char c :: read) (offset + 2) rest
    | none => .error (.fault .invalidEscape offset)
  | c :: rest =>
    if c.toNat < 0x20 then .error (.fault .controlCharacter offset)
    else readString opening (.char c :: read) (offset + 1) rest
termination_by cs => cs.length
decreasing_by all_goals simp only [List.length_cons, List.length_drop]; omega

/-! ## Numbers -/

/-- The digits in front of a point or an exponent: a zero, or digits that do not begin with one. -/
def wholeDigits : List Char → List Char
  | '0' :: _ => ['0']
  | cs => cs.takeWhile Char.isDigit

/-- The digits behind a point; none where the point is not followed by one. -/
def partDigits : List Char → List Char
  | '.' :: cs => cs.takeWhile Char.isDigit
  | _ => []

/-- The exponent that a text begins with, and how many characters it takes. -/
def exponent? : List Char → Option (Int × Nat)
  | mark :: cs =>
    let (negative, rest) := Decimal.takeSign cs
    let ds := rest.takeWhile Char.isDigit
    if (mark = 'e' ∨ mark = 'E') ∧ ds ≠ [] then
      some (if negative then -Decimal.ofDigits ds else Decimal.ofDigits ds,
        1 + (cs.length - rest.length) + ds.length)
    else none
  | [] => none

/-- Reads on behind the sign and the whole digits of a number. Without a part and an exponent it is an
integer. -/
def finishNumber (negative : Bool) (whole : List Char) (cursor : Cursor) :
    Except Stop (Json × Cursor) :=
  let part := partDigits cursor.rest
  let afterPart := if part = [] then cursor else cursor.skip (part.length + 1)
  match part, exponent? afterPart.rest with
  | [], none =>
    if digitLimit < whole.length then .error (.integerTooLong whole.length)
    else
      let n := Decimal.ofDigits whole
      .ok (.integer (if negative then -n else n), afterPart)
  | part, exponent =>
    let (exponent, length) := exponent.getD (0, 0)
    .ok (.number (.ofDecimal negative (.ofParts whole part exponent)), afterPart.skip length)

def readNumber (cursor : Cursor) : Except Stop (Json × Cursor) :=
  let negative := cursor.rest.head? = some '-'
  let afterSign := if negative then cursor.skip 1 else cursor
  let whole := wholeDigits afterSign.rest
  if whole = [] then cursor.fail .valueExpected
  else finishNumber negative whole (afterSign.skip whole.length)

/-! ## Values -/

/-- The words that stand for a value. -/
def words : List (String × Json) :=
  [("null", .null), ("true", .bool true), ("false", .bool false), ("NaN", .number .nan),
   ("Infinity", .number (.infinite false)), ("-Infinity", .number (.infinite true))]

def readScalar (cursor : Cursor) : Except Stop (Json × Cursor) :=
  match words.find? fun word => word.1.toList.isPrefixOf cursor.rest with
  | some (word, value) => .ok (value, cursor.skip word.length)
  | none => readNumber cursor

/-- Reads the name of a field, up to the place of its value. -/
def readName (cursor : Cursor) : Except Stop (Text × Cursor) :=
  match cursor.rest with
  | '"' :: rest => do
    let (name, cursor) ← readString cursor.offset [] (cursor.offset + 1) rest
    let cursor := cursor.skipGap
    if cursor.rest.head? ≠ some ':' then cursor.fail .colonExpected
    else return (name, cursor.passMark)
  | _ => cursor.fail .nameExpected

mutual

/-- Reads a value that may open `room` more arrays and objects inside each other. `fuel` bounds the
nesting and the number of items; twice the length of the text is more than enough. -/
def readValue : (fuel room : Nat) → Cursor → Except Stop (Json × Cursor)
  | 0, _, cursor => cursor.fail .valueExpected
  | fuel + 1, room, cursor =>
    match cursor.rest with
    | '"' :: rest => do
      let (text, cursor) ← readString cursor.offset [] (cursor.offset + 1) rest
      return (.string text, cursor)
    | '[' :: _ =>
      match room with
      | 0 => .error (.nestedTooDeep .array)
      | room + 1 =>
        let cursor := cursor.passMark
        if cursor.rest.head? = some ']' then .ok (.array [], cursor.skip 1)
        else readItems fuel room [] cursor
    | '\x7b' :: _ =>
      match room with
      | 0 => .error (.nestedTooDeep .object)
      | room + 1 =>
        let cursor := cursor.passMark
        if cursor.rest.head? = some '\x7d' then .ok (.object [], cursor.skip 1)
        else readFields fuel room [] cursor
    | _ => readScalar cursor

/-- Reads the items of an array from one on; `read` holds those before it, the last one first. -/
def readItems : (fuel room : Nat) → (read : List Json) → Cursor → Except Stop (Json × Cursor)
  | 0, _, _, cursor => cursor.fail .valueExpected
  | fuel + 1, room, read, cursor => do
    let (item, cursor) ← readValue fuel room cursor
    let cursor := cursor.skipGap
    if ← cursor.goesOn ']' then readItems fuel room (item :: read) cursor.passMark
    else return (.array (item :: read).reverse, cursor.skip 1)

/-- Reads the fields of an object from one on; `read` holds those before it. -/
def readFields : (fuel room : Nat) → (read : List (Text × Json)) → Cursor →
    Except Stop (Json × Cursor)
  | 0, _, _, cursor => cursor.fail .nameExpected
  | fuel + 1, room, read, cursor => do
    let (name, cursor) ← readName cursor
    let (value, cursor) ← readValue fuel room cursor
    let read := Table.insertEntry name value read
    let cursor := cursor.skipGap
    if ← cursor.goesOn '\x7d' then readFields fuel room read cursor.passMark
    else return (.object read, cursor.skip 1)

end

/-- The fuel that is enough to read on from a cursor. -/
def Cursor.fuel (cursor : Cursor) : Nat :=
  2 * cursor.rest.length + 2

def readText (text : List Char) : Except Stop Json := do
  if text.head? = some '\uFEFF' then Cursor.fail ⟨0, text⟩ .byteOrderMark
  let start := Cursor.skipGap ⟨0, text⟩
  let (value, cursor) ← readValue start.fuel nestingLimit start
  let cursor := cursor.skipGap
  if cursor.rest ≠ [] then cursor.fail .extraData
  return value

/-- The value that a text holds. -/
def read (text : String) : Except ReadError Json :=
  (readText text.toList).mapError (Stop.toError text.toList)

end TokenTape.Json
