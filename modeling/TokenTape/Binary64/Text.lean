import TokenTape.Binary64.Decimal
import TokenTape.Text.Classes

/-!
# Numbers as text

Numbers are written in two ways. The literal form is the shortest text that reads back. The display
form writes a whole number as an integer, with all its digits, and every other number as its
literal.
-/

namespace TokenTape.Binary64

/-! ## Writing -/

/-- Literals are positional below `10 ^ 16` and from `10 ^ -4` on; beyond that the exponent has a
sign and at least two digits. -/
def literalLayout : Decimal.Layout where
  lowest := -4
  highest := 15
  exponentWidth := 2
  nan := "nan"
  infinity := "inf"

def write (layout : Decimal.Layout) : Binary64 → String
  | .nan => layout.nan
  | .infinite negative => (if negative then "-" else "") ++ layout.infinity
  | .finite negative mantissa exponent h =>
    let text := String.ofList (layout.magnitude (shortest (.finite negative mantissa exponent h)))
    (if negative then "-" else "") ++ text

def literal (x : Binary64) : String :=
  x.write literalLayout

def display (x : Binary64) : String :=
  match x.toInt? with
  | some n => toString n
  | none => x.literal

/-! ## Reading -/

/-- The ASCII character that a character counts as: any blank is a space, and a digit of any script
is that digit. -/
def plainChar? (c : Char) : Option Char :=
  if c.toNat < 127 then some c
  else if Text.isBlank c then some ' '
  else (Text.digitValue? c).map fun d => Char.ofNat ('0'.toNat + d)

def trimBlanks (cs : List Char) : List Char :=
  ((cs.dropWhile Text.isBlank).reverse.dropWhile Text.isBlank).reverse

/-- Removes underscores, each of which has to stand between two digits; `last` is the character
before the text. -/
def joinDigits (last : Char) : List Char → Option (List Char)
  | [] => some []
  | c :: rest =>
    if c = '_' then
      if last.isDigit && rest.head?.any Char.isDigit then joinDigits c rest else none
    else (joinDigits c rest).map (c :: ·)

/-- Reads a number: blanks around it are ignored, a sign may come first, then a decimal or one of
the words `inf`, `infinity` and `nan` in any case. -/
def read? (text : String) : Option Binary64 := do
  let cs ← text.toList.mapM plainChar?
  let cs ← joinDigits ' ' (trimBlanks cs)
  let (negative, cs) := Decimal.takeSign cs
  let word := String.ofList (cs.map Char.toLower)
  if word = "inf" ∨ word = "infinity" then return .infinite negative
  if word = "nan" then return .nan
  return ofDecimal negative (← Decimal.read? cs)

end TokenTape.Binary64
