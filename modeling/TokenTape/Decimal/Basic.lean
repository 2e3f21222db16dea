/-!
# Decimals

A decimal is a whole number of digits at a power of ten. Its digits are read from text and laid out
as text here; which number they stand for is settled elsewhere.
-/

namespace TokenTape

/-- `digits · 10 ^ exponent`. -/
structure Decimal where
  digits : Nat
  exponent : Int
deriving DecidableEq

namespace Decimal

/-- Moves the zeros at the end of the digits into the exponent. -/
def trim (d : Decimal) : Decimal :=
  if d.digits ≠ 0 ∧ d.digits % 10 = 0 then trim ⟨d.digits / 10, d.exponent + 1⟩ else d
termination_by d.digits
decreasing_by omega

/-! ## Reading -/

/-- The value of a row of digits. -/
def ofDigits (cs : List Char) : Nat :=
  cs.foldl (fun n c => 10 * n + (c.toNat - '0'.toNat)) 0

/-- The decimal `whole.part · 10 ^ exponent`. -/
def ofParts (whole part : List Char) (exponent : Int) : Decimal :=
  ⟨ofDigits (whole ++ part), exponent - part.length⟩

/-- One optional sign in front of the rest; `true` is a minus. -/
def takeSign : List Char → Bool × List Char
  | '-' :: rest => (true, rest)
  | '+' :: rest => (false, rest)
  | cs => (false, cs)

/-- The exponent that follows a decimal's digits: nothing, or `e` with digits and an optional
sign. -/
def readExponent? : List Char → Option Int
  | [] => some 0
  | mark :: rest =>
    let (negative, ds) := takeSign rest
    if (mark = 'e' ∨ mark = 'E') ∧ ds ≠ [] ∧ ds.all Char.isDigit then
      some (if negative then -ofDigits ds else ofDigits ds)
    else none

/-- Reads digits with an optional point and an optional exponent. There is at least one digit before
or after the point. -/
def read? (cs : List Char) : Option Decimal :=
  let whole := cs.takeWhile Char.isDigit
  let rest := cs.dropWhile Char.isDigit
  let (part, rest) :=
    match rest with
    | '.' :: rest => (rest.takeWhile Char.isDigit, rest.dropWhile Char.isDigit)
    | rest => ([], rest)
  if whole ++ part = [] then none
  else (readExponent? rest).map (ofParts whole part)

/-! ## Layout -/

/-- How a number is laid out as text. -/
structure Layout where
  /-- The first digit's exponents, from `lowest` to `highest`, that are written without an
  exponent. -/
  lowest : Int
  highest : Int
  /-- The fewest digits of a written exponent. -/
  exponentWidth : Nat
  nan : String
  infinity : String

/-- Digits with a point, and at least one digit on either side of it. -/
def positional (ds : List Char) (top : Int) : List Char :=
  if top < 0 then '0' :: '.' :: (List.replicate (-top - 1).toNat '0' ++ ds)
  else
    let whole := ds.take (top.toNat + 1)
    let part := ds.drop (top.toNat + 1)
    whole ++ List.replicate (top.toNat + 1 - whole.length) '0' ++
      '.' :: (if part.isEmpty then ['0'] else part)

/-- One digit, the others after a point, and a signed exponent. -/
def scientific (width : Nat) (ds : List Char) (top : Int) : List Char :=
  let exponent := Nat.toDigits 10 top.natAbs
  ds.take 1 ++ (if ds.length ≤ 1 then [] else '.' :: ds.drop 1) ++
    'e' :: (if top < 0 then '-' else '+') ::
      (List.replicate (width - exponent.length) '0' ++ exponent)

def Layout.magnitude (layout : Layout) (d : Decimal) : List Char :=
  let ds := Nat.toDigits 10 d.digits
  let top := d.exponent + ds.length - 1
  if layout.lowest ≤ top ∧ top ≤ layout.highest then positional ds top
  else scientific layout.exponentWidth ds top

end Decimal

end TokenTape
