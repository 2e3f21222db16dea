import TokenTape.Binary64.Basic
import TokenTape.Decimal.Basic

/-!
# Decimals and numbers

A decimal stands for the number nearest to it. A number is written with the fewest digits that stand
for it again, and of those with the nearest.
-/

namespace TokenTape.Binary64

/-- The number nearest to a decimal. -/
def ofDecimal (negative : Bool) (d : Decimal) : Binary64 :=
  if d.digits = 0 then zero negative
  -- At these powers of ten the digits no longer matter, and the powers need not be computed
  else if 309 ≤ d.exponent then .infinite negative
  else if d.exponent + d.digits.log2 + 1 ≤ -324 then zero negative
  else
    ofRatio negative (d.digits * Nat.pow 10 d.exponent.toNat) (Nat.pow 10 (-d.exponent).toNat)

/-- `10 ^ k ≤ num / den`. -/
def tenPowerLe (k : Int) (num den : Nat) : Bool :=
  den * Nat.pow 10 k.toNat ≤ num * Nat.pow 10 (-k).toNat

/-- The largest `k` with `10 ^ k ≤ num / den`, for a positive ratio within the range of numbers. -/
def floorLog10 (num den : Nat) : Int :=
  -- 0.30103 is the logarithm of two, nearly: the estimate is off by one at most
  let k := (floorLog2 num den * 30103).fdiv 100000
  if tenPowerLe (k + 1) num den then k + 1 else if tenPowerLe k num den then k else k - 1

/-- The decimals of `count` digits on either side of `num / den`, the nearer one first, and of two
equally near the even one first. -/
def neighbours (num den count : Nat) : List Decimal :=
  let exponent := floorLog10 num den - count + 1
  let num := num * Nat.pow 10 (-exponent).toNat
  let den := den * Nat.pow 10 exponent.toNat
  let low := num / den
  if divNearest num den = low then [⟨low, exponent⟩, ⟨low + 1, exponent⟩]
  else [⟨low + 1, exponent⟩, ⟨low, exponent⟩]

/-- The decimal stands for the number. -/
def readsBack (x : Binary64) (d : Decimal) : Bool :=
  ofDecimal x.isNegative d = x

/-- The exact decimal of a finite number's magnitude. -/
def exactDecimal (x : Binary64) : Decimal :=
  let q := x.toRat
  -- The denominator is a power of two
  ⟨q.num.natAbs * Nat.pow 5 q.den.log2, -q.den.log2⟩

/-- The decimal with the fewest digits that stands for a finite number. Seventeen digits are always
enough; with the exact decimal behind them the search needs no proof of that. -/
def shortest (x : Binary64) : Decimal :=
  let q := x.toRat
  if q = 0 then ⟨0, 0⟩
  else
    let found := (List.range' 1 17).findSome? fun count =>
      (neighbours q.num.natAbs q.den count).find? x.readsBack
    (found.getD x.exactDecimal).trim

end TokenTape.Binary64
