/-!
# Double-precision numbers

A number is `nan`, an infinity, or a signed whole multiple of a power of two. Arithmetic takes the
exact rational result and rounds it once, to the nearest number and a tie to the even mantissa, so
no operation here is a primitive that a proof cannot open.
-/

namespace TokenTape

/-- `mantissa · 2 ^ exponent` in the one form the format allows: 53 bits, fewer only at the smallest
exponent. -/
def Binary64.Canonical (mantissa : Nat) (exponent : Int) : Prop :=
  mantissa < Nat.pow 2 53 ∧ -1074 ≤ exponent ∧ exponent ≤ 971 ∧
    (Nat.pow 2 52 ≤ mantissa ∨ exponent = -1074)

instance (mantissa : Nat) (exponent : Int) : Decidable (Binary64.Canonical mantissa exponent) :=
  inferInstanceAs (Decidable (_ ∧ _))

inductive Binary64 where
  | nan
  | infinite (negative : Bool)
  | finite (negative : Bool) (mantissa : Nat) (exponent : Int)
      (canonical : Binary64.Canonical mantissa exponent)
deriving DecidableEq

namespace Binary64

/-! ## Rounding -/

/-- The whole number nearest to a quotient, and of two equally near the even one. -/
def divNearest (num den : Nat) : Nat :=
  match compare (2 * (num % den)) den with
  | .lt => num / den
  | .eq => num / den + num / den % 2
  | .gt => num / den + 1

/-- The largest `k` with `2 ^ k ≤ num / den`, for positive `num` and `den`. -/
def floorLog2 (num den : Nat) : Int :=
  let k : Int := (num.log2 : Int) - den.log2
  if den * Nat.pow 2 k.toNat ≤ num * Nat.pow 2 (-k).toNat then k else k - 1

def zero (negative : Bool) : Binary64 :=
  .finite negative 0 (-1074) (by decide)

/-- The number nearest to `num / den` with the given sign. A magnitude that rounds to `2 ^ 1024` or
beyond is infinite. -/
def ofRatio (negative : Bool) (num den : Nat) : Binary64 :=
  if num = 0 then zero negative
  else
    let exponent := max (floorLog2 num den - 52) (-1074)
    let mantissa := divNearest (num * Nat.pow 2 (-exponent).toNat) (den * Nat.pow 2 exponent.toNat)
    -- Rounding up may carry into a 54th bit
    let (mantissa, exponent) :=
      if mantissa = Nat.pow 2 53 then (Nat.pow 2 52, exponent + 1) else (mantissa, exponent)
    if h : Canonical mantissa exponent then .finite negative mantissa exponent h
    else .infinite negative

def ofRat (q : Rat) : Binary64 :=
  ofRatio (q < 0) q.num.natAbs q.den

def ofInt (n : Int) : Binary64 :=
  ofRatio (n < 0) n.natAbs 1

/-- The number nearest to an integer, if that is not an infinity. -/
def ofInt? (n : Int) : Option Binary64 :=
  match ofInt n with
  | .infinite _ => none
  | x => some x

instance (n : Nat) : OfNat Binary64 n := ⟨ofInt n⟩

/-! ## Value -/

def isNegative : Binary64 → Bool
  | .nan => false
  | .infinite negative => negative
  | .finite negative .. => negative

/-- `mantissa · 2 ^ exponent`. -/
def scaled (mantissa : Nat) (exponent : Int) : Rat :=
  mkRat (mantissa * Nat.pow 2 exponent.toNat : Nat) (Nat.pow 2 (-exponent).toNat)

/-- The exact value of a finite number; `0` for the others. -/
def toRat : Binary64 → Rat
  | .finite true mantissa exponent _ => -scaled mantissa exponent
  | .finite false mantissa exponent _ => scaled mantissa exponent
  | _ => 0

/-- The integer that a finite number is, if it is one. -/
def toInt? : Binary64 → Option Int
  | .finite negative mantissa exponent h =>
    let q := toRat (.finite negative mantissa exponent h)
    if q.den = 1 then some q.num else none
  | _ => none

/-! ## Arithmetic -/

def neg : Binary64 → Binary64
  | .nan => .nan
  | .infinite negative => .infinite (!negative)
  | .finite negative mantissa exponent h => .finite (!negative) mantissa exponent h

def abs : Binary64 → Binary64
  | .nan => .nan
  | .infinite _ => .infinite false
  | .finite _ mantissa exponent h => .finite false mantissa exponent h

/-- A sum of exactly zero is negative only if both terms are. -/
def add : Binary64 → Binary64 → Binary64
  | .nan, _ => .nan
  | _, .nan => .nan
  | .infinite a, .infinite b => if a = b then .infinite a else .nan
  | .infinite a, _ => .infinite a
  | _, .infinite b => .infinite b
  | x, y =>
    let q := x.toRat + y.toRat
    if q = 0 then zero (x.isNegative && y.isNegative) else ofRat q

def sub (x y : Binary64) : Binary64 :=
  add x y.neg

def mul : Binary64 → Binary64 → Binary64
  | .nan, _ => .nan
  | _, .nan => .nan
  | .infinite a, y => infiniteTimes a y
  | x, .infinite b => infiniteTimes b x
  | x, y =>
    let q := x.toRat * y.toRat
    ofRatio (x.isNegative != y.isNegative) q.num.natAbs q.den
where
  infiniteTimes (negative : Bool) (y : Binary64) : Binary64 :=
    match y with
    | .finite _ 0 _ _ => .nan
    | y => .infinite (negative != y.isNegative)

instance : Neg Binary64 := ⟨neg⟩
instance : Add Binary64 := ⟨add⟩
instance : Sub Binary64 := ⟨sub⟩
instance : Mul Binary64 := ⟨mul⟩

/-! ## Order

`nan` is related to nothing, and the two zeros are equal.
-/

def le : Binary64 → Binary64 → Bool
  | .nan, _ => false
  | _, .nan => false
  | .infinite true, _ => true
  | _, .infinite false => true
  | .infinite false, _ => false
  | _, .infinite true => false
  | x, y => x.toRat ≤ y.toRat

instance : LE Binary64 := ⟨fun x y => x.le y = true⟩
instance : LT Binary64 := ⟨fun x y => x ≤ y ∧ ¬y ≤ x⟩

instance (x y : Binary64) : Decidable (x ≤ y) := inferInstanceAs (Decidable (x.le y = true))
instance (x y : Binary64) : Decidable (x < y) := inferInstanceAs (Decidable (_ ∧ _))

/-- Equal as numbers: unlike `=`, this tells `nan` from itself and does not tell the zeros apart. -/
def same (x y : Binary64) : Bool :=
  x ≤ y && y ≤ x

end Binary64

end TokenTape
