import Mathlib
import TokenTape.Proofs.Rounding

/-!
# The range of integers

An integer has a nearest finite number up to the middle between the largest of them and `2 ^ 1024`.
The middle itself is rounded up.
-/

namespace TokenTape.Binary64

/-! ## Bounds of a quotient -/

theorem le_divNearest {num den m : Nat} (hden : 0 < den) (h : m * den ≤ num) :
    m ≤ divNearest num den := by
  have hquotient : m ≤ num / den := (Nat.le_div_iff_mul_le hden).2 h
  unfold divNearest
  split <;> omega

theorem divNearest_le {num den m : Nat} (h : 2 * num < (2 * m + 1) * den) :
    divNearest num den ≤ m := by
  have hsplit := Nat.div_add_mod num den
  have hbound : 2 * num < 2 * (den * m) + den := by
    rwa [show 2 * (den * m) + den = (2 * m + 1) * den by ring]
  have hquotient : num / den ≤ m := by
    by_contra hlt
    have := Nat.mul_le_mul_left den (show m + 1 ≤ num / den by omega)
    rw [Nat.mul_add_one] at this
    omega
  -- Where the remainder is a half or more, the quotient is below `m`
  have hbelow (hrest : den ≤ 2 * (num % den)) : num / den < m := by
    by_contra hlt
    have := Nat.mul_le_mul_left den (show m ≤ num / den by omega)
    omega
  unfold divNearest
  split
  · exact hquotient
  · next heq =>
    have := hbelow (compare_eq_iff_eq.1 heq).ge
    omega
  · next hgt => exact hbelow (compare_gt_iff_gt.1 hgt).le

theorem lt_divNearest {num den m : Nat} (hden : 0 < den) (hodd : m % 2 = 1)
    (h : (2 * m + 1) * den ≤ 2 * num) : m < divNearest num den := by
  have hsplit := Nat.div_add_mod num den
  have hbound : 2 * (den * m) + den ≤ 2 * num := by
    rwa [show 2 * (den * m) + den = (2 * m + 1) * den by ring]
  have hle : m ≤ num / den := (Nat.le_div_iff_mul_le hden).2 (by rw [Nat.mul_comm]; omega)
  unfold divNearest
  rcases Nat.lt_or_eq_of_le hle with hlt | heq
  · split <;> omega
  · -- The quotient is `m`, and the remainder is a half at least
    rw [← heq] at hsplit
    split
    · next hlt => exact absurd (compare_lt_iff_lt.1 hlt) (by omega)
    · omega
    · omega

/-! ## The limit -/

/-- The middle between the largest finite number and `2 ^ 1024`. -/
def integerLimit : Nat :=
  2 ^ 1024 - 2 ^ 970

theorem integerLimit_eq : integerLimit = (2 ^ 54 - 1) * 2 ^ 970 := by
  unfold integerLimit
  rw [show 1024 = 54 + 970 from rfl, pow_add, Nat.sub_one_mul]

theorem floorLog2_one {n : Nat} (hn : n ≠ 0) : floorLog2 n 1 = n.log2 := by
  have hlog : Nat.log2 1 = 0 := rfl
  unfold floorLog2
  rw [hlog]
  simp only [Nat.cast_zero, sub_zero, Int.toNat_natCast, Int.toNat_neg_natCast, Nat.pow_eq,
    pow_zero, one_mul, mul_one]
  exact if_pos (Nat.log2_self_le hn)

/-- Rounding ends at a finite number unless the exponent is too large. A mantissa that is rounded up
to `2 ^ 53` counts for one more. -/
theorem isFinite_ofRatio_iff (negative : Bool) {num den m : Nat} {e : Int} (hnum : num ≠ 0)
    (hexponent : max (floorLog2 num den - 52) (-1074) = e)
    (hmantissa : divNearest (num * Nat.pow 2 (-e).toNat) (den * Nat.pow 2 e.toNat) = m)
    (hlow : 2 ^ 52 ≤ m) (hhigh : m ≤ 2 ^ 53) :
    (ofRatio negative num den).isFinite ↔ e ≤ 970 ∨ e = 971 ∧ m < 2 ^ 53 := by
  have hcanonical : Canonical (if m = Nat.pow 2 53 then (Nat.pow 2 52, e + 1) else (m, e)).1
      (if m = Nat.pow 2 53 then (Nat.pow 2 52, e + 1) else (m, e)).2 ↔
        e ≤ 970 ∨ e = 971 ∧ m < 2 ^ 53 := by
    unfold Canonical
    simp only [Nat.pow_eq]
    split
    · simp only [Nat.reducePow, Nat.reduceLT, true_and, le_refl, true_or, and_true]
      omega
    · simp only [hlow, true_or, and_true]
      omega
  rw [← hcanonical]
  unfold ofRatio
  rw [if_neg hnum, hexponent]
  simp only [hmantissa]
  split_ifs <;> simp [isFinite, *]

theorem divNearest_log2_bounds {n : Nat} (hn : n ≠ 0) {e : Int} (he : (n.log2 : Int) - 52 = e) :
    2 ^ 52 ≤ divNearest (n * Nat.pow 2 (-e).toNat) (1 * Nat.pow 2 e.toNat) ∧
      divNearest (n * Nat.pow 2 (-e).toNat) (1 * Nat.pow 2 e.toNat) ≤ 2 ^ 53 := by
  have hlow := Nat.log2_self_le hn
  have hhigh := Nat.lt_log2_self (n := n)
  have hsum : n.log2 + (-e).toNat = 52 + e.toNat := by omega
  simp only [Nat.pow_eq, one_mul]
  constructor
  · apply le_divNearest (by positivity)
    calc 2 ^ 52 * 2 ^ e.toNat
      _ = 2 ^ n.log2 * 2 ^ (-e).toNat := by rw [← pow_add, ← pow_add, hsum]
      _ ≤ n * 2 ^ (-e).toNat := by gcongr
  · apply divNearest_le
    calc 2 * (n * 2 ^ (-e).toNat)
      _ ≤ 2 * (2 ^ (n.log2 + 1) * 2 ^ (-e).toNat) := by gcongr
      _ = 2 * (2 ^ 53 * 2 ^ e.toNat) := by
        rw [← pow_add, ← pow_add, Nat.add_right_comm, hsum, Nat.add_right_comm]
      _ < (2 * 2 ^ 53 + 1) * 2 ^ e.toNat := by
        rw [Nat.add_mul, Nat.mul_assoc, one_mul]
        exact Nat.lt_add_of_pos_right (by positivity)

/-- The middle below `2 ^ 53` is rounded up, to the even side. -/
theorem divNearest_lt_iff (n k : Nat) :
    divNearest (n * Nat.pow 2 0) (1 * Nat.pow 2 (k + 1)) < 2 ^ 53 ↔ n < (2 ^ 54 - 1) * 2 ^ k := by
  have hpos : 0 < 2 ^ k := by positivity
  rw [Nat.pow_eq, Nat.pow_eq, pow_zero, mul_one, one_mul, pow_succ]
  generalize 2 ^ k = half at hpos ⊢
  constructor
  · intro hlt
    by_contra hge
    have hup : 2 ^ 53 - 1 < divNearest n (half * 2) :=
      lt_divNearest (by omega) (by decide) (by omega)
    omega
  · intro hlt
    have hdown : divNearest n (half * 2) ≤ 2 ^ 53 - 1 := divNearest_le (by omega)
    omega

theorem isFinite_ofInt_iff {n : Int} : (ofInt n).isFinite ↔ n.natAbs < integerLimit := by
  rw [integerLimit_eq]
  have hhalf : 0 < 2 ^ 970 := by positivity
  rcases Nat.eq_zero_or_pos n.natAbs with hzero | hpos
  · have hofInt : ofInt n = zero (n < 0) := by
      unfold ofInt ofRatio
      rw [if_pos hzero]
    rw [hofInt, hzero]
    exact ⟨fun _ => Nat.mul_pos (by decide) hhalf, fun _ => rfl⟩
  · unfold ofInt
    generalize n.natAbs = k at hpos ⊢
    have hlow (i j : Nat) (h : i + j ≤ k.log2) : 2 ^ i * 2 ^ j ≤ k := by
      rw [← pow_add]
      exact (Nat.le_log2 hpos.ne').1 h
    have hhigh (i j : Nat) (h : k.log2 < i + j) : k < 2 ^ i * 2 ^ j := by
      rw [← pow_add]
      exact (Nat.log2_lt hpos.ne').1 h
    have hexponent : max (floorLog2 k 1 - 52) (-1074) = (k.log2 : Int) - 52 := by
      rw [floorLog2_one hpos.ne']
      omega
    obtain ⟨hmantissa, hmantissa'⟩ := divNearest_log2_bounds hpos.ne' rfl
    rw [isFinite_ofRatio_iff _ hpos.ne' hexponent rfl hmantissa hmantissa']
    rcases Nat.lt_trichotomy k.log2 1023 with hlog | hlog | hlog
    · have hsmall := hhigh 53 970 hlog
      generalize 2 ^ 970 = half at hsmall ⊢
      omega
    · have hden : ((k.log2 : Int) - 52).toNat = 970 + 1 := by omega
      have hnum : (-((k.log2 : Int) - 52)).toNat = 0 := by omega
      rw [hden, hnum, divNearest_lt_iff k 970]
      omega
    · have hlarge := hlow 54 970 hlog
      generalize 2 ^ 970 = half at hlarge ⊢
      omega

theorem ofRatio_ne_nan (negative : Bool) (num den : Nat) : ofRatio negative num den ≠ .nan := by
  unfold ofRatio zero
  dsimp only
  split_ifs <;> simp

theorem ofInt?_eq (n : Int) :
    ofInt? n = if n.natAbs < integerLimit then some (ofInt n) else none := by
  simp only [← isFinite_ofInt_iff]
  unfold ofInt?
  cases h : ofInt n with
  | nan => exact absurd h (ofRatio_ne_nan _ _ _)
  | infinite => rfl
  | finite => rfl

end TokenTape.Binary64
