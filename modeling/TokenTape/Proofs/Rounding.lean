import Mathlib
import TokenTape.Binary64.Basic

/-!
# Rounding a ratio

Rounding depends on the value of a ratio alone, and a value that is a number is its own rounding.
So the integers up to `2 ^ 53` are numbers, and counting by one is exact among them.
-/

namespace TokenTape.Binary64

/-! ## Dividing to the nearest -/

theorem divNearest_scale (num den : Nat) {c : Nat} (hc : 0 < c) :
    divNearest (num * c) (den * c) = divNearest num den := by
  unfold divNearest
  have hcompare :
      compare (2 * (num * c % (den * c))) (den * c) = compare (2 * (num % den)) den := by
    rw [Nat.mul_mod_mul_right, ← Nat.mul_assoc]
    rcases Nat.lt_trichotomy (2 * (num % den)) den with h | h | h
    · rw [compare_lt_iff_lt.2 h, compare_lt_iff_lt.2 (Nat.mul_lt_mul_of_pos_right h hc)]
    · simp [h]
    · rw [compare_gt_iff_gt.2 h, compare_gt_iff_gt.2 (Nat.mul_lt_mul_of_pos_right h hc)]
  rw [hcompare, Nat.mul_div_mul_right _ _ hc]

theorem divNearest_congr {num den num' den' : Nat} (hden : 0 < den) (hden' : 0 < den')
    (h : num * den' = num' * den) : divNearest num den = divNearest num' den' := by
  rw [← divNearest_scale num den hden', h, Nat.mul_comm den den', divNearest_scale num' den' hden]

theorem divNearest_exact (m : Nat) {den : Nat} (hden : 0 < den) :
    divNearest (m * den) den = m := by
  unfold divNearest
  rw [Nat.mul_mod_left, Nat.mul_div_cancel m hden, compare_lt_iff_lt.2 (by simpa using hden)]

theorem divNearest_zero {num den : Nat} (h : 2 * num < den) : divNearest num den = 0 := by
  unfold divNearest
  rw [Nat.mod_eq_of_lt (by omega), compare_lt_iff_lt.2 h, Nat.div_eq_of_lt (by omega)]

/-! ## Powers and logarithms

A power with an integer exponent is kept as two powers with natural ones, since only one of them is
more than one.
-/

theorem natCast_pow_toNat {b : Nat} (hb : 0 < b) (k : Int) :
    ((Nat.pow b k.toNat : Nat) : ℚ) = b ^ k * (Nat.pow b (-k).toNat : Nat) := by
  simp only [Nat.pow_eq, Nat.cast_pow, ← zpow_natCast]
  rw [← zpow_add₀ (Nat.cast_ne_zero.2 hb.ne')]
  congr 1
  omega

theorem scaled_eq (m : Nat) (e : Int) : scaled m e = m * 2 ^ e := by
  have hpos : ((Nat.pow 2 (-e).toNat : Nat) : ℚ) ≠ 0 := by simp
  unfold scaled
  rw [Rat.mkRat_eq_div, div_eq_iff (by exact_mod_cast hpos), Int.cast_natCast, Nat.cast_mul,
    natCast_pow_toNat (by norm_num), mul_assoc]
  norm_num

theorem pow_le_ratio_iff {b : Nat} (hb : 0 < b) {num den : Nat} (hden : 0 < den) (k : Int) :
    den * Nat.pow b k.toNat ≤ num * Nat.pow b (-k).toNat ↔ (b : ℚ) ^ k ≤ num / den := by
  have hpos : (0 : ℚ) < (Nat.pow b (-k).toNat : Nat) := by exact_mod_cast Nat.pow_pos hb
  rw [← Nat.cast_le (α := ℚ), Nat.cast_mul, Nat.cast_mul, natCast_pow_toNat hb, ← mul_assoc,
    mul_le_mul_iff_of_pos_right hpos, le_div_iff₀ (by exact_mod_cast hden), mul_comm]

theorem floorLog2_eq {num den : Nat} (hnum : 0 < num) (hden : 0 < den) :
    floorLog2 num den = Int.log 2 (num / den : ℚ) := by
  have hratio : (0 : ℚ) < num / den := by positivity
  -- The lengths of the two parts tell the logarithm up to one
  have hlow : (num.log2 : Int) - den.log2 - 1 ≤ Int.log 2 (num / den : ℚ) := by
    rw [← Int.zpow_le_iff_le_log (by norm_num) hratio, le_div_iff₀ (by positivity)]
    have hnum2 := Nat.log2_self_le hnum.ne'
    have hden2 := Nat.lt_log2_self (n := den)
    calc ((2 : Nat) : ℚ) ^ ((num.log2 : Int) - den.log2 - 1) * den
      _ ≤ (2 : ℚ) ^ ((num.log2 : Int) - den.log2 - 1) * 2 ^ ((den.log2 : Int) + 1) := by
        gcongr
        · norm_num
        · exact_mod_cast hden2.le
      _ = 2 ^ (num.log2 : Int) := by
        rw [← zpow_add₀ (by norm_num)]
        congr 1
        omega
      _ ≤ num := by exact_mod_cast hnum2
  have hhigh : Int.log 2 (num / den : ℚ) < (num.log2 : Int) - den.log2 + 1 := by
    rw [← Int.lt_zpow_iff_log_lt (by norm_num) hratio, div_lt_iff₀ (by positivity)]
    have hnum2 := Nat.lt_log2_self (n := num)
    have hden2 := Nat.log2_self_le hden.ne'
    calc (num : ℚ)
      _ < 2 ^ ((num.log2 : Int) + 1) := by exact_mod_cast hnum2
      _ = (2 : ℚ) ^ ((num.log2 : Int) - den.log2 + 1) * 2 ^ (den.log2 : Int) := by
        rw [← zpow_add₀ (by norm_num)]
        congr 1
        omega
      _ ≤ ((2 : Nat) : ℚ) ^ ((num.log2 : Int) - den.log2 + 1) * den := by
        gcongr
        · norm_num
        · exact_mod_cast hden2
  unfold floorLog2
  simp only [pow_le_ratio_iff (b := 2) (by norm_num) hden,
    Int.zpow_le_iff_le_log (b := 2) (by norm_num) hratio]
  split <;> omega

theorem log_scaled {m : Nat} (hm : 0 < m) (e : Int) :
    Int.log 2 ((m : ℚ) * 2 ^ e) = m.log2 + e := by
  have hpos : (0 : ℚ) < m * 2 ^ e := by positivity
  apply le_antisymm
  · rw [← Int.lt_add_one_iff, ← Int.lt_zpow_iff_log_lt (by norm_num) hpos]
    have h := Nat.lt_log2_self (n := m)
    calc (m : ℚ) * 2 ^ e
      _ < 2 ^ ((m.log2 : Int) + 1) * 2 ^ e := by
        gcongr
        exact_mod_cast h
      _ = ((2 : Nat) : ℚ) ^ ((m.log2 : Int) + e + 1) := by
        rw [Nat.cast_ofNat, ← zpow_add₀ (by norm_num)]
        congr 1
        omega
  · rw [← Int.zpow_le_iff_le_log (by norm_num) hpos]
    have h := Nat.log2_self_le hm.ne'
    calc ((2 : Nat) : ℚ) ^ ((m.log2 : Int) + e)
      _ = 2 ^ (m.log2 : Int) * 2 ^ e := by rw [Nat.cast_ofNat, ← zpow_add₀ (by norm_num)]
      _ ≤ m * 2 ^ e := by
        gcongr
        exact_mod_cast h

/-! ## Rounding -/

theorem ofRatio_congr (negative : Bool) {num den num' den' : Nat} (hden : 0 < den)
    (hden' : 0 < den') (h : num * den' = num' * den) :
    ofRatio negative num den = ofRatio negative num' den' := by
  unfold ofRatio
  by_cases hzero : num = 0
  · have hzero' : num' = 0 := by
      have : num' * den = 0 := by rw [← h, hzero, Nat.zero_mul]
      simpa [hden.ne'] using this
    rw [if_pos hzero, if_pos hzero']
  · have hzero' : num' ≠ 0 := by
      rintro rfl
      simp [hden'.ne', hzero] at h
    have hratio : (num / den : ℚ) = num' / den' := by
      rw [div_eq_div_iff (by positivity) (by positivity)]
      exact_mod_cast h
    have hexponent : floorLog2 num den = floorLog2 num' den' := by
      rw [floorLog2_eq (by omega) hden, floorLog2_eq (by omega) hden', hratio]
    rw [if_neg hzero, if_neg hzero', hexponent]
    generalize max (floorLog2 num' den' - 52) (-1074) = e
    have hpow (k : Nat) : 0 < Nat.pow 2 k := Nat.pow_pos (by norm_num)
    have hmantissa : divNearest (num * Nat.pow 2 (-e).toNat) (den * Nat.pow 2 e.toNat) =
        divNearest (num' * Nat.pow 2 (-e).toNat) (den' * Nat.pow 2 e.toNat) := by
      apply divNearest_congr (Nat.mul_pos hden (hpow _)) (Nat.mul_pos hden' (hpow _))
      calc num * Nat.pow 2 (-e).toNat * (den' * Nat.pow 2 e.toNat)
        _ = num * den' * (Nat.pow 2 (-e).toNat * Nat.pow 2 e.toNat) := by ring
        _ = num' * den * (Nat.pow 2 (-e).toNat * Nat.pow 2 e.toNat) := by rw [h]
        _ = num' * Nat.pow 2 (-e).toNat * (den * Nat.pow 2 e.toNat) := by ring
    simp only [hmantissa]

theorem Canonical.exponent_eq {m : Nat} {e : Int} (h : Canonical m e) (hm : 0 < m) :
    max ((m.log2 : Int) + e - 52) (-1074) = e := by
  obtain ⟨hlt, hlow, hhigh, hnormal⟩ := h
  have hlog : m.log2 < 53 := (Nat.log2_lt hm.ne').2 hlt
  rcases hnormal with hnormal | hnormal
  · have : 52 ≤ m.log2 := (Nat.le_log2 hm.ne').2 hnormal
    omega
  · omega

theorem ofRatio_eq_finite (negative : Bool) {num den m : Nat} {e : Int} (h : Canonical m e)
    (hnum : num ≠ 0) (hexponent : max (floorLog2 num den - 52) (-1074) = e)
    (hmantissa : divNearest (num * Nat.pow 2 (-e).toNat) (den * Nat.pow 2 e.toNat) = m) :
    ofRatio negative num den = .finite negative m e h := by
  unfold ofRatio
  rw [if_neg hnum, hexponent]
  simp only [hmantissa, if_neg (Nat.ne_of_lt h.1), dif_pos h]

theorem ofRatio_exact (negative : Bool) {num den m : Nat} {e : Int} (h : Canonical m e)
    (hden : 0 < den) (hratio : (num / den : ℚ) = m * 2 ^ e) :
    ofRatio negative num den = .finite negative m e h := by
  rcases Nat.eq_zero_or_pos m with rfl | hm
  · have hnum : num = 0 := by
      rw [Nat.cast_zero, zero_mul, div_eq_zero_iff] at hratio
      simpa [hden.ne'] using hratio
    have hexponent : e = -1074 := by
      rcases h.2.2.2 with hnormal | hnormal
      · simp at hnormal
      · exact hnormal
    subst hnum hexponent
    rfl
  · have hnum : num ≠ 0 := by
      rintro rfl
      have : (0 : ℚ) < m * 2 ^ e := by positivity
      simp [← hratio] at this
    have hexponent : max (floorLog2 num den - 52) (-1074) = e := by
      rw [floorLog2_eq (by omega) hden, hratio, log_scaled hm, h.exponent_eq hm]
    have hcross : num * Nat.pow 2 (-e).toNat = m * (den * Nat.pow 2 e.toNat) := by
      rw [div_eq_iff (by positivity)] at hratio
      rw [← Nat.cast_inj (R := ℚ), Nat.cast_mul, Nat.cast_mul, Nat.cast_mul, hratio,
        natCast_pow_toNat (by norm_num) e]
      push_cast
      ring
    have hpow : 0 < Nat.pow 2 e.toNat := Nat.pow_pos (by norm_num)
    apply ofRatio_eq_finite negative h hnum hexponent
    rw [hcross, divNearest_exact m (Nat.mul_pos hden hpow)]

theorem ofRatio_large (negative : Bool) {num den : Nat} (hden : 0 < den)
    (hlarge : (2 : ℚ) ^ (1024 : Int) ≤ num / den) :
    ofRatio negative num den = .infinite negative := by
  have hratio : (0 : ℚ) < num / den := lt_of_lt_of_le (by positivity) hlarge
  have hnum : 0 < num := by
    rcases Nat.eq_zero_or_pos num with rfl | h
    · simp at hratio
    · exact h
  have hlog : 1024 ≤ floorLog2 num den := by
    rw [floorLog2_eq hnum hden, ← Int.zpow_le_iff_le_log (by norm_num) hratio]
    exact hlarge
  unfold ofRatio
  rw [if_neg hnum.ne']
  dsimp only
  rw [dif_neg]
  intro hcanonical
  have hexponent := hcanonical.2.2.1
  split at hexponent <;> simp only at hexponent <;> omega

-- With a number in place of `k`, the powers below would be computed
theorem two_mul_lt_of_ratio_lt {num den : Nat} (hden : 0 < den) (k : Nat)
    (h : (num / den : ℚ) < 2 ^ (-(k + 1 : Nat) : Int)) : 2 * (num * Nat.pow 2 k) < den := by
  rw [div_lt_iff₀ (by positivity), zpow_neg, lt_inv_mul_iff₀ (by positivity), zpow_natCast] at h
  have hlt : 2 ^ (k + 1) * num < den := by exact_mod_cast h
  calc 2 * (num * Nat.pow 2 k)
    _ = 2 ^ (k + 1) * num := by rw [Nat.pow_eq]; ring
    _ < den := hlt

theorem ofRatio_small (negative : Bool) {num den : Nat} (hden : 0 < den)
    (hsmall : (num / den : ℚ) < 2 ^ (-(1074 + 1 : Nat) : Int)) :
    ofRatio negative num den = zero negative := by
  rcases Nat.eq_zero_or_pos num with rfl | hnum
  · rfl
  · have hratio : (0 : ℚ) < num / den := by positivity
    have hlog : floorLog2 num den < -(1074 + 1 : Nat) := by
      rw [floorLog2_eq hnum hden, ← Int.lt_zpow_iff_log_lt (by norm_num) hratio, Nat.cast_ofNat]
      exact hsmall
    refine ofRatio_eq_finite negative (by decide) hnum.ne' (by omega) ?_
    have hlow : (- -1074 : Int).toNat = 1074 := rfl
    have hhigh : (-1074 : Int).toNat = 0 := rfl
    rw [hlow, hhigh, show Nat.pow 2 0 = 1 from rfl, Nat.mul_one]
    exact divNearest_zero (two_mul_lt_of_ratio_lt hden 1074 hsmall)

/-! ## Integers -/

def isFinite : Binary64 → Bool
  | .finite .. => true
  | _ => false

theorem toInt?_eq_some_iff {x : Binary64} {n : Int} :
    x.toInt? = some n ↔ x.isFinite ∧ x.toRat = n := by
  cases x with
  | nan => simp [toInt?, isFinite]
  | infinite => simp [toInt?, isFinite]
  | finite s m e h =>
    unfold toInt?
    dsimp only
    constructor
    · intro hsome
      split at hsome
      · next hden =>
        cases hsome
        exact ⟨rfl, ((Rat.den_eq_one_iff _).1 hden).symm⟩
      · cases hsome
    · rintro ⟨-, hvalue⟩
      rw [hvalue, Rat.den_intCast, if_pos rfl, Rat.num_intCast]

theorem exists_canonical {n : Nat} (h : n ≤ 2 ^ 53) :
    ∃ (m : Nat) (e : Int), Canonical m e ∧ (n : ℚ) = m * 2 ^ e := by
  rcases Nat.eq_zero_or_pos n with rfl | hn
  · exact ⟨0, -1074, by decide, by simp⟩
  have hlow := Nat.log2_self_le hn.ne'
  have hhigh := Nat.lt_log2_self (n := n)
  rcases Nat.lt_or_ge n (2 ^ 53) with hlt | hge
  · -- The mantissa is shifted until its highest bit is in place
    have hlog : n.log2 < 53 := (Nat.log2_lt hn.ne').2 hlt
    refine ⟨n * 2 ^ (52 - n.log2), -(52 - n.log2 : Nat), ⟨?_, by omega, by omega, .inl ?_⟩, ?_⟩
    · calc n * 2 ^ (52 - n.log2)
        _ < 2 ^ (n.log2 + 1) * 2 ^ (52 - n.log2) := by gcongr
        _ = 2 ^ 53 := by rw [← pow_add]; congr 1; omega
    · calc Nat.pow 2 52
        _ = 2 ^ n.log2 * 2 ^ (52 - n.log2) := by rw [← pow_add, Nat.pow_eq]; congr 1; omega
        _ ≤ n * 2 ^ (52 - n.log2) := by gcongr
    · rw [zpow_neg, zpow_natCast]
      push_cast
      field_simp
  · obtain rfl : n = 2 ^ 53 := by omega
    exact ⟨2 ^ 52, 1, by decide, by norm_num⟩

theorem ofInt_exact {n : Int} (h : n.natAbs ≤ 2 ^ 53) : (ofInt n).toInt? = some n := by
  obtain ⟨m, e, hcanonical, hvalue⟩ := exists_canonical h
  have hround : ofInt n = .finite (n < 0) m e hcanonical := by
    unfold ofInt
    exact ofRatio_exact _ hcanonical (by norm_num) (by rw [Nat.cast_one, div_one, hvalue])
  rw [toInt?_eq_some_iff, hround]
  refine ⟨rfl, ?_⟩
  by_cases hneg : n < 0
  · simp only [hneg, decide_true, toRat, scaled_eq, ← hvalue]
    rw [← Int.cast_natCast, ← Int.cast_neg]
    congr 1
    omega
  · simp only [hneg, decide_false, toRat, scaled_eq, ← hvalue]
    rw [← Int.cast_natCast]
    congr 1
    omega

theorem add_of_finite {x y : Binary64} (hx : x.isFinite) (hy : y.isFinite) :
    x + y = if x.toRat + y.toRat = 0 then zero (x.isNegative && y.isNegative)
      else ofRat (x.toRat + y.toRat) := by
  cases x with
  | nan => cases hx
  | infinite => cases hx
  | finite =>
    cases y with
    | nan => cases hy
    | infinite => cases hy
    | finite => rfl

theorem ofRat_intCast (n : Int) : ofRat n = ofInt n := by
  unfold ofRat ofInt
  rw [Rat.num_intCast, Rat.den_intCast]
  congr 1
  simp

theorem add_one_of_toInt? {x : Binary64} {n : Int} (hx : x.toInt? = some n) :
    x + 1 = ofInt (n + 1) := by
  have hone : (1 : Binary64).toInt? = some 1 := ofInt_exact (by norm_num)
  have hpositive : (1 : Binary64).isNegative = false := by decide +kernel
  obtain ⟨hfinite, hvalue⟩ := toInt?_eq_some_iff.1 hx
  obtain ⟨hfinite1, hvalue1⟩ := toInt?_eq_some_iff.1 hone
  have hsum : x.toRat + (1 : Binary64).toRat = ((n + 1 : Int) : ℚ) := by
    rw [hvalue, hvalue1]
    norm_num
  rw [add_of_finite hfinite hfinite1, hsum, hpositive, Bool.and_false]
  split
  · next hzero =>
    obtain hzero : n + 1 = 0 := by exact_mod_cast hzero
    rw [hzero]
    rfl
  · exact ofRat_intCast _

theorem le_iff_toRat {x y : Binary64} (hx : x.isFinite) (hy : y.isFinite) :
    x ≤ y ↔ x.toRat ≤ y.toRat := by
  show x.le y = true ↔ _
  cases x with
  | nan => cases hx
  | infinite => cases hx
  | finite =>
    cases y with
    | nan => cases hy
    | infinite => cases hy
    | finite => exact decide_eq_true_iff

theorem le_iff_of_toInt? {x y : Binary64} {m n : Int} (hx : x.toInt? = some m)
    (hy : y.toInt? = some n) : x ≤ y ↔ m ≤ n := by
  obtain ⟨hfinite, hvalue⟩ := toInt?_eq_some_iff.1 hx
  obtain ⟨hfinite', hvalue'⟩ := toInt?_eq_some_iff.1 hy
  rw [le_iff_toRat hfinite hfinite', hvalue, hvalue', Int.cast_le]

theorem same_zero_iff {x : Binary64} : x.same 0 = true ↔ x.toInt? = some 0 := by
  have hzero : (0 : Binary64).toInt? = some 0 := ofInt_exact (by norm_num)
  obtain ⟨hfinite, hvalue⟩ := toInt?_eq_some_iff.1 hzero
  rw [toInt?_eq_some_iff, same, Bool.and_eq_true, decide_eq_true_iff, decide_eq_true_iff]
  constructor
  · rintro ⟨hle, hge⟩
    have hx : x.isFinite := by
      cases x with
      | nan => cases hle
      | infinite negative =>
        cases negative with
        | false => cases hle
        | true => cases hge
      | finite => rfl
    rw [le_iff_toRat hx hfinite, hvalue] at hle
    rw [le_iff_toRat hfinite hx, hvalue] at hge
    exact ⟨hx, le_antisymm hle hge⟩
  · rintro ⟨hx, hx0⟩
    rw [le_iff_toRat hx hfinite, le_iff_toRat hfinite hx, hx0, hvalue]
    exact ⟨le_rfl, le_rfl⟩

end TokenTape.Binary64
