import Mathlib
import TokenTape.Binary64.Decimal
import TokenTape.Proofs.Rounding

/-!
# Decimals and the numbers they stand for

The number of a decimal depends on its value alone. The shortest decimal of a number stands for that
number.
-/

namespace TokenTape

namespace Decimal

def value (d : Decimal) : ℚ :=
  d.digits * 10 ^ d.exponent

theorem value_trim (d : Decimal) : d.trim.value = d.value := by
  fun_induction trim d with
  | case1 d h ih =>
    rw [ih]
    unfold value
    have hdigits : (d.digits : ℚ) = 10 * (d.digits / 10 : Nat) := by
      exact_mod_cast show d.digits = 10 * (d.digits / 10) by omega
    rw [hdigits, zpow_add₀ (by norm_num), zpow_one]
    ring
  | case2 d h => rfl

theorem value_eq_ratio (d : Decimal) :
    ((d.digits * Nat.pow 10 d.exponent.toNat : Nat) : ℚ) / (Nat.pow 10 (-d.exponent).toNat : Nat) =
      d.value := by
  have hpos : ((Nat.pow 10 (-d.exponent).toNat : Nat) : ℚ) ≠ 0 := by simp
  unfold value
  rw [div_eq_iff hpos, Nat.cast_mul, Binary64.natCast_pow_toNat (by norm_num), mul_assoc]
  norm_num

/-! ## Rows of digits -/

theorem ofDigits_append (a b : List Char) :
    ofDigits (a ++ b) = 10 ^ b.length * ofDigits a + ofDigits b := by
  have h (cs : List Char) : ofDigits cs = Nat.ofDigitChars 10 cs 0 :=
    Nat.ofDigitChars_eq_foldl.symm
  rw [h, h, h, Nat.ofDigitChars_append, Nat.ofDigitChars_eq_ofDigitChars_zero]

theorem ofDigits_zeros (n : Nat) (cs : List Char) :
    ofDigits (List.replicate n '0' ++ cs) = ofDigits cs := by
  induction n with
  | zero => rfl
  | succ n ih => exact ih

theorem ofDigits_toDigits (n : Nat) : ofDigits (Nat.toDigits 10 n) = n :=
  Nat.ofDigitChars_eq_foldl.symm.trans Nat.ofDigitChars_ten_toDigits

theorem isDigit_toDigits (n : Nat) : ∀ c ∈ Nat.toDigits 10 n, c.isDigit :=
  fun _ => Nat.isDigit_of_mem_toDigits (by norm_num) (by norm_num)

theorem isDigit_zeros (n : Nat) {cs : List Char} (h : ∀ c ∈ cs, c.isDigit) :
    ∀ c ∈ List.replicate n '0' ++ cs, c.isDigit := by
  intro c hc
  rcases List.mem_append.1 hc with hc | hc
  · rw [(List.mem_replicate.1 hc).2]
    rfl
  · exact h c hc

theorem head?_toDigits {n : Nat} (hn : n ≠ 0) : (Nat.toDigits 10 n).head? ≠ some '0' := by
  induction n using Nat.strong_induction_on with
  | _ n ih =>
    rw [Nat.toDigits_eq_if (by norm_num)]
    split
    · next hlt =>
      interval_cases n
      · exact absurd rfl hn
      all_goals decide
    · next hge =>
      rw [List.head?_append_of_ne_nil _ Nat.toDigits_ne_nil]
      exact ih (n / 10) (by omega) (by omega)

/-! ## Layouts -/

/-- Digits in front of a point: a zero alone, or some that do not begin with one. -/
structure Leading (cs : List Char) : Prop where
  ne_nil : cs ≠ []
  digits : ∀ c ∈ cs, c.isDigit
  zero : cs.head? = some '0' → cs = ['0']

/-- Digits behind a point, which is left out where there are none. -/
def pointed (part : List Char) : List Char :=
  if part = [] then [] else '.' :: part

/-- The texts that a layout writes, and the decimals that they spell. -/
inductive Spelled : List Char → Decimal → Prop
  | positional {whole part : List Char} (hwhole : Leading whole) (hne : part ≠ [])
      (hpart : ∀ c ∈ part, c.isDigit) :
      Spelled (whole ++ '.' :: part) (ofParts whole part 0)
  | scientific {first : Char} {part exponent : List Char} (negative : Bool)
      (hfirst : first.isDigit) (hpart : ∀ c ∈ part, c.isDigit) (hne : exponent ≠ [])
      (hexponent : ∀ c ∈ exponent, c.isDigit) :
      Spelled (first :: (pointed part ++ 'e' :: (if negative then '-' else '+') :: exponent))
        (ofParts [first] part (if negative then -ofDigits exponent else ofDigits exponent))

theorem spelled_below {ds : List Char} (hne : ds ≠ []) (hds : ∀ c ∈ ds, c.isDigit) (n : Nat) :
    Spelled ('0' :: '.' :: (List.replicate n '0' ++ ds))
      ⟨ofDigits ds, -((n + ds.length : Nat) : Int)⟩ := by
  have hwhole : Leading ['0'] := ⟨by simp, by simp, fun _ => rfl⟩
  have hpart : List.replicate n '0' ++ ds ≠ [] := by simp [hne]
  have h := Spelled.positional hwhole hpart (isDigit_zeros n hds)
  have hdigits : ofDigits (['0'] ++ (List.replicate n '0' ++ ds)) = ofDigits ds :=
    ofDigits_zeros (n + 1) ds
  unfold ofParts at h
  rw [hdigits, List.length_append, List.length_replicate, Int.zero_sub] at h
  exact h

theorem spelled_above {ds : List Char} (hne : ds ≠ []) (hds : ∀ c ∈ ds, c.isDigit) (n : Nat)
    (hzero : ds.head? = some '0' → ds = ['0'] ∧ n = 0) :
    Spelled (ds ++ List.replicate n '0' ++ ['.', '0']) ⟨10 * (10 ^ n * ofDigits ds), -1⟩ := by
  have hdigits : ∀ c ∈ ds ++ List.replicate n '0', c.isDigit := by
    intro c hc
    rcases List.mem_append.1 hc with hc | hc
    · exact hds c hc
    · rw [(List.mem_replicate.1 hc).2]
      rfl
  have hwhole : Leading (ds ++ List.replicate n '0') := by
    refine ⟨by simp [hne], hdigits, ?_⟩
    rw [List.head?_append_of_ne_nil _ hne]
    intro hhead
    obtain ⟨rfl, rfl⟩ := hzero hhead
    rfl
  have hpart : ∀ c ∈ ['0'], c.isDigit := by simp
  have h := Spelled.positional hwhole (by simp) hpart
  have hn : ofDigits (List.replicate n '0') = 0 := by
    rw [← List.append_nil (List.replicate n '0'), ofDigits_zeros]
    rfl
  unfold ofParts at h
  rw [ofDigits_append, ofDigits_append, hn, List.length_replicate] at h
  exact h

theorem spelled_positional {ds : List Char} (hne : ds ≠ []) (hds : ∀ c ∈ ds, c.isDigit)
    {exponent : Int} (hzero : ds.head? = some '0' → ds = ['0'] ∧ exponent = 0) :
    ∃ d', Spelled (positional ds (exponent + ds.length - 1)) d' ∧
      d'.value = value ⟨ofDigits ds, exponent⟩ := by
  have hlength : 0 < ds.length := List.length_pos_iff.2 hne
  unfold positional
  split
  · refine ⟨_, spelled_below hne hds _, ?_⟩
    congr 2
    omega
  · dsimp only
    generalize htop : (exponent + ds.length - 1).toNat + 1 = n
    by_cases hshort : ds.length ≤ n
    · rw [List.take_of_length_le hshort, List.drop_of_length_le hshort]
      refine ⟨_, spelled_above hne hds (n - ds.length) fun hhead => ?_, ?_⟩
      · obtain ⟨hds, hexponent⟩ := hzero hhead
        exact ⟨hds, by omega⟩
      · unfold value
        rw [show exponent = ((n - ds.length : Nat) : Int) by omega, zpow_natCast]
        push_cast
        rw [zpow_neg_one]
        ring
    · have hdrop : ds.drop n ≠ [] := by
        rw [ne_eq, List.drop_eq_nil_iff]
        exact hshort
      have hwhole : Leading (ds.take n) := by
        refine ⟨?_, fun c hc => hds c (List.mem_of_mem_take hc), ?_⟩
        · rw [ne_eq, List.take_eq_nil_iff, not_or]
          exact ⟨by omega, hne⟩
        · rw [List.head?_take, if_neg (by omega)]
          intro hhead
          rw [(hzero hhead).1, List.length_singleton] at hshort
          omega
      have hzeros : n - (ds.take n).length = 0 := by
        rw [List.length_take]
        omega
      rw [hzeros, List.replicate_zero, List.append_nil, if_neg (by simpa using hdrop)]
      refine ⟨_, .positional hwhole hdrop fun c hc => hds c (List.mem_of_mem_drop hc), ?_⟩
      unfold ofParts
      rw [List.take_append_drop, List.length_drop]
      congr 2
      omega

theorem spelled_scientific {ds : List Char} (hne : ds ≠ []) (hds : ∀ c ∈ ds, c.isDigit)
    (width : Nat) (exponent : Int) :
    ∃ d', Spelled (scientific width ds (exponent + ds.length - 1)) d' ∧
      d'.value = value ⟨ofDigits ds, exponent⟩ := by
  cases ds with
  | nil => exact absurd rfl hne
  | cons first part =>
    rw [List.forall_mem_cons] at hds
    unfold scientific
    have hlength : exponent + ((part.length + 1 : Nat) : Int) - 1 = exponent + part.length := by
      omega
    rw [List.length_cons, hlength]
    generalize htop : exponent + (part.length : Int) = top
    have hpad := isDigit_zeros (width - (Nat.toDigits 10 top.natAbs).length)
      (isDigit_toDigits top.natAbs)
    have hpadded : ofDigits (List.replicate (width - (Nat.toDigits 10 top.natAbs).length) '0' ++
        Nat.toDigits 10 top.natAbs) = top.natAbs := by
      rw [ofDigits_zeros, ofDigits_toDigits]
    have hexponent : (if top < 0 then -(top.natAbs : Int) else top.natAbs) = top := by
      split <;> omega
    have hshort : part.length + 1 ≤ 1 ↔ part = [] := by
      rw [← List.length_eq_zero_iff]
      omega
    have h := Spelled.scientific (top < 0) hds.1 hds.2 (by simp [Nat.toDigits_ne_nil]) hpad
    simp only [hpadded, decide_eq_true_eq, hexponent] at h
    simp only [hshort]
    refine ⟨_, h, ?_⟩
    unfold ofParts
    rw [List.singleton_append, ← htop, Int.add_sub_cancel]

theorem spelled_magnitude (layout : Layout) {d : Decimal} (hzero : d.digits = 0 → d.exponent = 0) :
    ∃ d', Spelled (layout.magnitude d) d' ∧ d'.value = d.value := by
  have hds := isDigit_toDigits d.digits
  have hhead : (Nat.toDigits 10 d.digits).head? = some '0' →
      Nat.toDigits 10 d.digits = ['0'] ∧ d.exponent = 0 := by
    intro h
    have hdigits : d.digits = 0 := by_contra fun hne => head?_toDigits hne h
    rw [hdigits]
    exact ⟨rfl, hzero hdigits⟩
  unfold Layout.magnitude
  dsimp only
  split
  · have h := spelled_positional Nat.toDigits_ne_nil hds hhead
    rwa [ofDigits_toDigits] at h
  · have h := spelled_scientific Nat.toDigits_ne_nil hds layout.exponentWidth d.exponent
    rwa [ofDigits_toDigits] at h

end Decimal

namespace Binary64

/-! ## Reading a decimal -/

-- The powers are compared as natural numbers: they are too long for the simplifier
theorem pow_le_pow_cast {a b m n : Nat} (h : Nat.pow a m ≤ Nat.pow b n) :
    (a : ℚ) ^ (m : Int) ≤ b ^ (n : Int) := by
  rw [zpow_natCast, zpow_natCast]
  exact_mod_cast h

theorem ofDecimal_eq (negative : Bool) (d : Decimal) :
    ofDecimal negative d =
      ofRatio negative (d.digits * Nat.pow 10 d.exponent.toNat)
        (Nat.pow 10 (-d.exponent).toNat) := by
  have hden : 0 < Nat.pow 10 (-d.exponent).toNat := Nat.pow_pos (by norm_num)
  unfold ofDecimal
  split
  · next hzero => rw [hzero, Nat.zero_mul]; rfl
  split
  · next hzero hlarge =>
    have hdigits : (1 : ℚ) ≤ d.digits := by exact_mod_cast Nat.one_le_iff_ne_zero.2 hzero
    rw [ofRatio_large negative hden]
    rw [d.value_eq_ratio]
    calc (2 : ℚ) ^ (1024 : Int)
      _ ≤ 10 ^ (309 : Int) := pow_le_pow_cast (a := 2) (b := 10) (by decide +kernel)
      _ ≤ 10 ^ d.exponent := zpow_le_zpow_right₀ (by norm_num) hlarge
      _ ≤ d.digits * 10 ^ d.exponent := le_mul_of_one_le_left (by positivity) hdigits
  split
  · next hsmall =>
    have hdigits : (d.digits : ℚ) < 2 ^ (d.digits.log2 + 1) := by
      exact_mod_cast Nat.lt_log2_self
    rw [ofRatio_small negative hden]
    rw [d.value_eq_ratio]
    calc (d.digits : ℚ) * 10 ^ d.exponent
      _ < 2 ^ (d.digits.log2 + 1) * 10 ^ d.exponent := by gcongr
      _ ≤ 10 ^ (d.digits.log2 + 1) * 10 ^ d.exponent := by gcongr; norm_num
      _ = 10 ^ (d.exponent + d.digits.log2 + 1) := by
        rw [← zpow_natCast, ← zpow_add₀ (by norm_num)]
        congr 1
        push_cast
        ring
      _ ≤ 10 ^ (-324 : Int) := zpow_le_zpow_right₀ (by norm_num) hsmall
      _ ≤ 2 ^ (-(1074 + 1 : Nat) : Int) := by
        rw [zpow_neg, zpow_neg]
        exact inv_anti₀ (by positivity) (pow_le_pow_cast (a := 2) (b := 10) (by decide +kernel))
  · rfl

theorem ofDecimal_congr (negative : Bool) {d d' : Decimal} (h : d.value = d'.value) :
    ofDecimal negative d = ofDecimal negative d' := by
  have hpos (k : Int) : 0 < Nat.pow 10 (-k).toNat := Nat.pow_pos (by norm_num)
  have hposQ (k : Int) : ((Nat.pow 10 (-k).toNat : Nat) : ℚ) ≠ 0 := by
    exact_mod_cast (hpos k).ne'
  rw [ofDecimal_eq, ofDecimal_eq]
  apply ofRatio_congr negative (hpos _) (hpos _)
  rw [← d.value_eq_ratio, ← d'.value_eq_ratio, div_eq_div_iff (hposQ _) (hposQ _)] at h
  exact_mod_cast h

theorem ofDecimal_exact (negative : Bool) {d : Decimal} {m : Nat} {e : Int} (h : Canonical m e)
    (hvalue : d.value = m * 2 ^ e) : ofDecimal negative d = .finite negative m e h := by
  rw [ofDecimal_eq]
  have hden : 0 < Nat.pow 10 (-d.exponent).toNat := Nat.pow_pos (by norm_num)
  exact ofRatio_exact negative h hden (d.value_eq_ratio.trans hvalue)

/-! ## The shortest decimal -/

theorem abs_toRat (negative : Bool) {m : Nat} {e : Int} (h : Canonical m e) :
    |(finite negative m e h).toRat| = m * 2 ^ e := by
  have hpos : (0 : ℚ) ≤ m * 2 ^ e := by positivity
  cases negative with
  | false => rw [toRat, scaled_eq, abs_of_nonneg hpos]
  | true => rw [toRat, scaled_eq, abs_neg, abs_of_nonneg hpos]

theorem exists_den_eq (negative : Bool) {m : Nat} {e : Int} (h : Canonical m e) :
    ∃ k, (finite negative m e h).toRat.den = 2 ^ k := by
  have hscaled : (scaled m e).den ∣ 2 ^ (-e).toNat := by
    unfold scaled
    rw [Rat.mkRat_eq_div]
    exact_mod_cast Rat.den_dvd _ ((Nat.pow 2 (-e).toNat : Nat) : Int)
  have hden : (finite negative m e h).toRat.den ∣ 2 ^ (-e).toNat := by
    cases negative with
    | false => exact hscaled
    | true => rw [toRat, Rat.neg_den]; exact hscaled
  obtain ⟨k, -, hk⟩ := (Nat.dvd_prime_pow Nat.prime_two).1 hden
  exact ⟨k, hk⟩

theorem value_exactDecimal (negative : Bool) {m : Nat} {e : Int} (h : Canonical m e) :
    (finite negative m e h).exactDecimal.value = m * 2 ^ e := by
  obtain ⟨k, hk⟩ := exists_den_eq negative h
  rw [← abs_toRat negative h]
  unfold exactDecimal Decimal.value
  generalize (finite negative m e h).toRat = q at hk
  simp only [hk, Nat.log2_two_pow]
  rw [Rat.abs_def, Rat.divInt_eq_div, hk, zpow_neg, zpow_natCast, Nat.pow_eq,
    show (10 : ℚ) = 5 * 2 by norm_num, mul_pow]
  push_cast [Nat.cast_natAbs]
  field_simp

theorem ofDecimal_shortest (negative : Bool) {m : Nat} {e : Int} (h : Canonical m e) :
    ofDecimal negative (shortest (.finite negative m e h)) = .finite negative m e h := by
  unfold shortest
  dsimp only
  split
  · next hzero =>
    apply ofDecimal_exact negative h
    rw [← abs_toRat negative h, hzero]
    simp [Decimal.value]
  · rw [ofDecimal_congr negative (Decimal.value_trim _)]
    cases hfound : (List.range' 1 17).findSome? fun count =>
        (neighbours (finite negative m e h).toRat.num.natAbs (finite negative m e h).toRat.den
          count).find? (finite negative m e h).readsBack with
    | none => exact ofDecimal_exact negative h (value_exactDecimal negative h)
    | some d =>
      obtain ⟨count, -, hcount⟩ := List.exists_of_findSome?_eq_some hfound
      have hreads : (finite negative m e h).readsBack d = true := List.find?_some hcount
      exact of_decide_eq_true hreads

theorem spelled_shortest (layout : Decimal.Layout) (negative : Bool) {m : Nat} {e : Int}
    (h : Canonical m e) :
    ∃ d, Decimal.Spelled (layout.magnitude (shortest (.finite negative m e h))) d ∧
      ofDecimal negative d = .finite negative m e h := by
  have hshortest := ofDecimal_shortest negative h
  have hzero : (shortest (.finite negative m e h)).digits = 0 →
      (shortest (.finite negative m e h)).exponent = 0 := by
    intro hdigits
    rw [ofDecimal, if_pos hdigits] at hshortest
    cases hshortest
    have hrat : (finite negative 0 (-1074) h).toRat = 0 := by
      rw [← abs_eq_zero, abs_toRat, Nat.cast_zero, zero_mul]
    unfold shortest
    rw [if_pos hrat]
  obtain ⟨d, hspelled, hvalue⟩ := Decimal.spelled_magnitude layout hzero
  exact ⟨d, hspelled, (ofDecimal_congr negative hvalue).trans hshortest⟩

end Binary64

end TokenTape
