import Mathlib
import TokenTape.CommandLine.Options
import TokenTape.Proofs.JsonText

/-!
# Displayed numbers

A displayed number can be read again, and what is read is the number. Only the sign of a zero is
lost. The whole numbers are those that are displayed as integers, however large they are.
-/

namespace TokenTape

/-! ## Reading decimals -/

namespace Decimal

theorem dropWhile_append_stop {α : Type} {p : α → Bool} {cs rest : List α} (h : ∀ c ∈ cs, p c)
    (hrest : ∀ c ∈ rest.head?, p c = false) : (cs ++ rest).dropWhile p = rest := by
  have hsplit := List.takeWhile_append_dropWhile (p := p) (l := cs ++ rest)
  rw [Json.takeWhile_append_stop h hrest] at hsplit
  exact List.append_cancel_left hsplit

theorem read?_parts {whole part tail : List Char} (hne : whole ≠ [])
    (hwhole : ∀ c ∈ whole, c.isDigit) (hpart : ∀ c ∈ part, c.isDigit)
    (htail : ∀ c ∈ tail.head?, c.isDigit = false ∧ c ≠ '.') :
    read? (whole ++ (pointed part ++ tail)) = (readExponent? tail).map (ofParts whole part) := by
  have hstop : ∀ c ∈ (pointed part ++ tail).head?, c.isDigit = false := by
    unfold pointed
    split
    · exact fun c hc => (htail c hc).1
    · simp
  have hdigits : ∀ c ∈ tail.head?, c.isDigit = false := fun c hc => (htail c hc).1
  unfold read?
  simp only [Json.takeWhile_append_stop hwhole hstop, dropWhile_append_stop hwhole hstop]
  by_cases hnone : part = []
  · subst hnone
    have hpointed : pointed [] ++ tail = tail := rfl
    rw [hpointed]
    split
    · exact absurd rfl (htail '.' rfl).2
    · simp [hne]
  · have hpointed : pointed part ++ tail = '.' :: (part ++ tail) := by simp [pointed, hnone]
    rw [hpointed]
    simp [Json.takeWhile_append_stop hpart hdigits, dropWhile_append_stop hpart hdigits, hne]

theorem read?_digits {ds : List Char} (hne : ds ≠ []) (hds : ∀ c ∈ ds, c.isDigit) :
    read? ds = some ⟨ofDigits ds, 0⟩ := by
  have htail : ∀ c ∈ ([] : List Char).head?, c.isDigit = false ∧ c ≠ '.' := by simp
  have h := read?_parts hne hds (List.forall_mem_nil _) htail
  simpa [pointed, readExponent?, ofParts] using h

theorem readExponent?_spelled (negative : Bool) {ds : List Char} (hne : ds ≠ [])
    (hds : ∀ c ∈ ds, c.isDigit) :
    readExponent? ('e' :: (if negative then '-' else '+') :: ds) =
      some (if negative then -(ofDigits ds : Int) else ofDigits ds) := by
  have hall : ds.all Char.isDigit = true := List.all_eq_true.2 hds
  cases negative with
  | false => simp [readExponent?, takeSign, hne, hall]
  | true => simp [readExponent?, takeSign, hne, hall]

theorem read?_spelled {cs : List Char} {d : Decimal} (h : Spelled cs d) : read? cs = some d := by
  cases h with
  | @positional whole part hwhole hne hpart =>
    have htail : ∀ c ∈ ([] : List Char).head?, c.isDigit = false ∧ c ≠ '.' := by simp
    have h := read?_parts hwhole.ne_nil hwhole.digits hpart htail
    simpa [pointed, hne, readExponent?] using h
  | @scientific first part exponent minus hfirst hpart hne hexponent =>
    have htail : ∀ c ∈ ('e' :: (if minus then '-' else '+') :: exponent).head?,
        c.isDigit = false ∧ c ≠ '.' := by
      rintro _ ⟨⟩
      decide
    have h := read?_parts (List.cons_ne_nil first []) (by simpa using hfirst) hpart htail
    rw [readExponent?_spelled minus hne hexponent] at h
    exact h

theorem Spelled.chars {cs : List Char} {d : Decimal} (h : Spelled cs d) :
    ∀ c ∈ cs, c.isDigit ∨ c ∈ ['.', 'e', '-', '+'] := by
  cases h with
  | @positional whole part hwhole hne hpart =>
    intro c hc
    simp only [List.mem_append, List.mem_cons] at hc
    rcases hc with hc | rfl | hc
    · exact .inl (hwhole.digits c hc)
    · exact .inr (by simp)
    · exact .inl (hpart c hc)
  | @scientific first part exponent minus hfirst hpart hne hexponent =>
    intro c hc
    simp only [List.mem_cons, List.mem_append] at hc
    rcases hc with rfl | hc | rfl | rfl | hc
    · exact .inl hfirst
    · unfold pointed at hc
      split at hc
      · simp at hc
      · rcases List.mem_cons.1 hc with rfl | hc
        · exact .inr (by simp)
        · exact .inl (hpart c hc)
    · exact .inr (by simp)
    · exact .inr (by cases minus <;> simp)
    · exact .inl (hexponent c hc)

theorem Spelled.mark {cs : List Char} {d : Decimal} (h : Spelled cs d) :
    '.' ∈ cs ∨ 'e' ∈ cs := by
  cases h with
  | positional => exact .inl (by simp)
  | scientific => exact .inr (by simp)

end Decimal

/-! ## Reading texts -/

namespace Binary64

/-- A character that reading a number takes as it is. -/
def IsPlain (c : Char) : Prop :=
  plainChar? c = some c ∧ Text.isBlank c = false ∧ c ≠ '_'

theorem isPlain_of_toNat {c : Char} (hlow : 32 < c.toNat) (hhigh : c.toNat < 127)
    (hjoin : c ≠ '_') : IsPlain c := by
  refine ⟨if_pos (by omega), ?_, hjoin⟩
  simp only [Text.isBlank, Text.blankRanges, List.any_cons, List.any_nil, Bool.or_false,
    Bool.or_eq_false_iff, Bool.and_eq_false_iff, decide_eq_false_iff_not]
  omega

theorem isPlain_of_isDigit {c : Char} (h : c.isDigit) : IsPlain c := by
  have hrange : 48 ≤ c.toNat ∧ c.toNat ≤ 57 := Char.isDigit_iff_toNat.1 h
  refine isPlain_of_toNat (by omega) (by omega) ?_
  rintro rfl
  simp at h

theorem isPlain_of_mark {c : Char} (h : c ∈ ['.', 'e', '-', '+']) : IsPlain c := by
  simp only [List.mem_cons, List.not_mem_nil, or_false] at h
  rcases h with rfl | rfl | rfl | rfl <;> exact isPlain_of_toNat (by simp) (by simp) (by simp)

theorem mapM_plainChar? {cs : List Char} (h : ∀ c ∈ cs, IsPlain c) :
    cs.mapM plainChar? = some cs := by
  induction cs with
  | nil => rfl
  | cons c rest ih =>
    rw [List.forall_mem_cons] at h
    simp [List.mapM_cons, h.1.1, ih h.2]

theorem trimBlanks_plain {cs : List Char} (h : ∀ c ∈ cs, IsPlain c) : trimBlanks cs = cs := by
  have hdrop {cs : List Char} (h : ∀ c ∈ cs, IsPlain c) : cs.dropWhile Text.isBlank = cs := by
    cases cs with
    | nil => rfl
    | cons c rest => rw [List.dropWhile_cons_of_neg (by simp [(h c List.mem_cons_self).2.1])]
  unfold trimBlanks
  rw [hdrop h, hdrop (by simpa using h), List.reverse_reverse]

theorem joinDigits_plain {cs : List Char} (h : ∀ c ∈ cs, IsPlain c) (last : Char) :
    joinDigits last cs = some cs := by
  induction cs generalizing last with
  | nil => rfl
  | cons c rest ih =>
    rw [List.forall_mem_cons] at h
    rw [joinDigits, if_neg h.1.2.2, ih h.2]
    rfl

theorem word_ne_of_isDigit {c : Char} (hc : c.isDigit) (rest : List Char) {word : String}
    (hword : ∀ c ∈ word.toList.head?, c.isDigit = false) :
    String.ofList ((c :: rest).map Char.toLower) ≠ word := by
  rintro rfl
  have hrange : 48 ≤ c.toNat ∧ c.toNat ≤ 57 := Char.isDigit_iff_toNat.1 hc
  have hlower : c.toLower = c := by
    unfold Char.toLower
    rw [dif_neg]
    rintro ⟨hupper, -⟩
    have : 65 ≤ c.toNat := hupper
    omega
  simp [hlower, hc] at hword

theorem read?_decimal {text : String} (negative : Bool) {c : Char} {cs : List Char} {d : Decimal}
    (htext : text.toList = (if negative then ['-'] else []) ++ c :: cs) (hc : c.isDigit)
    (hplain : ∀ other ∈ cs, IsPlain other) (hread : Decimal.read? (c :: cs) = some d) :
    read? text = some (ofDecimal negative d) := by
  have hall : ∀ other ∈ text.toList, IsPlain other := by
    rw [htext]
    intro other hother
    simp only [List.mem_append, List.mem_cons] at hother
    rcases hother with hother | rfl | hother
    · cases negative with
      | false => simp at hother
      | true =>
        rw [List.mem_singleton.1 hother]
        exact isPlain_of_mark (by simp)
    · exact isPlain_of_isDigit hc
    · exact hplain other hother
  have hsign : Decimal.takeSign text.toList = (negative, c :: cs) := by
    rw [htext]
    cases negative with
    | false =>
      unfold Decimal.takeSign
      split
      · next heq => cases heq; simp at hc
      · next heq => cases heq; simp at hc
      · rfl
    | true => rfl
  have hinf : String.ofList ((c :: cs).map Char.toLower) ≠ "inf" :=
    word_ne_of_isDigit hc cs (by simp)
  have hinfinity : String.ofList ((c :: cs).map Char.toLower) ≠ "infinity" :=
    word_ne_of_isDigit hc cs (by simp)
  have hnan : String.ofList ((c :: cs).map Char.toLower) ≠ "nan" :=
    word_ne_of_isDigit hc cs (by simp)
  unfold read?
  rw [mapM_plainChar? hall, Option.bind_eq_bind, Option.bind_some, trimBlanks_plain hall,
    joinDigits_plain hall, Option.bind_some, hsign]
  simp only [hinf, hinfinity, hnan, or_self, if_false, hread]
  rfl

theorem read?_literal (x : Binary64) : read? x.literal = some x := by
  cases x with
  | nan => decide +kernel
  | infinite negative =>
    cases negative with
    | false => decide +kernel
    | true => decide +kernel
  | finite negative m e h =>
    obtain ⟨d, hspelled, hd⟩ := spelled_shortest literalLayout negative h
    obtain ⟨c, cs, hcons, hc⟩ := Json.Spelled.head hspelled
    have htext := Json.toList_write_finite literalLayout negative h
    rw [hcons] at htext hspelled
    have hplain : ∀ other ∈ cs, IsPlain other := by
      intro other hother
      rcases hspelled.chars other (List.mem_cons_of_mem c hother) with hdigit | hmark
      · exact isPlain_of_isDigit hdigit
      · exact isPlain_of_mark hmark
    have hread := read?_decimal negative htext hc hplain (Decimal.read?_spelled hspelled)
    rw [hd] at hread
    exact hread

/-! ## Whole numbers -/

/-- A minus sign or none, and then digits only. -/
def IsWholeText (text : String) : Prop :=
  ∃ (negative : Bool) (ds : List Char), ds ≠ [] ∧ (∀ c ∈ ds, c.isDigit) ∧
    text.toList = (if negative then ['-'] else []) ++ ds

theorem IsWholeText.chars {text : String} (h : IsWholeText text) :
    ∀ c ∈ text.toList, c = '-' ∨ c.isDigit := by
  obtain ⟨negative, ds, -, hds, htext⟩ := h
  rw [htext]
  intro c hc
  rcases List.mem_append.1 hc with hc | hc
  · cases negative with
    | false => simp at hc
    | true => exact .inl (List.mem_singleton.1 hc)
  · exact .inr (hds c hc)

theorem toList_toString (n : Int) :
    (toString n).toList = (if decide (n < 0) then ['-'] else []) ++ Nat.toDigits 10 n.natAbs := by
  show n.repr.toList = _
  rw [Int.repr_eq_if]
  by_cases hneg : n < 0
  · rw [if_neg (by omega), if_pos (by simpa using hneg), String.toList_append, Nat.toList_repr,
      show (-n).toNat = n.natAbs by omega]
    rfl
  · rw [if_pos (by omega), if_neg (by simpa using hneg), Nat.toList_repr, List.nil_append,
      show n.toNat = n.natAbs by omega]

theorem isWholeText_toString (n : Int) : IsWholeText (toString n) :=
  ⟨_, _, Nat.toDigits_ne_nil, Decimal.isDigit_toDigits _, toList_toString n⟩

theorem read?_toString (n : Int) :
    read? (toString n) = some (ofDecimal (n < 0) ⟨n.natAbs, 0⟩) := by
  have hdigits := Decimal.isDigit_toDigits n.natAbs
  have hread := Decimal.read?_digits Nat.toDigits_ne_nil hdigits
  have htext := toList_toString n
  obtain ⟨c, cs, hcons⟩ : ∃ c cs, Nat.toDigits 10 n.natAbs = c :: cs :=
    List.exists_cons_of_ne_nil Nat.toDigits_ne_nil
  rw [Decimal.ofDigits_toDigits] at hread
  rw [hcons] at hdigits hread htext
  rw [List.forall_mem_cons] at hdigits
  have hplain : ∀ other ∈ cs, IsPlain other := fun other hother =>
    isPlain_of_isDigit (hdigits.2 other hother)
  exact read?_decimal _ htext hdigits.1 hplain hread

theorem ofDecimal_toInt? {x : Binary64} {n : Int} (h : x.toInt? = some n) :
    ofDecimal (n < 0) ⟨n.natAbs, 0⟩ = if x = zero true then zero false else x := by
  obtain ⟨hfinite, hvalue⟩ := toInt?_eq_some_iff.1 h
  cases x with
  | nan => cases hfinite
  | infinite => cases hfinite
  | finite negative m e hcanonical =>
    have habs : ((n.natAbs : Nat) : ℚ) = m * 2 ^ e := by
      rw [← abs_toRat negative hcanonical, hvalue, Nat.cast_natAbs, Int.cast_abs]
    have hexact : ofDecimal (n < 0) ⟨n.natAbs, 0⟩ = .finite (n < 0) m e hcanonical := by
      apply ofDecimal_exact
      rw [← habs]
      simp [Decimal.value]
    have hmagnitude : (0 : ℚ) ≤ m * 2 ^ e := by positivity
    rw [hexact]
    cases negative with
    | false =>
      rw [toRat, scaled_eq] at hvalue
      have hsign : ¬n < 0 := by
        rw [hvalue] at hmagnitude
        exact not_lt.2 (by exact_mod_cast hmagnitude)
      simp [hsign, zero]
    | true =>
      rw [toRat, scaled_eq] at hvalue
      rcases Nat.eq_zero_or_pos m with rfl | hm
      · -- The sign of a zero is lost
        obtain rfl : e = -1074 := by
          rcases hcanonical.2.2.2 with hnormal | hnormal
          · simp at hnormal
          · exact hnormal
        have hzero : n = 0 := by
          have : (n : ℚ) = 0 := by rw [← hvalue]; simp
          exact_mod_cast this
        simp [hzero, zero]
      · have hpositive : (0 : ℚ) < m * 2 ^ e := by positivity
        have hsign : n < 0 := by
          have : (n : ℚ) < 0 := by rw [← hvalue]; linarith
          exact_mod_cast this
        simp [hsign, zero, hm.ne']

theorem isWholeText_display_iff (x : Binary64) :
    IsWholeText x.display ↔ ∃ n, x.toInt? = some n := by
  unfold display
  cases hwhole : x.toInt? with
  | some n => exact ⟨fun _ => ⟨n, rfl⟩, fun _ => isWholeText_toString n⟩
  | none =>
    refine ⟨fun h => ?_, nofun⟩
    have hchars := h.chars
    cases x with
    | nan => exact absurd (hchars 'n' (by decide +kernel)) (by decide)
    | infinite negative =>
      cases negative with
      | false => exact absurd (hchars 'i' (by decide +kernel)) (by decide)
      | true => exact absurd (hchars 'i' (by decide +kernel)) (by decide)
    | finite negative m e hcanonical =>
      obtain ⟨d, hspelled, -⟩ := spelled_shortest literalLayout negative hcanonical
      have htext := Json.toList_write_finite literalLayout negative hcanonical
      have hmem {c : Char} (hc : c ∈ literalLayout.magnitude
          (shortest (.finite negative m e hcanonical))) :
          c ∈ (write literalLayout (.finite negative m e hcanonical)).toList := by
        rw [htext]
        exact List.mem_append_right _ hc
      rcases hspelled.mark with hdot | hexponent
      · exact absurd (hchars '.' (hmem hdot)) (by decide)
      · exact absurd (hchars 'e' (hmem hexponent)) (by decide)

theorem read?_display (x : Binary64) :
    read? x.display = some (if x = zero true then zero false else x) := by
  unfold display
  cases hwhole : x.toInt? with
  | some n =>
    rw [← ofDecimal_toInt? hwhole]
    exact read?_toString n
  | none =>
    have hsigned : x ≠ zero true := by
      rintro rfl
      exact absurd hwhole (by decide +kernel)
    rw [if_neg hsigned]
    exact read?_literal x

end Binary64

/-! ## Assignments -/

open CommandLine in
theorem CommandLine.readAssignment_append {name : Text} (hne : name ≠ "")
    (hname : .char '=' ∉ name.points) (value : Text) {x : Binary64}
    (hvalue : Json.numberOfText value = .ok x) :
    readAssignment (name ++ "=" ++ value) = .ok (name, x) := by
  have htext : (name ++ Text.ofString "=" ++ value).points =
      name.points ++ .char '=' :: value.points :=
    List.append_assoc name.points [.char '='] value.points
  have hother : ∀ c ∈ name.points, decide (c ≠ .char '=') = true := by
    intro c hc
    rw [decide_eq_true_iff]
    rintro rfl
    exact hname hc
  have hstop : ∀ c ∈ (CodePoint.char '=' :: value.points).head?,
      decide (c ≠ .char '=') = false := by simp
  have hnil : name.points ≠ [] := fun h => hne (congrArg Text.mk h)
  unfold readAssignment
  simp only [htext, Json.takeWhile_append_stop hother hstop,
    Decimal.dropWhile_append_stop hother hstop, if_neg hnil, hvalue]

/-- A displayed number is read as the number again, except that a negative zero comes back as zero.
It is a row of digits behind at most a minus sign exactly if the number is whole. Behind a name and
an equals sign it gives the name that number. -/
theorem display_readBack (x : Binary64) :
    let back := if x = .zero true then .zero false else x
    Json.toNumber (.string x.display) = .ok back ∧
    (Binary64.IsWholeText x.display ↔ x.isFinite ∧ ∃ n : Int, x.toRat = n) ∧
    ∀ name : Text, name ≠ "" → .char '=' ∉ name.points →
      CommandLine.readAssignment (name ++ "=" ++ x.display) = .ok (name, back) := by
  intro back
  have hback : Json.numberOfText x.display = .ok back := by
    unfold Json.numberOfText
    rw [Text.toString?_ofString, Option.bind_some, x.read?_display]
    rfl
  refine ⟨hback, ?_, fun name hne hname => ?_⟩
  · rw [x.isWholeText_display_iff]
    simp only [Binary64.toInt?_eq_some_iff, exists_and_left]
  · exact CommandLine.readAssignment_append hne hname x.display hback

theorem display_readBack_minusZero :
    (Binary64.zero true).display = "0" ∧
    CommandLine.readAssignment ("unit price" ++ "=" ++ (Binary64.zero true).display) =
      .ok ("unit price", .zero false) :=
  ⟨by decide +kernel, (display_readBack (.zero true)).2.2 "unit price" (by simp) (by decide)⟩

end TokenTape
