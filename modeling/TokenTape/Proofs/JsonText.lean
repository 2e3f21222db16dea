import Mathlib
import TokenTape.Json.Reader
import TokenTape.Json.Writer
import TokenTape.Proofs.Decimals

/-!
# JSON text

The reader gives back what the writer has written, whatever stands behind it.
-/

namespace TokenTape.Json

open Decimal

/-! ## Strings -/

theorem hex_control {n : Nat} (hn : n < 0x20) :
    ∃ a b c d, Text.hex 4 n = [a, b, c, d] ∧ codeUnit? a b c d = some n := by
  interval_cases n
  all_goals exact ⟨_, _, _, _, rfl, rfl⟩

theorem escapeChar_cases (c : Char) :
    (∃ e, e ≠ 'u' ∧ escaped? e = some c ∧ escapeChar c = ['\\', e]) ∨
      (c.toNat < 0x20 ∧ ∃ p q r s, codeUnit? p q r s = some c.toNat ∧
        escapeChar c = ['\\', 'u', p, q, r, s]) ∨
      (c ≠ '"' ∧ c ≠ '\\' ∧ ¬c.toNat < 0x20 ∧ escapeChar c = [c]) := by
  by_cases hletter : c ∈ ['"', '\\', '\n', '\r', '\t', '\x08', '\x0c']
  · left
    fin_cases hletter
    all_goals exact ⟨_, by decide, rfl, rfl⟩
  · right
    simp only [List.mem_cons, List.not_mem_nil, or_false, not_or] at hletter
    obtain ⟨hquote, hslash, hline, hreturn, htab, hback, hform⟩ := hletter
    by_cases hcode : c.toNat < 0x20
    · obtain ⟨p, q, r, s, hhex, hunit⟩ := hex_control hcode
      refine .inl ⟨hcode, p, q, r, s, hunit, ?_⟩
      simp only [escapeChar, hquote, hslash, hline, hreturn, htab, hback, hform, hcode, hhex,
        if_false, if_true]
    · refine .inr ⟨hquote, hslash, hcode, ?_⟩
      simp only [escapeChar, hquote, hslash, hline, hreturn, htab, hback, hform, hcode, if_false]

theorem readCode_control {a b c d : Char} {n : Nat} (hunit : codeUnit? a b c d = some n)
    (hn : n < 0x20) (offset : Nat) {rest : List Char} (hrest : rest ≠ []) :
    readCode offset a b c d rest = .ok (.char (Char.ofNat n), 0) := by
  have hhigh : isHighSurrogate n = false := by simp [isHighSurrogate]; omega
  have hlow : isLowSurrogate n = false := by simp [isLowSurrogate]; omega
  simp [readCode, hunit, hrest, pointOfUnit, hhigh, hlow]

theorem readString_escapeChar (c : Char) (opening : Nat) (read : List CodePoint) (offset : Nat)
    {rest : List Char} (hrest : rest ≠ []) :
    ∃ offset', readString opening read offset (escapeChar c ++ rest) =
      readString opening (.char c :: read) offset' rest := by
  obtain ⟨e, hu, he, hc⟩ | ⟨hcode, p, q, r, s, hunit, hc⟩ | ⟨hquote, hslash, hcode, hc⟩ :=
    escapeChar_cases c <;> rw [hc]
  · refine ⟨offset + 2, ?_⟩
    show readString _ _ _ ('\\' :: e :: rest) = _
    rw [readString]
    · rw [he]
    · exact fun _ _ _ _ _ h _ => hu h
    · exact fun h => hu h
  · refine ⟨offset + 6, ?_⟩
    show readString _ _ _ ('\\' :: 'u' :: p :: q :: r :: s :: rest) = _
    rw [readString, readCode_control hunit hcode offset hrest, Char.ofNat_toNat]
    rfl
  · refine ⟨offset + 1, ?_⟩
    show readString _ _ _ (c :: rest) = _
    rw [readString]
    · rw [if_neg hcode]
    all_goals simp [hquote, hslash]

theorem readString_escaped (cs rest : List Char) (opening : Nat) (read : List CodePoint)
    (offset : Nat) :
    ∃ offset', readString opening read offset (cs.flatMap escapeChar ++ '"' :: rest) =
      .ok (⟨read.reverse ++ cs.map .char⟩, ⟨offset', rest⟩) := by
  induction cs generalizing read offset with
  | nil =>
    refine ⟨offset + 1, ?_⟩
    rw [List.flatMap_nil, List.nil_append, readString, List.map_nil, List.append_nil]
  | cons c cs ih =>
    have hmore : cs.flatMap escapeChar ++ '"' :: rest ≠ [] := by simp
    obtain ⟨next, hnext⟩ := readString_escapeChar c opening read offset hmore
    obtain ⟨offset', h⟩ := ih (.char c :: read) next
    refine ⟨offset', ?_⟩
    rw [List.flatMap_cons, List.append_assoc, hnext, h, List.reverse_cons, List.append_assoc,
      List.singleton_append, List.map_cons]

/-! ## Numbers -/

/-- No number goes on here. -/
def Ends (rest : List Char) : Prop :=
  ∀ c ∈ rest.head?, c.isDigit = false ∧ c ≠ '.' ∧ c ≠ 'e' ∧ c ≠ 'E'

theorem takeWhile_append_stop {α : Type} {p : α → Bool} {cs rest : List α} (h : ∀ c ∈ cs, p c)
    (hrest : ∀ c ∈ rest.head?, p c = false) : (cs ++ rest).takeWhile p = cs := by
  rw [List.takeWhile_append_of_pos h]
  cases rest with
  | nil => simp
  | cons c rest => rw [List.takeWhile_cons_of_neg (by simp [hrest c rfl]), List.append_nil]

theorem wholeDigits_append {whole rest : List Char} (h : Leading whole)
    (hrest : ∀ c ∈ rest.head?, c.isDigit = false) : wholeDigits (whole ++ rest) = whole := by
  unfold wholeDigits
  split
  · next heq =>
    symm
    apply h.zero
    rw [← List.head?_append_of_ne_nil _ h.ne_nil, heq, List.head?_cons]
  · exact takeWhile_append_stop h.digits hrest

theorem Cursor.skip_append (offset : Nat) (cs rest : List Char) :
    Cursor.skip ⟨offset, cs ++ rest⟩ cs.length = ⟨offset + cs.length, rest⟩ := by
  rw [Cursor.skip, List.drop_left]

theorem readNumber_leading (negative : Bool) {whole tail : List Char} (hwhole : Leading whole)
    (htail : ∀ c ∈ tail.head?, c.isDigit = false) (offset : Nat) :
    ∃ start, readNumber ⟨offset, (if negative then ['-'] else []) ++ (whole ++ tail)⟩ =
      finishNumber negative whole ⟨start, tail⟩ := by
  have hsign : whole.head? ≠ some '-' := by
    intro hhead
    have := hwhole.digits '-' (List.mem_of_head? hhead)
    exact absurd this (by decide)
  cases negative with
  | false =>
    refine ⟨offset + whole.length, ?_⟩
    simp [readNumber, hsign, wholeDigits_append hwhole htail, hwhole.ne_nil, Cursor.skip_append]
  | true =>
    refine ⟨offset + 1 + whole.length, ?_⟩
    simp [readNumber, Cursor.skip, wholeDigits_append hwhole htail, hwhole.ne_nil]

theorem Spelled.head {cs : List Char} {d : Decimal} (h : Spelled cs d) :
    ∃ c tail, cs = c :: tail ∧ c.isDigit := by
  cases h with
  | @positional whole part hwhole hne hpart =>
    obtain ⟨c, tail, rfl⟩ := List.exists_cons_of_ne_nil hwhole.ne_nil
    exact ⟨c, _, List.cons_append, hwhole.digits c List.mem_cons_self⟩
  | scientific minus hfirst hpart hne hexponent => exact ⟨_, _, rfl, hfirst⟩

theorem readScalar_digit (negative : Bool) {c : Char} (hc : c.isDigit) (offset : Nat)
    (rest : List Char) :
    readScalar ⟨offset, (if negative then ['-'] else []) ++ c :: rest⟩ =
      readNumber ⟨offset, (if negative then ['-'] else []) ++ c :: rest⟩ := by
  have hwords : words.find? (fun word =>
      word.1.toList.isPrefixOf ((if negative then ['-'] else []) ++ c :: rest)) = none := by
    have hne (letter : Char) (hletter : letter.isDigit = false) : letter ≠ c := by
      rintro rfl
      simp [hc] at hletter
    cases negative with
    | false => simp [words, hne]
    | true => simp [words, hne]
  rw [readScalar, hwords]

theorem toList_write_finite (layout : Layout) (negative : Bool) {m : Nat} {e : Int}
    (h : Binary64.Canonical m e) :
    ((Binary64.finite negative m e h).write layout).toList =
      (if negative then ['-'] else []) ++
        layout.magnitude (Binary64.shortest (.finite negative m e h)) := by
  rw [Binary64.write, String.toList_append, String.toList_ofList]
  cases negative with
  | false => rfl
  | true => rfl

theorem Cursor.skipGap_append {gap rest : List Char} (hgap : ∀ c ∈ gap, isGap c)
    (hrest : ∀ c ∈ rest.head?, isGap c = false) (offset : Nat) :
    skipGap ⟨offset, gap ++ rest⟩ = ⟨offset + gap.length, rest⟩ := by
  rw [skipGap, takeWhile_append_stop hgap hrest, skip_append]

theorem Cursor.skipGap_cons {c : Char} (hc : isGap c = false) (offset : Nat) (rest : List Char) :
    skipGap ⟨offset, c :: rest⟩ = ⟨offset, c :: rest⟩ := by
  have hrest : ∀ first ∈ (c :: rest).head?, isGap first = false := by
    rintro _ ⟨⟩
    exact hc
  exact skipGap_append (List.forall_mem_nil _) hrest offset

theorem Cursor.passMark_cons (offset : Nat) (mark : Char) (rest : List Char) :
    passMark ⟨offset, mark :: rest⟩ = skipGap ⟨offset + 1, rest⟩ :=
  rfl

/-- A text of a value that is nested at most `depth` deep: it is read as that value wherever it
stands in a text, and it can stand at the beginning of a file. -/
structure Written (depth : Nat) (cs : List Char) (value : Json) : Prop where
  head : ∃ c tail, cs = c :: tail ∧ Cursor.isGap c = false ∧ c ≠ ']' ∧ c ≠ '\uFEFF'
  lines : '\r' ∉ cs
  read : ∀ fuel room offset rest, cs.length ≤ fuel → depth ≤ room → Ends rest →
    ∃ offset', readValue fuel room ⟨offset, cs ++ rest⟩ = .ok (value, ⟨offset', rest⟩)

variable {depth : Nat}

theorem Written.not_gap {cs : List Char} {value : Json} (h : Written depth cs value)
    (rest : List Char) : ∀ c ∈ (cs ++ rest).head?, Cursor.isGap c = false := by
  obtain ⟨c, tail, rfl, hgap, -⟩ := h.head
  rintro _ ⟨⟩
  exact hgap

/-- A name between quotes, as characters. -/
def quotedName (name : List Char) : List Char :=
  '"' :: (name.flatMap escapeChar ++ ['"'])

/-- A text of a field, its name and its value. -/
def FieldWritten (depth : Nat) (cs : List Char) (field : Text × Json) : Prop :=
  ∃ name text, field.1 = .ofList name ∧ Written depth text field.2 ∧
    cs = quotedName name ++ ':' :: ' ' :: text

theorem FieldWritten.read {cs : List Char} {field : Text × Json} (h : FieldWritten depth cs field)
    (fuel : Nat) (hfuel : cs.length ≤ fuel) {room : Nat} (hroom : depth ≤ room) {rest : List Char}
    (hrest : Ends rest) (offset : Nat) :
    ∃ place next, readName ⟨offset, cs ++ rest⟩ = .ok (field.1, place) ∧
      readValue fuel room place = .ok (field.2, ⟨next, rest⟩) := by
  obtain ⟨name, text, hfield, htext, rfl⟩ := h
  simp only [List.length_append, List.length_cons] at hfuel
  obtain ⟨colon, hname⟩ := readString_escaped name (':' :: ' ' :: (text ++ rest)) offset
    [] (offset + 1)
  have hcolon : Cursor.skipGap ⟨colon, ':' :: ' ' :: (text ++ rest)⟩ = _ :=
    Cursor.skipGap_cons rfl colon _
  have hgap : ∀ c ∈ [' '], Cursor.isGap c := by simp [Cursor.isGap]
  have hspace : Cursor.passMark ⟨colon, ':' :: ' ' :: (text ++ rest)⟩ = _ :=
    Cursor.skipGap_append hgap (htext.not_gap rest) (colon + 1)
  obtain ⟨next, hvalue⟩ := htext.read fuel room (colon + 1 + 1) rest (by omega) hroom hrest
  refine ⟨_, next, ?_, hvalue⟩
  have hcs : quotedName name ++ ':' :: ' ' :: text ++ rest =
      '"' :: (name.flatMap escapeChar ++ '"' :: ':' :: ' ' :: (text ++ rest)) := by
    simp [quotedName]
  rw [hcs]
  simp only [readName, hname, bind, Except.bind, hcolon, List.head?_cons, ne_eq, not_true, if_false]
  rw [hspace, hfield]
  rfl

theorem FieldWritten.not_gap {cs : List Char} {field : Text × Json}
    (h : FieldWritten depth cs field) (rest : List Char) :
    ∀ c ∈ (cs ++ rest).head?, Cursor.isGap c = false := by
  obtain ⟨name, text, -, -, rfl⟩ := h
  rintro _ ⟨⟩
  rfl

theorem Spelled.lines {cs : List Char} {d : Decimal} (h : Spelled cs d) : '\r' ∉ cs := by
  have hdigits {ds : List Char} (hds : ∀ c ∈ ds, c.isDigit) : '\r' ∉ ds :=
    fun hmem => absurd (hds _ hmem) (by decide)
  cases h with
  | positional hwhole hne hpart => simp [hdigits hwhole.digits, hdigits hpart]
  | @scientific first part exponent minus hfirst hpart hne hexponent =>
    have hhead : '\r' ≠ first := by
      rintro rfl
      exact absurd hfirst (by decide)
    have hpointed : '\r' ∉ pointed part := by
      unfold pointed
      split <;> simp [hdigits hpart]
    cases minus <;> simp [hhead, hpointed, hdigits hexponent]

theorem lines_escapeChar (c : Char) : '\r' ∉ escapeChar c := by
  obtain ⟨e, -, he, hc⟩ | ⟨-, p, q, r, s, hunit, hc⟩ | ⟨-, -, hcode, hc⟩ :=
    escapeChar_cases c <;> rw [hc]
  · have hreturn : '\r' ≠ e := by
      rintro rfl
      exact absurd he (by simp [escaped?])
    simp [hreturn]
  · have hdigit : hexDigit? '\r' = none := by decide
    have hreturn : '\r' ≠ p ∧ '\r' ≠ q ∧ '\r' ≠ r ∧ '\r' ≠ s := by
      refine ⟨?_, ?_, ?_, ?_⟩
      all_goals
        rintro rfl
        simp [codeUnit?, hdigit] at hunit
    simp [hreturn]
  · have hreturn : '\r' ≠ c := by
      rintro rfl
      exact hcode (by decide)
    simp [hreturn]

theorem lines_quotedName (name : List Char) : '\r' ∉ quotedName name := by
  simp [quotedName, lines_escapeChar]

theorem FieldWritten.lines {cs : List Char} {field : Text × Json}
    (h : FieldWritten depth cs field) : '\r' ∉ cs := by
  obtain ⟨name, text, -, htext, rfl⟩ := h
  simp [lines_quotedName, htext.lines]

/-- The values that can be told from their texts, nested at most `depth` deep. An integer is none of
them, since it may have more digits than are read, and a string with a surrogate has no bytes. -/
inductive Plain : Nat → Json → Prop
  | null {depth : Nat} : Plain depth .null
  | bool {depth : Nat} (value : Bool) : Plain depth (.bool value)
  | number {depth : Nat} (value : Binary64) : Plain depth (.number value)
  | string {depth : Nat} (value : String) : Plain depth (.string value)
  | array {depth : Nat} {items : List Json} (h : ∀ item ∈ items, Plain depth item) :
      Plain (depth + 1) (.array items)
  | object {depth : Nat} {fields : List (Text × Json)} (hnames : (fields.map Prod.fst).Nodup)
      (hplain : ∀ field ∈ fields, ∃ name : String, field.1 = name)
      (h : ∀ field ∈ fields, Plain depth field.2) : Plain (depth + 1) (.object fields)

end TokenTape.Json
