import Mathlib
import TokenTape.Text.Utf8

/-!
# Text files

A text without surrogates can be written to a file. It comes back from there, if it has no carriage
returns.
-/

namespace TokenTape.Text

/-- There are no surrogates in the text. -/
def Plain (text : Text) : Prop :=
  ∃ s : String, text = s

theorem toNat_ofNat_byte {b : Nat} (hb : b < 256) : (UInt8.ofNat b).toNat = b :=
  UInt8.toNat_ofNat_of_lt' hb

theorem decodeFrom_cons {b count low high bits : Nat} (hb : b < 256) {bytes rest : List UInt8}
    {c : Char} (hlead : lead? b = some ⟨count, low, high, bits⟩)
    (hpoint : following count low high bits bytes = .ok (c.toNat, rest))
    (offset : Nat) (read : List Char) :
    ∃ offset', decodeFrom offset read (UInt8.ofNat b :: bytes) =
      decodeFrom offset' (c :: read) rest := by
  rw [decodeFrom, toNat_ofNat_byte hb, hlead]
  dsimp only
  split
  · next h =>
    rw [hpoint] at h
    cases h
  · next h =>
    rw [hpoint] at h
    cases h
    rw [Char.ofNat_toNat]
    exact ⟨_, rfl⟩

theorem following_cons {count low high bits b : Nat} (hb : b < 256) (hlow : low ≤ b)
    (hhigh : b ≤ high) {bytes : List UInt8} {found : Nat × List UInt8}
    (h : following count 0x80 0xBF (bits * 64 + (b - 0x80)) bytes = .ok found) :
    following (count + 1) low high bits (UInt8.ofNat b :: bytes) = .ok found := by
  rw [following, toNat_ofNat_byte hb, if_pos ⟨hlow, hhigh⟩, h]

theorem following_zero {low high bits point : Nat} (h : bits = point) (bytes : List UInt8) :
    following 0 low high bits bytes = .ok (point, bytes) := by
  rw [following, h]

theorem decodeFrom_utf8EncodeChar (c : Char) (bytes : List UInt8) (offset : Nat)
    (read : List Char) :
    ∃ offset', decodeFrom offset read (String.utf8EncodeChar c ++ bytes) =
      decodeFrom offset' (c :: read) bytes := by
  have hvalid : c.val.toNat < 0xD800 ∨ 0xDFFF < c.val.toNat ∧ c.val.toNat < 0x110000 := c.valid
  have hpoint : c.toNat = c.val.toNat := rfl
  unfold String.utf8EncodeChar
  generalize c.val.toNat = n at hvalid hpoint
  dsimp only
  -- One case for each length of a sequence
  split
  · have hlead : lead? n = some ⟨0, 0x80, 0xBF, n⟩ := by
      unfold lead?
      rw [if_pos (by omega)]
    exact decodeFrom_cons (by omega) hlead (following_zero hpoint.symm _) offset read
  split
  · have hlead : lead? (n / 64 % 32 + 192) = some ⟨1, 0x80, 0xBF, n / 64 % 32 + 192 - 0xC0⟩ := by
      unfold lead?
      rw [if_neg (by omega), if_neg (by omega), if_pos (by omega)]
    refine decodeFrom_cons (by omega) hlead ?_ offset read
    exact following_cons (by omega) (by omega) (by omega) (following_zero (by omega) _)
  split
  · have hlead : lead? (n / 4096 % 16 + 224) = some ⟨2,
        if n / 4096 % 16 + 224 = 0xE0 then 0xA0 else 0x80,
        if n / 4096 % 16 + 224 = 0xED then 0x9F else 0xBF, n / 4096 % 16 + 224 - 0xE0⟩ := by
      unfold lead?
      rw [if_neg (by omega), if_neg (by omega), if_neg (by omega), if_pos (by omega)]
    refine decodeFrom_cons (by omega) hlead ?_ offset read
    refine following_cons (by omega) (by split <;> omega) (by split <;> omega) ?_
    exact following_cons (by omega) (by omega) (by omega) (following_zero (by omega) _)
  · have hlead : lead? (n / 262144 % 8 + 240) = some ⟨3,
        if n / 262144 % 8 + 240 = 0xF0 then 0x90 else 0x80,
        if n / 262144 % 8 + 240 = 0xF4 then 0x8F else 0xBF, n / 262144 % 8 + 240 - 0xF0⟩ := by
      unfold lead?
      rw [if_neg (by omega), if_neg (by omega), if_neg (by omega), if_neg (by omega),
        if_pos (by omega)]
    refine decodeFrom_cons (by omega) hlead ?_ offset read
    refine following_cons (by omega) (by split <;> omega) (by split <;> omega) ?_
    refine following_cons (by omega) (by omega) (by omega) ?_
    exact following_cons (by omega) (by omega) (by omega) (following_zero (by omega) _)

/-! ## Whole texts -/

theorem decodeFrom_flatMap (cs : List Char) (offset : Nat) (read : List Char) :
    decodeFrom offset read (cs.flatMap String.utf8EncodeChar) = .ok (read.reverse ++ cs) := by
  induction cs generalizing offset read with
  | nil => rw [List.flatMap_nil, decodeFrom, List.append_nil]
  | cons c rest ih =>
    rw [List.flatMap_cons]
    obtain ⟨offset', h⟩ :=
      decodeFrom_utf8EncodeChar c (rest.flatMap String.utf8EncodeChar) offset read
    rw [h, ih, List.reverse_cons, List.append_assoc, List.singleton_append]

theorem decode_flatMap (cs : List Char) :
    decode (cs.flatMap String.utf8EncodeChar) = .ok (String.ofList cs) := by
  unfold decode
  rw [decodeFrom_flatMap]
  rfl

theorem unifyLineEnds_of_not_mem {cs : List Char} (h : '\r' ∉ cs) : unifyLineEnds cs = cs := by
  induction cs with
  | nil => rfl
  | cons c rest ih =>
    rw [List.mem_cons, not_or] at h
    rw [unifyLineEnds, ih h.2]
    · rintro _ rfl
      exact absurd rfl h.1
    · rintro rfl
      exact absurd rfl h.1

end TokenTape.Text
