import TokenTape.Text.Basic

/-!
# Text files

A text file is UTF-8, which is decoded strictly. A bad sequence is told with its place: it ends
before the first byte that cannot belong to it. Each of the three ways to end a line is read as a
line feed.
-/

namespace TokenTape.Text

inductive Utf8Reason where
  | invalidStart
  | invalidContinuation
  | unexpectedEnd
deriving DecidableEq

def Utf8Reason.message : Utf8Reason → String
  | invalidStart => "invalid start byte"
  | invalidContinuation => "invalid continuation byte"
  | unexpectedEnd => "unexpected end of data"

/-- A bad sequence of `length` bytes at `offset` that begins with `first`. -/
structure Utf8Fault where
  reason : Utf8Reason
  offset : Nat
  length : Nat
  first : UInt8
deriving DecidableEq

def Utf8Fault.message (fault : Utf8Fault) : String :=
  let bytes :=
    if fault.length = 1 then
      "byte 0x" ++ String.ofList (hex 2 fault.first.toNat) ++ " in position " ++
        toString fault.offset
    else
      "bytes in position " ++ toString fault.offset ++ "-" ++
        toString (fault.offset + fault.length - 1)
  "'utf-8' codec can't decode " ++ bytes ++ ": " ++ fault.reason.message

/-- What a first byte says of its sequence: how many bytes follow it, the range of the next one, and
the bits that it gives to the character. -/
structure Lead where
  count : Nat
  low : Nat
  high : Nat
  bits : Nat

def lead? (b : Nat) : Option Lead :=
  if b < 0x80 then some ⟨0, 0x80, 0xBF, b⟩
  else if b < 0xC2 then none
  else if b < 0xE0 then some ⟨1, 0x80, 0xBF, b - 0xC0⟩
  -- The ranges leave out what has a shorter form, surrogates, and what is beyond U+10FFFF
  else if b < 0xF0 then
    some ⟨2, if b = 0xE0 then 0xA0 else 0x80, if b = 0xED then 0x9F else 0xBF, b - 0xE0⟩
  else if b < 0xF5 then
    some ⟨3, if b = 0xF0 then 0x90 else 0x80, if b = 0xF4 then 0x8F else 0xBF, b - 0xF0⟩
  else none

/-- The code point of a sequence and the bytes behind it, or what is wrong after how many of the
following bytes. -/
def following : (count low high bits : Nat) → List UInt8 →
    Except (Utf8Reason × Nat) (Nat × List UInt8)
  | 0, _, _, bits, rest => .ok (bits, rest)
  | _ + 1, _, _, _, [] => .error (.unexpectedEnd, 0)
  | count + 1, low, high, bits, b :: rest =>
    if low ≤ b.toNat ∧ b.toNat ≤ high then
      match following count 0x80 0xBF (bits * 64 + (b.toNat - 0x80)) rest with
      | .ok found => .ok found
      | .error (reason, n) => .error (reason, n + 1)
    else .error (.invalidContinuation, 0)

theorem length_following {count low high bits point : Nat} {bytes rest : List UInt8}
    (h : following count low high bits bytes = .ok (point, rest)) :
    rest.length ≤ bytes.length := by
  fun_induction following count low high bits bytes with
  | case1 => cases h; exact Nat.le_refl _
  | case2 => cases h
  | case3 _ _ _ _ b tail _ found hf ih =>
    cases h
    have := ih hf
    simp only [List.length_cons]; omega
  | case4 => cases h
  | case5 => cases h

/-- Decodes bytes from an offset on; `read` holds the characters before it, the last one first. -/
def decodeFrom (offset : Nat) (read : List Char) : List UInt8 → Except Utf8Fault (List Char)
  | [] => .ok read.reverse
  | b :: bytes =>
    match lead? b.toNat with
    | none => .error ⟨.invalidStart, offset, 1, b⟩
    | some lead =>
      match found : following lead.count lead.low lead.high lead.bits bytes with
      | .error (reason, n) => .error ⟨reason, offset, n + 1, b⟩
      | .ok (point, rest) =>
        have := length_following found
        decodeFrom (offset + lead.count + 1) (Char.ofNat point :: read) rest
termination_by bytes => bytes.length
decreasing_by simp only [List.length_cons]; omega

/-! ## Texts -/

def decode (bytes : List UInt8) : Except Utf8Fault String :=
  (decodeFrom 0 [] bytes).map String.ofList

/-- The bytes of a text. There are none where a surrogate stands. -/
def encode? (text : Text) : Option (List UInt8) :=
  text.toString?.map fun s => s.toUTF8.data.toList

/-! ## Lines -/

/-- A line ends with a line feed, with a carriage return, or with both in turn. -/
def unifyLineEnds : List Char → List Char
  | '\r' :: '\n' :: rest => '\n' :: unifyLineEnds rest
  | '\r' :: rest => '\n' :: unifyLineEnds rest
  | c :: rest => c :: unifyLineEnds rest
  | [] => []

end TokenTape.Text
