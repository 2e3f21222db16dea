import TokenTape.Text.Classes

/-!
# Texts

A text is a row of code points. Most of them are characters. A surrogate can stand in a text like a
character and is kept there, but it has no bytes, so that a stream may refuse the text.
-/

namespace TokenTape

/-- A surrogate, counted from U+D800. -/
abbrev Surrogate := Fin 0x800

def Surrogate.value (s : Surrogate) : Nat := 0xD800 + s.val

inductive CodePoint where
  | char (c : Char)
  | surrogate (s : Surrogate)
deriving DecidableEq

namespace CodePoint

def value : CodePoint → Nat
  | char c => c.toNat
  | surrogate s => s.value

def char? : CodePoint → Option Char
  | char c => some c
  | surrogate _ => none

def isSurrogate (point : CodePoint) : Bool :=
  point.char?.isNone

end CodePoint

structure Text where
  points : List CodePoint
deriving DecidableEq

namespace Text

def ofList (cs : List Char) : Text := ⟨cs.map .char⟩

def ofString (s : String) : Text := ofList s.toList

instance : Coe String Text := ⟨ofString⟩

theorem ofList_inj {cs ds : List Char} : ofList cs = ofList ds ↔ cs = ds := by
  constructor
  · intro h
    have hpoints : cs.map CodePoint.char = ds.map CodePoint.char := congrArg points h
    exact (List.map_inj_right fun _ _ => CodePoint.char.inj).1 hpoints
  · rintro rfl
    rfl

@[simp]
theorem ofString_inj {s t : String} : ofString s = ofString t ↔ s = t := by
  rw [ofString, ofString, ofList_inj, String.toList_inj]

instance : Append Text := ⟨fun s t => ⟨s.points ++ t.points⟩⟩

theorem append_assoc (s t u : Text) : s ++ t ++ u = s ++ (t ++ u) :=
  congrArg mk (List.append_assoc _ _ _)

@[simp]
theorem append_right_inj {s t u : Text} : s ++ t = s ++ u ↔ t = u := by
  constructor
  · obtain ⟨t⟩ := t
    obtain ⟨u⟩ := u
    exact fun h => congrArg mk (List.append_cancel_left (mk.inj h))
  · rintro rfl
    rfl

@[simp]
theorem append_left_inj {s t u : Text} : t ++ s = u ++ s ↔ t = u := by
  constructor
  · obtain ⟨t⟩ := t
    obtain ⟨u⟩ := u
    exact fun h => congrArg mk (List.append_cancel_right (mk.inj h))
  · rintro rfl
    rfl

def values (text : Text) : List Nat :=
  text.points.map CodePoint.value

/-- Texts are ordered as rows of numbers. -/
instance : LE Text := ⟨fun s t => List.le s.values t.values⟩

instance : LT Text := ⟨fun s t => List.lt s.values t.values⟩

instance (s t : Text) : Decidable (s ≤ t) :=
  List.decidableLE s.values t.values

def join (texts : List Text) : Text := ⟨texts.flatMap points⟩

def intercalate (separator : Text) (texts : List Text) : Text :=
  ⟨separator.points.intercalate (texts.map points)⟩

/-- The characters of a text, if there are no surrogates among them. -/
def chars? (text : Text) : Option (List Char) :=
  text.points.mapM CodePoint.char?

def toString? (text : Text) : Option String :=
  text.chars?.map String.ofList

theorem chars?_ofList (cs : List Char) : (ofList cs).chars? = some cs := by
  induction cs with
  | nil => rfl
  | cons c rest ih =>
    unfold chars? ofList at ih ⊢
    rw [List.map_cons, List.mapM_cons, ih]
    rfl

theorem chars?_eq_some {text : Text} {cs : List Char} :
    text.chars? = some cs ↔ text = ofList cs := by
  constructor
  · obtain ⟨points⟩ := text
    unfold chars? ofList
    rw [mk.injEq]
    intro h
    dsimp only at h
    induction points generalizing cs with
    | nil =>
      cases h
      rfl
    | cons point rest ih =>
      rw [List.mapM_cons] at h
      cases point with
      | surrogate s => cases h
      | char c =>
        cases hrest : rest.mapM CodePoint.char? with
        | none =>
          rw [hrest] at h
          cases h
        | some ds =>
          rw [hrest] at h
          cases h
          rw [List.map_cons, ih hrest]
  · rintro rfl
    exact chars?_ofList cs

theorem toString?_eq_some {text : Text} {s : String} :
    text.toString? = some s ↔ text = ofString s := by
  rw [toString?, Option.map_eq_some_iff, ofString, ← chars?_eq_some]
  constructor
  · rintro ⟨cs, hcs, rfl⟩
    rw [String.toList_ofList, hcs]
  · intro h
    exact ⟨_, h, String.ofList_toList⟩

@[simp]
theorem toString?_ofString (s : String) : (ofString s).toString? = some s :=
  toString?_eq_some.2 rfl

/-! ## Quoted text

Text as it is shown inside a message: between quotes, with everything escaped that would not print.
The quotes are single ones, unless the text holds single and no double ones.
-/

def singleQuote : Char := '\x27'
def doubleQuote : Char := '\x22'

/-- The hexadecimal digits of a number, in lower case and at least `width` of them. -/
def hex (width n : Nat) : List Char :=
  let ds := Nat.toDigits 16 n
  List.replicate (width - ds.length) '0' ++ ds

def escapeSurrogate (s : Surrogate) : List Char :=
  '\\' :: 'u' :: hex 4 s.value

/-- The quote that encloses a text. -/
def quoteFor (points : List CodePoint) : Char :=
  if .char singleQuote ∈ points ∧ .char doubleQuote ∉ points then doubleQuote else singleQuote

def escapeChar (quote c : Char) : List Char :=
  if c = quote ∨ c = '\\' then ['\\', c]
  else if c = '\n' then ['\\', 'n']
  else if c = '\r' then ['\\', 'r']
  else if c = '\t' then ['\\', 't']
  else if isPrintable c then [c]
  else if c.toNat < 0x100 then '\\' :: 'x' :: hex 2 c.toNat
  else if c.toNat < 0x10000 then '\\' :: 'u' :: hex 4 c.toNat
  else '\\' :: 'U' :: hex 8 c.toNat

def escapePoint (quote : Char) : CodePoint → List Char
  | .char c => escapeChar quote c
  | .surrogate s => escapeSurrogate s

def quoted (text : Text) : String :=
  let quote := quoteFor text.points
  String.ofList (quote :: (text.points.flatMap (escapePoint quote) ++ [quote]))

/-- The text with its surrogates escaped and nothing else. -/
def escaped (text : Text) : String :=
  String.ofList (text.points.flatMap fun
    | .char c => [c]
    | .surrogate s => escapeSurrogate s)

end Text

/-! ## Outlets -/

/-- Where a text is refused: at `offset`, where `length` surrogates stand in a row and `first` is the
first of them. -/
structure EncodeFault where
  first : Surrogate
  offset : Nat
  length : Nat
deriving DecidableEq

def EncodeFault.message (fault : EncodeFault) : String :=
  let points :=
    if fault.length = 1 then
      "character '" ++ String.ofList (Text.escapeSurrogate fault.first) ++ "' in position " ++
        toString fault.offset
    else
      "characters in position " ++ toString fault.offset ++ "-" ++
        toString (fault.offset + fault.length - 1)
  "'utf-8' codec can't encode " ++ points ++ ": surrogates not allowed"

/-- A stream that texts are written to. It takes every character, and some of the surrogates. -/
structure Outlet where
  takes : Surrogate → Bool

namespace Outlet

/-- Strict UTF-8, as files are written. -/
def utf8 : Outlet := ⟨fun _ => false⟩

/-- Bytes that are no UTF-8 come as surrogates from U+DC80 on, and go out as those bytes again. -/
def utf8Bytes : Outlet := ⟨fun s => 0xDC80 ≤ s.value && s.value ≤ 0xDCFF⟩

/-- There is no surrogate in the text but what the outlet takes. -/
def Takes (outlet : Outlet) (text : Text) : Prop :=
  ∀ s, .surrogate s ∈ text.points → outlet.takes s

def refusalFrom? (outlet : Outlet) (offset : Nat) : List CodePoint → Option EncodeFault
  | [] => none
  | .char _ :: rest => refusalFrom? outlet (offset + 1) rest
  | .surrogate s :: rest =>
    if outlet.takes s then refusalFrom? outlet (offset + 1) rest
    else some ⟨s, offset, 1 + (rest.takeWhile CodePoint.isSurrogate).length⟩

/-- Why the outlet does not take a text, which it takes as a whole or not at all. -/
def refusal? (outlet : Outlet) (text : Text) : Option EncodeFault :=
  outlet.refusalFrom? 0 text.points

theorem refusalFrom?_eq_none {outlet : Outlet} {offset : Nat} {points : List CodePoint} :
    outlet.refusalFrom? offset points = none ↔ ∀ s, .surrogate s ∈ points → outlet.takes s := by
  induction points generalizing offset with
  | nil => simp [refusalFrom?]
  | cons point rest ih =>
    cases point with
    | char c => simp [refusalFrom?, ih]
    | surrogate s => by_cases hs : outlet.takes s <;> simp [refusalFrom?, ih, hs]

theorem refusal?_eq_none {outlet : Outlet} {text : Text} :
    outlet.refusal? text = none ↔ outlet.Takes text :=
  refusalFrom?_eq_none

/-- The texts that are written of some that come one after the other, and the refusal that is in the
way of the others. -/
def writeAll (outlet : Outlet) : List Text → List Text × Option EncodeFault
  | [] => ([], none)
  | text :: rest =>
    match outlet.refusal? text with
    | some fault => ([], some fault)
    | none =>
      let (written, fault) := outlet.writeAll rest
      (text :: written, fault)

end Outlet

end TokenTape
