import TokenTape.Proofs.JsonReaders

/-!
# Places in JSON text

Reading comes to one value of a text after the other. What stands where it gives up is told here by
the text: an integer with too many digits, or a bracket that opens one array or object too many.
-/

namespace TokenTape.Json

/-! ## Long integers -/

/-- The text begins with an integer of `count` digits, more than are converted. -/
def LongInteger (count : Nat) (cs : List Char) : Prop :=
  ∃ (negative : Bool) (digits rest : List Char),
    cs = (if negative then ['-'] else []) ++ (digits ++ rest) ∧
    Decimal.Leading digits ∧ digits.length = count ∧ digitLimit < count ∧
    (∀ c ∈ rest.head?, c.isDigit = false) ∧ partDigits rest = [] ∧ exponent? rest = none

theorem leading_wholeDigits {cs : List Char} (h : wholeDigits cs ≠ []) :
    Decimal.Leading (wholeDigits cs) := by
  unfold wholeDigits at h ⊢
  split at h
  · exact ⟨by simp, by simp, fun _ => rfl⟩
  · next hzero =>
    refine ⟨h, List.all_eq_true.1 List.all_takeWhile, fun hhead => ?_⟩
    cases cs with
    | nil => cases hhead
    | cons c rest =>
      rw [List.takeWhile_cons] at hhead
      split at hhead
      · cases hhead
        exact absurd rfl (hzero rest)
      · cases hhead

theorem wholeDigits_split {cs : List Char} (h : 1 < (wholeDigits cs).length) :
    ∃ rest, cs = wholeDigits cs ++ rest ∧ ∀ c ∈ rest.head?, c.isDigit = false := by
  unfold wholeDigits at h ⊢
  split at h
  · simp at h
  · refine ⟨cs.dropWhile Char.isDigit, List.takeWhile_append_dropWhile.symm, ?_⟩
    intro c hc
    have hstop := List.head?_dropWhile_not Char.isDigit cs
    rw [hc] at hstop
    simpa using hstop

theorem finishNumber_eq_tooLong {negative : Bool} {whole : List Char} {cursor : Cursor}
    {count : Nat} :
    finishNumber negative whole cursor = .error (.integerTooLong count) ↔
      whole.length = count ∧ digitLimit < count ∧ partDigits cursor.rest = [] ∧
        exponent? cursor.rest = none := by
  unfold finishNumber
  extract_lets part afterPart
  constructor
  · intro h
    split at h
    · next hpart hexponent =>
      split at h
      · next hlimit =>
        cases h
        simp only [afterPart, hpart, if_true] at hexponent
        exact ⟨rfl, hlimit, hpart, hexponent⟩
      · cases h
    · cases h
  · rintro ⟨rfl, hlimit, hpart, hexponent⟩
    have hafter : afterPart = cursor := if_pos hpart
    simp only [hafter, hexponent, show part = [] from hpart, hlimit, if_true]

theorem readNumber_eq_tooLong {cursor : Cursor} {count : Nat} :
    readNumber cursor = .error (.integerTooLong count) ↔ LongInteger count cursor.rest := by
  constructor
  · intro h
    unfold readNumber at h
    extract_lets negative afterSign whole at h
    split at h
    · cases h
    · next hwhole =>
      obtain ⟨hcount, hlimit, hpart, hexponent⟩ := finishNumber_eq_tooLong.1 h
      have hmany : 1 < whole.length := hcount ▸ Nat.lt_trans (by decide : 1 < digitLimit) hlimit
      obtain ⟨rest, hrest, hends⟩ := wholeDigits_split hmany
      have hdrop : (afterSign.skip whole.length).rest = rest :=
        (congrArg (List.drop whole.length) hrest).trans List.drop_left
      refine ⟨decide negative, whole, rest, ?_, leading_wholeDigits hwhole, hcount, hlimit, hends,
        hdrop ▸ hpart, hdrop ▸ hexponent⟩
      rw [show whole ++ rest = afterSign.rest from hrest.symm]
      by_cases hminus : negative
      · obtain ⟨tail, htail⟩ := List.head?_eq_some_iff.1 hminus
        simp [afterSign, hminus, Cursor.skip, htail]
      · simp [afterSign, hminus]
  · rintro ⟨negative, digits, rest, hcs, hdigits, hcount, hlimit, hends, hpart, hexponent⟩
    obtain ⟨offset, cs⟩ := cursor
    subst hcs
    obtain ⟨start, hstart⟩ := readNumber_leading negative hdigits hends offset
    rw [hstart]
    exact finishNumber_eq_tooLong.2 ⟨hcount, hlimit, hpart, hexponent⟩

theorem readScalar_eq_tooLong {cursor : Cursor} {count : Nat} :
    readScalar cursor = .error (.integerTooLong count) ↔ LongInteger count cursor.rest := by
  constructor
  · intro h
    unfold readScalar at h
    split at h
    · cases h
    · exact readNumber_eq_tooLong.1 h
  · intro h
    rw [← readNumber_eq_tooLong.2 h]
    obtain ⟨negative, digits, rest, hcs, hdigits, -⟩ := h
    obtain ⟨c, tail, rfl⟩ := List.exists_cons_of_ne_nil hdigits.ne_nil
    obtain ⟨offset, cs⟩ := cursor
    subst hcs
    exact readScalar_digit negative (hdigits.digits c List.mem_cons_self) offset _

/-! ## Places -/

/-- Reading the value that begins at `start`, with `room` arrays and objects at most open at once,
comes to a value that begins at `cursor`. `opened` holds what is open there, the innermost first. -/
inductive Reaches (room : Nat) (start : Cursor) : List Container → Cursor → Prop
  | here : Reaches room start [] start
  | item {opened : List Container} {cursor : Cursor} {rest : List Char}
      (h : Reaches room start opened cursor) (hopens : cursor.rest = '[' :: rest)
      (hroom : opened.length < room) (hsome : cursor.passMark.rest.head? ≠ some ']') :
      Reaches room start (.array :: opened) cursor.passMark
  | nextItem {opened : List Container} {cursor behind : Cursor} {value : Json} {rest : List Char}
      (h : Reaches room start (.array :: opened) cursor)
      (hvalue : valueAt (room - (opened.length + 1)) cursor = .ok (value, behind))
      (hcomma : behind.skipGap.rest = ',' :: rest) :
      Reaches room start (.array :: opened) behind.skipGap.passMark
  | field {opened : List Container} {cursor next : Cursor} {rest : List Char} {name : Text}
      (h : Reaches room start opened cursor) (hopens : cursor.rest = '\x7b' :: rest)
      (hroom : opened.length < room) (hsome : cursor.passMark.rest.head? ≠ some '\x7d')
      (hname : readName cursor.passMark = .ok (name, next)) :
      Reaches room start (.object :: opened) next
  | nextField {opened : List Container} {cursor behind next : Cursor} {value : Json}
      {rest : List Char} {name : Text} (h : Reaches room start (.object :: opened) cursor)
      (hvalue : valueAt (room - (opened.length + 1)) cursor = .ok (value, behind))
      (hcomma : behind.skipGap.rest = ',' :: rest)
      (hname : readName behind.skipGap.passMark = .ok (name, next)) :
      Reaches room start (.object :: opened) next

/-- What stands where reading gives up: an integer with too many digits, or a bracket where `room`
arrays and objects are open already. -/
inductive Exceeds (room : Nat) (opened : List Container) (cs : List Char) : Stop → Prop
  | integer {count : Nat} (h : LongInteger count cs) :
      Exceeds room opened cs (.integerTooLong count)
  | array {rest : List Char} (h : cs = '[' :: rest) (hfull : opened.length = room) :
      Exceeds room opened cs (.nestedTooDeep .array)
  | object {rest : List Char} (h : cs = '\x7b' :: rest) (hfull : opened.length = room) :
      Exceeds room opened cs (.nestedTooDeep .object)

/-- Reading comes to a place where it gives up. -/
def Overflows (room : Nat) (start : Cursor) (stop : Stop) : Prop :=
  ∃ opened cursor, Reaches room start opened cursor ∧ Exceeds room opened cursor.rest stop

/-- The stops that are no faults. -/
def Stop.AtLimit (stop : Stop) : Prop :=
  ∀ fault offset, stop ≠ .fault fault offset

variable {room : Nat} {start : Cursor} {stop : Stop}

theorem Reaches.length_le {opened : List Container} {cursor : Cursor}
    (h : Reaches room start opened cursor) : opened.length ≤ room := by
  induction h with
  | here => exact Nat.zero_le _
  | item _ _ hroom _ _ => exact hroom
  | nextItem _ _ _ ih => exact ih
  | field _ _ hroom _ _ _ => exact hroom
  | nextField _ _ _ _ ih => exact ih

/-- Brackets that open one after the other, as far as there is room. -/
theorem reaches_brackets (offset : Nat) (rest : List Char) {count inner : Nat}
    (h : count + inner = room) :
    Reaches room ⟨offset, .replicate (room + 1) '[' ++ rest⟩ (.replicate count .array)
      ⟨offset + count, .replicate (inner + 1) '[' ++ rest⟩ := by
  induction count generalizing inner with
  | zero =>
    obtain rfl : inner = room := by omega
    exact .here
  | succ count ih =>
    have hroom : (List.replicate count Container.array).length < room := by
      rw [List.length_replicate]
      omega
    have hnext := (ih (show count + (inner + 1) = room by omega)).item rfl hroom
    rw [List.replicate_succ, List.cons_append, Cursor.passMark_cons, List.replicate_succ,
      List.cons_append, Cursor.skipGap_cons rfl] at hnext
    exact hnext (by simp)

theorem overflows_brackets (room offset : Nat) (rest : List Char) :
    Overflows room ⟨offset, .replicate (room + 1) '[' ++ rest⟩ (.nestedTooDeep .array) :=
  ⟨_, _, reaches_brackets offset rest (Nat.add_zero room), .array rfl List.length_replicate⟩

/-! ## Giving up at a place -/

theorem Reaches.room_succ {opened : List Container} (hroom : opened.length < room) :
    room - opened.length = room - (opened.length + 1) + 1 := by
  omega

theorem Cursor.goesOn_comma {cursor : Cursor} {rest : List Char} (h : cursor.rest = ',' :: rest)
    (closing : Char) : cursor.goesOn closing = .ok true :=
  goesOn_eq_true.2 ⟨rest, h⟩

/-- Reading fails at `start` as it fails at `cursor`, where it stands in a row. -/
def FailsThrough (room : Nat) (start : Cursor) : List Container → Cursor → Prop
  | [], cursor => cursor = start
  | .array :: opened, cursor => ∃ read, ∀ stop,
      itemsAt (room - (opened.length + 1)) read cursor = .error stop →
      valueAt room start = .error stop
  | .object :: opened, cursor => ∃ read name, ∀ stop,
      (valueAt (room - (opened.length + 1)) cursor >>=
        fieldRest (room - (opened.length + 1)) read name) = .error stop →
      valueAt room start = .error stop

theorem FailsThrough.value {opened : List Container} {cursor : Cursor}
    (h : FailsThrough room start opened cursor)
    (hstop : valueAt (room - opened.length) cursor = .error stop) :
    valueAt room start = .error stop := by
  cases opened with
  | nil =>
    cases h
    exact hstop
  | cons container opened =>
    cases container with
    | array =>
      obtain ⟨read, hrow⟩ := h
      apply hrow
      rw [itemsAt_eq]
      exact congrArg (· >>= _) hstop
    | object =>
      obtain ⟨read, name, hrow⟩ := h
      apply hrow
      exact congrArg (· >>= _) hstop

theorem Reaches.failsThrough {opened : List Container} {cursor : Cursor}
    (h : Reaches room start opened cursor) : FailsThrough room start opened cursor := by
  induction h with
  | here => rfl
  | @item opened cursor rest _ hopens hroom hsome ih =>
    refine ⟨[], fun stop hstop => ih.value ?_⟩
    rw [room_succ hroom, valueAt_array hopens, if_neg hsome, hstop]
  | @nextItem opened cursor behind value rest _ hvalue hcomma ih =>
    obtain ⟨read, hrow⟩ := ih
    refine ⟨value :: read, fun stop hstop => hrow stop ?_⟩
    rw [itemsAt_eq, hvalue, ← hstop]
    show itemRest _ read (value, behind) = _
    rw [itemRest, Cursor.goesOn_comma hcomma]
    rfl
  | @field opened cursor next rest name _ hopens hroom hsome hname ih =>
    refine ⟨[], name, fun stop hstop => ih.value ?_⟩
    rw [room_succ hroom, valueAt_object hopens, if_neg hsome, fieldsAt_eq, hname, ← hstop]
    rfl
  | @nextField opened cursor behind next value rest name _ hvalue hcomma hname ih =>
    obtain ⟨read, previous, hrow⟩ := ih
    refine ⟨Table.insertEntry previous value read, name, fun stop hstop => hrow stop ?_⟩
    rw [hvalue, ← hstop]
    show fieldRest _ read previous (value, behind) = _
    rw [fieldRest, Cursor.goesOn_comma hcomma]
    show fieldsAt _ _ _ = _
    rw [fieldsAt_eq, hname]
    rfl

theorem valueAt_full_array {cursor : Cursor} {rest : List Char} (h : cursor.rest = '[' :: rest) :
    valueAt 0 cursor = .error (.nestedTooDeep .array) := by
  unfold valueAt Cursor.fuel readValue
  simp only [h]

theorem valueAt_full_object {cursor : Cursor} {rest : List Char}
    (h : cursor.rest = '\x7b' :: rest) :
    valueAt 0 cursor = .error (.nestedTooDeep .object) := by
  unfold valueAt Cursor.fuel readValue
  simp only [h]

theorem LongInteger.valueAt_eq {cursor : Cursor} {count : Nat} (h : LongInteger count cursor.rest)
    (room : Nat) : valueAt room cursor = .error (.integerTooLong count) := by
  rw [← readScalar_eq_tooLong.2 h]
  obtain ⟨negative, digits, rest, hcs, hdigits, -⟩ := h
  obtain ⟨c, tail, rfl⟩ := List.exists_cons_of_ne_nil hdigits.ne_nil
  have hc : c.isDigit := hdigits.digits c List.mem_cons_self
  have hhead (mark : Char) (hmark : mark.isDigit = false) (hminus : mark ≠ '-')
      (rest' : List Char) : cursor.rest ≠ mark :: rest' := by
    rw [hcs]
    cases negative with
    | false =>
      rintro ⟨⟩
      simp [hc] at hmark
    | true =>
      rintro ⟨⟩
      exact hminus rfl
  exact valueAt_scalar (hhead _ rfl (by decide)) (hhead _ rfl (by decide)) (hhead _ rfl (by decide))
    room

theorem Exceeds.valueAt_eq {opened : List Container} {cursor : Cursor}
    (h : Exceeds room opened cursor.rest stop) :
    valueAt (room - opened.length) cursor = .error stop := by
  cases h with
  | integer h => exact h.valueAt_eq _
  | array h hfull =>
    rw [hfull, Nat.sub_self]
    exact valueAt_full_array h
  | object h hfull =>
    rw [hfull, Nat.sub_self]
    exact valueAt_full_object h

/-! ## Finding the place -/

/-- A reader that meets no limit. -/
def Unlimited {α : Type} (x : Except Stop α) : Prop :=
  ∀ stop, x = .error stop → ¬stop.AtLimit

namespace Unlimited

variable {α β : Type}

theorem ok (a : α) : Unlimited (.ok a) := by
  rintro _ ⟨⟩

theorem fault (f : SyntaxFault) (offset : Nat) :
    Unlimited (.error (.fault f offset) : Except Stop α) := by
  rintro _ ⟨⟩ hlimit
  exact hlimit f offset rfl

theorem bind {x : Except Stop α} {f : α → Except Stop β} (hx : Unlimited x)
    (hf : ∀ a, Unlimited (f a)) : Unlimited (x >>= f) := by
  cases x with
  | error stop =>
    rintro _ ⟨⟩
    exact hx stop rfl
  | ok a => exact hf a

end Unlimited

theorem unlimited_readCode (offset : Nat) (a b c d : Char) (rest : List Char) :
    Unlimited (readCode offset a b c d rest) := by
  unfold readCode
  split
  · exact .fault _ _
  · split
    · exact .fault _ _
    · split
      · split
        · split
          · exact .fault _ _
          · exact .ok _
        · exact .ok _
      · exact .ok _

theorem unlimited_readString (opening : Nat) (read : List CodePoint) (offset : Nat)
    (cs : List Char) : Unlimited (readString opening read offset cs) := by
  fun_induction readString opening read offset cs with
  | case1 | case4 | case5 | case7 | case8 => exact .fault _ _
  | case2 => exact .ok _
  | case3 read offset a b c d rest ih =>
    exact .bind (unlimited_readCode offset a b c d rest) fun found => ih found.1 found.2
  | case6 _ _ _ _ _ _ _ _ ih => exact ih
  | case9 _ _ _ _ _ _ _ _ _ _ ih => exact ih

theorem unlimited_readName (cursor : Cursor) : Unlimited (readName cursor) := by
  unfold readName
  split
  · refine .bind (unlimited_readString _ _ _ _) fun found => ?_
    dsimp only
    split
    · exact .fault _ _
    · exact .ok _
  · exact .fault _ _

theorem Cursor.unlimited_goesOn (cursor : Cursor) (closing : Char) :
    Unlimited (cursor.goesOn closing) := by
  unfold goesOn
  split
  · exact .ok _
  · split
    · exact .ok _
    · exact .fault _ _

theorem readScalar_ne_nestedTooDeep (cursor : Cursor) (container : Container) :
    readScalar cursor ≠ .error (.nestedTooDeep container) := by
  unfold readScalar
  split
  · nofun
  · unfold readNumber
    extract_lets negative afterSign whole
    split
    · nofun
    · unfold finishNumber
      extract_lets part afterPart
      split
      · split
        · nofun
        · nofun
      · nofun

theorem exceeds_of_readScalar {cursor : Cursor} (h : readScalar cursor = .error stop)
    (hlimit : stop.AtLimit) (opened : List Container) : Exceeds room opened cursor.rest stop := by
  cases stop with
  | fault f offset => exact absurd rfl (hlimit f offset)
  | integerTooLong count => exact .integer (readScalar_eq_tooLong.1 h)
  | nestedTooDeep container => exact absurd h (readScalar_ne_nestedTooDeep cursor container)

/-- Where a value, a row of items or a row of fields of at most `length` characters meets a limit,
reading has come to the place of it. -/
structure Located (room : Nat) (start : Cursor) (stop : Stop) (length : Nat) : Prop where
  value : ∀ opened cursor, cursor.rest.length ≤ length → Reaches room start opened cursor →
    valueAt (room - opened.length) cursor = .error stop → Overflows room start stop
  items : ∀ opened read cursor, cursor.rest.length ≤ length →
    Reaches room start (.array :: opened) cursor →
    itemsAt (room - (opened.length + 1)) read cursor = .error stop → Overflows room start stop
  fields : ∀ opened read cursor, cursor.rest.length ≤ length →
    (∀ name next, readName cursor = .ok (name, next) →
      Reaches room start (.object :: opened) next) →
    fieldsAt (room - (opened.length + 1)) read cursor = .error stop → Overflows room start stop

theorem valueAt_string {cursor : Cursor} {rest : List Char} (h : cursor.rest = '"' :: rest)
    (room : Nat) : Unlimited (valueAt room cursor) := by
  unfold valueAt Cursor.fuel readValue
  simp only [h]
  exact .bind (unlimited_readString _ _ _ _) fun found => .ok _

/-- The rows that a value opens are shorter than the value. -/
theorem Located.value_step {length : Nat} (hlimit : stop.AtLimit)
    (hrows : ∀ shorter, shorter < length → Located room start stop shorter)
    {opened : List Container} {cursor : Cursor} (hlength : cursor.rest.length ≤ length)
    (hreaches : Reaches room start opened cursor)
    (hstop : valueAt (room - opened.length) cursor = .error stop) :
    Overflows room start stop := by
  by_cases hstring : ∃ rest, cursor.rest = '"' :: rest
  · obtain ⟨rest, hrest⟩ := hstring
    exact absurd hlimit (valueAt_string hrest _ stop hstop)
  by_cases harray : ∃ rest, cursor.rest = '[' :: rest
  · obtain ⟨rest, hrest⟩ := harray
    by_cases hroom : opened.length < room
    · rw [Reaches.room_succ hroom, valueAt_array hrest] at hstop
      split at hstop
      · cases hstop
      · next hsome =>
        have hshorter := Cursor.length_passMark hrest
        exact (hrows _ (Nat.lt_of_lt_of_le hshorter hlength)).items opened [] _ (Nat.le_refl _)
          (hreaches.item hrest hroom hsome) hstop
    · have hfull : opened.length = room :=
        Nat.le_antisymm hreaches.length_le (Nat.le_of_not_lt hroom)
      rw [hfull, Nat.sub_self, valueAt_full_array hrest] at hstop
      cases hstop
      exact ⟨opened, cursor, hreaches, .array hrest hfull⟩
  by_cases hobject : ∃ rest, cursor.rest = '\x7b' :: rest
  · obtain ⟨rest, hrest⟩ := hobject
    by_cases hroom : opened.length < room
    · rw [Reaches.room_succ hroom, valueAt_object hrest] at hstop
      split at hstop
      · cases hstop
      · next hsome =>
        have hshorter := Cursor.length_passMark hrest
        exact (hrows _ (Nat.lt_of_lt_of_le hshorter hlength)).fields opened [] _ (Nat.le_refl _)
          (fun name next hname => hreaches.field hrest hroom hsome hname) hstop
    · have hfull : opened.length = room :=
        Nat.le_antisymm hreaches.length_le (Nat.le_of_not_lt hroom)
      rw [hfull, Nat.sub_self, valueAt_full_object hrest] at hstop
      cases hstop
      exact ⟨opened, cursor, hreaches, .object hrest hfull⟩
  rw [valueAt_scalar (not_exists.1 hstring) (not_exists.1 harray) (not_exists.1 hobject)] at hstop
  exact ⟨opened, cursor, hreaches, exceeds_of_readScalar hstop hlimit opened⟩

theorem Located.items_step {length : Nat} (hlimit : stop.AtLimit)
    (hrows : ∀ shorter, shorter < length → Located room start stop shorter)
    {opened : List Container} {read : List Json} {cursor : Cursor}
    (hlength : cursor.rest.length ≤ length)
    (hreaches : Reaches room start (.array :: opened) cursor)
    (hstop : itemsAt (room - (opened.length + 1)) read cursor = .error stop) :
    Overflows room start stop := by
  rw [itemsAt_eq] at hstop
  cases hvalue : valueAt (room - (opened.length + 1)) cursor with
  | error inner =>
    rw [hvalue] at hstop
    cases hstop
    exact value_step hlimit hrows hlength hreaches hvalue
  | ok found =>
    obtain ⟨item, behind⟩ := found
    have hbehind := (behind.skipGap_suffix.trans (advances_valueAt _ _ _ _ hvalue)).length_le
    rw [hvalue] at hstop
    cases hmore : behind.skipGap.goesOn ']' with
    | error inner =>
      simp only [bind, Except.bind, itemRest, hmore] at hstop
      cases hstop
      exact absurd hlimit (behind.skipGap.unlimited_goesOn ']' stop hmore)
    | ok more =>
      simp only [bind, Except.bind, itemRest, hmore] at hstop
      cases more with
      | false => cases hstop
      | true =>
        obtain ⟨rest, hcomma⟩ := Cursor.goesOn_eq_true.1 hmore
        have hshorter := Cursor.length_passMark hcomma
        exact (hrows _ (by omega)).items opened _ _ (Nat.le_refl _)
          (hreaches.nextItem hvalue hcomma) hstop

theorem Located.fields_step {length : Nat} (hlimit : stop.AtLimit)
    (hrows : ∀ shorter, shorter < length → Located room start stop shorter)
    {opened : List Container} {read : List (Text × Json)} {cursor : Cursor}
    (hlength : cursor.rest.length ≤ length)
    (hreaches : ∀ name next, readName cursor = .ok (name, next) →
      Reaches room start (.object :: opened) next)
    (hstop : fieldsAt (room - (opened.length + 1)) read cursor = .error stop) :
    Overflows room start stop := by
  rw [fieldsAt_eq] at hstop
  cases hname : readName cursor with
  | error inner =>
    rw [hname] at hstop
    cases hstop
    exact absurd hlimit (unlimited_readName cursor stop hname)
  | ok found =>
    obtain ⟨name, place⟩ := found
    have hplace := (advances_readName cursor _ _ hname).length_le
    rw [hname] at hstop
    simp only [bind, Except.bind] at hstop
    cases hvalue : valueAt (room - (opened.length + 1)) place with
    | error inner =>
      rw [hvalue] at hstop
      cases hstop
      exact value_step hlimit hrows (Nat.le_trans hplace hlength) (hreaches name place hname) hvalue
    | ok found =>
      obtain ⟨value, behind⟩ := found
      have hbehind := (behind.skipGap_suffix.trans (advances_valueAt _ _ _ _ hvalue)).length_le
      rw [hvalue] at hstop
      cases hmore : behind.skipGap.goesOn '\x7d' with
      | error inner =>
        simp only [bind, Except.bind, fieldRest, hmore] at hstop
        cases hstop
        exact absurd hlimit (behind.skipGap.unlimited_goesOn '\x7d' stop hmore)
      | ok more =>
        simp only [bind, Except.bind, fieldRest, hmore] at hstop
        cases more with
        | false => cases hstop
        | true =>
          obtain ⟨rest, hcomma⟩ := Cursor.goesOn_eq_true.1 hmore
          have hshorter := Cursor.length_passMark hcomma
          refine (hrows _ (by omega)).fields opened _ _ (Nat.le_refl _) ?_ hstop
          intro next following hnext
          exact (hreaches name place hname).nextField hvalue hcomma hnext

theorem located (hlimit : stop.AtLimit) (length : Nat) : Located room start stop length := by
  induction length using Nat.strongRecOn with
  | ind length ih =>
    refine ⟨?_, ?_, ?_⟩
    · exact fun _ _ hlength hreaches hstop => Located.value_step hlimit ih hlength hreaches hstop
    · exact fun _ _ _ hlength hreaches hstop => Located.items_step hlimit ih hlength hreaches hstop
    · exact fun _ _ _ hlength hreaches hstop => Located.fields_step hlimit ih hlength hreaches hstop

theorem valueAt_eq_limit (hlimit : stop.AtLimit) :
    valueAt room start = .error stop ↔ Overflows room start stop := by
  constructor
  · exact (located hlimit _).value [] start (Nat.le_refl _) .here
  · rintro ⟨opened, cursor, hreaches, hexceeds⟩
    exact hreaches.failsThrough.value hexceeds.valueAt_eq

/-! ## Whole texts -/

/-- Where the value of a text begins. -/
def Cursor.ofText (text : List Char) : Cursor :=
  skipGap ⟨0, text⟩

theorem unlimited_byteOrderMark {rest : List Char} :
    Unlimited (valueAt room ⟨0, '\uFEFF' :: rest⟩) := by
  have hscalar : valueAt room ⟨0, '\uFEFF' :: rest⟩ = readScalar ⟨0, '\uFEFF' :: rest⟩ :=
    valueAt_scalar (by simp) (by simp) (by simp) room
  have hfault : readScalar ⟨0, '\uFEFF' :: rest⟩ = .error (.fault .valueExpected 0) := by
    simp [readScalar, words, readNumber, wholeDigits, Cursor.fail]
  rw [hscalar, hfault]
  exact .fault _ _

theorem readText_eq_limit {text : List Char} (hlimit : stop.AtLimit) :
    readText text = .error stop ↔ Overflows nestingLimit (.ofText text) stop := by
  unfold Cursor.ofText
  rw [← valueAt_eq_limit hlimit]
  by_cases hmark : text.head? = some '\uFEFF'
  · obtain ⟨rest, rfl⟩ := List.head?_eq_some_iff.1 hmark
    rw [Cursor.skipGap_cons rfl]
    refine iff_of_false ?_ fun h => unlimited_byteOrderMark stop h hlimit
    rintro ⟨⟩
    exact hlimit _ _ rfl
  · have hread : readText text = valueAt nestingLimit (Cursor.skipGap ⟨0, text⟩) >>= fun found =>
        if found.2.skipGap.rest ≠ [] then found.2.skipGap.fail .extraData else .ok found.1 := by
      simp only [readText, hmark, if_false, valueAt]
      rfl
    rw [hread]
    cases hvalue : valueAt nestingLimit (Cursor.skipGap ⟨0, text⟩) with
    | error inner => simp only [bind, Except.bind, Except.error.injEq]
    | ok found =>
      simp only [bind, Except.bind, reduceCtorEq, iff_false]
      split
      · rintro ⟨⟩
        exact hlimit _ _ rfl
      · intro h
        cases h

theorem read_eq_integerTooLong {text : String} {digits : Nat} :
    read text = .error (.integerTooLong digits) ↔
      Overflows nestingLimit (.ofText text.toList) (.integerTooLong digits) := by
  rw [← readText_eq_limit (by simp [Stop.AtLimit]), read]
  cases readText text.toList with
  | ok value => simp [Except.mapError]
  | error stop => cases stop <;> simp [Except.mapError, Stop.toError]

theorem read_eq_nestedTooDeep {text : String} {container : Container} :
    read text = .error (.nestedTooDeep container) ↔
      Overflows nestingLimit (.ofText text.toList) (.nestedTooDeep container) := by
  rw [← readText_eq_limit (by simp [Stop.AtLimit]), read]
  cases readText text.toList with
  | ok value => simp [Except.mapError]
  | error stop => cases stop <;> simp [Except.mapError, Stop.toError]

end TokenTape.Json
