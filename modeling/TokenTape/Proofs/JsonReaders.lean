import TokenTape.Proofs.JsonText

/-!
# Readers of JSON text

A reader that succeeds has moved right, so the fuel of the readers that call each other never runs
out. Here they are without fuel, as what each one does in terms of the others.
-/

namespace TokenTape.Json

/-! ## Readers move right -/

/-- A reader that succeeds has read on. -/
def Advances {α : Type} (cs : List Char) (x : Except Stop (α × Cursor)) : Prop :=
  ∀ a cursor, x = .ok (a, cursor) → cursor.rest <:+ cs

namespace Advances

variable {α β : Type} {cs : List Char}

theorem ok (a : α) {cursor : Cursor} (h : cursor.rest <:+ cs) : Advances cs (.ok (a, cursor)) := by
  rintro _ _ ⟨⟩
  exact h

theorem error (stop : Stop) : Advances cs (.error stop : Except Stop (α × Cursor)) := by
  rintro _ _ ⟨⟩

theorem mono {cs' : List Char} {x : Except Stop (α × Cursor)} (h : Advances cs x)
    (hcs : cs <:+ cs') : Advances cs' x :=
  fun a cursor heq => (h a cursor heq).trans hcs

theorem bind {x : Except Stop (α × Cursor)} {f : α × Cursor → Except Stop (β × Cursor)}
    (hx : Advances cs x) (hf : ∀ a cursor, cursor.rest <:+ cs → Advances cs (f (a, cursor))) :
    Advances cs (x >>= f) := by
  cases x with
  | error stop => exact error stop
  | ok found => exact hf found.1 found.2 (hx _ _ rfl)

end Advances

theorem Cursor.skip_suffix (cursor : Cursor) (count : Nat) :
    (cursor.skip count).rest <:+ cursor.rest :=
  List.drop_suffix _ _

theorem Cursor.skipGap_suffix (cursor : Cursor) : cursor.skipGap.rest <:+ cursor.rest :=
  cursor.skip_suffix _

theorem Cursor.passMark_suffix (cursor : Cursor) : cursor.passMark.rest <:+ cursor.rest :=
  (skipGap_suffix _).trans (cursor.skip_suffix 1)

theorem advances_readString (opening : Nat) (read : List CodePoint) (offset : Nat)
    (cs : List Char) : Advances cs (readString opening read offset cs) := by
  fun_induction readString opening read offset cs with
  | case1 | case4 | case5 | case7 | case8 => exact .error _
  | case2 => exact .ok _ (List.suffix_cons _ _)
  | case3 read offset a b c d rest ih =>
    cases hcode : readCode offset a b c d rest with
    | error stop => exact .error stop
    | ok found =>
      have hrest : rest <:+ '\\' :: 'u' :: a :: b :: c :: d :: rest :=
        ⟨['\\', 'u', a, b, c, d], rfl⟩
      exact (ih found.1 found.2).mono ((List.drop_suffix _ _).trans hrest)
  | case6 _ _ c rest _ _ _ _ ih => exact ih.mono ⟨['\\', c], rfl⟩
  | case9 _ _ c rest _ _ _ _ _ _ ih => exact ih.mono (List.suffix_cons _ _)

theorem advances_finishNumber (negative : Bool) (whole : List Char) (cursor : Cursor) :
    Advances cursor.rest (finishNumber negative whole cursor) := by
  unfold finishNumber
  extract_lets part afterPart
  have hpart : afterPart.rest <:+ cursor.rest := by
    simp only [afterPart]
    split
    · exact List.suffix_rfl
    · exact cursor.skip_suffix _
  split
  · split
    · exact .error _
    · exact .ok _ hpart
  · exact .ok _ ((afterPart.skip_suffix _).trans hpart)

theorem advances_readNumber (cursor : Cursor) : Advances cursor.rest (readNumber cursor) := by
  unfold readNumber
  extract_lets negative afterSign whole
  have hsign : afterSign.rest <:+ cursor.rest := by
    simp only [afterSign]
    split
    · exact cursor.skip_suffix _
    · exact List.suffix_rfl
  split
  · exact .error _
  · exact (advances_finishNumber _ _ _).mono ((afterSign.skip_suffix _).trans hsign)

theorem advances_readScalar (cursor : Cursor) : Advances cursor.rest (readScalar cursor) := by
  unfold readScalar
  split
  · exact .ok _ (cursor.skip_suffix _)
  · exact advances_readNumber cursor

theorem advances_readName (cursor : Cursor) : Advances cursor.rest (readName cursor) := by
  unfold readName
  split
  · next rest hrest =>
    rw [hrest]
    refine .bind ((advances_readString _ _ _ rest).mono (List.suffix_cons _ _)) ?_
    intro name next hnext
    dsimp only
    split
    · exact .error _
    · exact .ok _ (next.skipGap.passMark_suffix.trans (next.skipGap_suffix.trans hnext))
  · exact .error _

/-- The readers that call each other, at one amount of fuel. -/
structure ReadersAdvance (fuel : Nat) : Prop where
  value : ∀ room cursor, Advances cursor.rest (readValue fuel room cursor)
  items : ∀ room read cursor, Advances cursor.rest (readItems fuel room read cursor)
  fields : ∀ room read cursor, Advances cursor.rest (readFields fuel room read cursor)

theorem ReadersAdvance.value_step {fuel : Nat} (h : ReadersAdvance fuel) (room : Nat)
    (cursor : Cursor) : Advances cursor.rest (readValue (fuel + 1) room cursor) := by
  have hinside := cursor.passMark_suffix
  unfold readValue
  split
  · next rest hrest =>
    rw [hrest]
    refine .bind ((advances_readString _ _ _ rest).mono (List.suffix_cons _ _)) ?_
    intro text next hnext
    exact .ok _ hnext
  · cases room with
    | zero => exact .error _
    | succ room =>
      dsimp only
      split
      · exact .ok _ ((Cursor.skip_suffix _ _).trans hinside)
      · exact (h.items _ _ _).mono hinside
  · cases room with
    | zero => exact .error _
    | succ room =>
      dsimp only
      split
      · exact .ok _ ((Cursor.skip_suffix _ _).trans hinside)
      · exact (h.fields _ _ _).mono hinside
  · exact advances_readScalar cursor

theorem ReadersAdvance.items_step {fuel : Nat} (h : ReadersAdvance fuel) (room : Nat)
    (read : List Json) (cursor : Cursor) :
    Advances cursor.rest (readItems (fuel + 1) room read cursor) := by
  unfold readItems
  refine .bind (h.value room cursor) ?_
  intro item next hnext
  have hgap := next.skipGap_suffix.trans hnext
  dsimp only
  rcases next.skipGap.goesOn ']' with stop | _ | _
  · exact .error stop
  · exact .ok _ ((Cursor.skip_suffix _ _).trans hgap)
  · exact (h.items _ _ _).mono ((Cursor.passMark_suffix _).trans hgap)

theorem ReadersAdvance.fields_step {fuel : Nat} (h : ReadersAdvance fuel) (room : Nat)
    (read : List (Text × Json)) (cursor : Cursor) :
    Advances cursor.rest (readFields (fuel + 1) room read cursor) := by
  unfold readFields
  refine .bind (advances_readName cursor) ?_
  intro name place hplace
  refine .bind ((h.value room place).mono hplace) ?_
  intro value next hnext
  have hgap := next.skipGap_suffix.trans hnext
  dsimp only
  rcases next.skipGap.goesOn '\x7d' with stop | _ | _
  · exact .error stop
  · exact .ok _ ((Cursor.skip_suffix _ _).trans hgap)
  · exact (h.fields _ _ _).mono ((Cursor.passMark_suffix _).trans hgap)

theorem readersAdvance (fuel : Nat) : ReadersAdvance fuel := by
  induction fuel with
  | zero =>
    constructor
    · intro room cursor
      rw [readValue]
      exact .error _
    · intro room read cursor
      rw [readItems]
      exact .error _
    · intro room read cursor
      rw [readFields]
      exact .error _
  | succ fuel ih => exact ⟨ih.value_step, ih.items_step, ih.fields_step⟩

/-! ## Enough fuel -/

/-- Beyond twice the length of the text, another amount of fuel gives the same answers. -/
structure Settled (fuel : Nat) : Prop where
  value : ∀ other room cursor, 2 * cursor.rest.length + 1 ≤ fuel →
    2 * cursor.rest.length + 1 ≤ other →
    readValue fuel room cursor = readValue other room cursor
  items : ∀ other room read cursor, 2 * cursor.rest.length + 2 ≤ fuel →
    2 * cursor.rest.length + 2 ≤ other →
    readItems fuel room read cursor = readItems other room read cursor
  fields : ∀ other room read cursor, 2 * cursor.rest.length + 2 ≤ fuel →
    2 * cursor.rest.length + 2 ≤ other →
    readFields fuel room read cursor = readFields other room read cursor

theorem Cursor.length_passMark {cursor : Cursor} {mark : Char} {rest : List Char}
    (h : cursor.rest = mark :: rest) : cursor.passMark.rest.length < cursor.rest.length := by
  obtain ⟨offset, cs⟩ := cursor
  subst h
  exact Nat.lt_succ_of_le (skipGap_suffix ⟨offset + 1, rest⟩).length_le

theorem Cursor.goesOn_eq_true {cursor : Cursor} {closing : Char} :
    cursor.goesOn closing = .ok true ↔ ∃ rest, cursor.rest = ',' :: rest := by
  rw [goesOn, ← List.head?_eq_some_iff]
  split
  · next h => simp [h]
  · next h => split <;> simp [h, fail]

theorem Cursor.length_goesOn {cursor : Cursor} {closing : Char}
    (h : cursor.goesOn closing = .ok true) :
    cursor.passMark.rest.length < cursor.rest.length := by
  obtain ⟨rest, hrest⟩ := goesOn_eq_true.1 h
  exact length_passMark hrest

theorem Settled.value_step {fuel : Nat} (h : Settled fuel) (other room : Nat) (cursor : Cursor)
    (hfuel : 2 * cursor.rest.length + 1 ≤ fuel + 1)
    (hother : 2 * cursor.rest.length + 1 ≤ other) :
    readValue (fuel + 1) room cursor = readValue other room cursor := by
  obtain ⟨other, rfl⟩ : ∃ n, other = n + 1 := ⟨other - 1, by omega⟩
  unfold readValue
  split
  · rfl
  · next rest hrest =>
    have hlength := Cursor.length_passMark hrest
    cases room with
    | zero => rfl
    | succ room =>
      dsimp only
      rw [h.items other room [] _ (by omega) (by omega)]
  · next rest hrest =>
    have hlength := Cursor.length_passMark hrest
    cases room with
    | zero => rfl
    | succ room =>
      dsimp only
      rw [h.fields other room [] _ (by omega) (by omega)]
  · rfl

theorem Settled.items_step {fuel : Nat} (h : Settled fuel) (other room : Nat) (read : List Json)
    (cursor : Cursor) (hfuel : 2 * cursor.rest.length + 2 ≤ fuel + 1)
    (hother : 2 * cursor.rest.length + 2 ≤ other) :
    readItems (fuel + 1) room read cursor = readItems other room read cursor := by
  obtain ⟨other, rfl⟩ : ∃ n, other = n + 1 := ⟨other - 1, by omega⟩
  have hvalue := h.value other room cursor (by omega) (by omega)
  have hadvances := (readersAdvance other).value room cursor
  unfold readItems
  rw [hvalue]
  cases hread : readValue other room cursor with
  | error stop => rfl
  | ok found =>
    obtain ⟨item, next⟩ := found
    have hnext := (next.skipGap_suffix.trans (hadvances _ _ hread)).length_le
    simp only [bind, Except.bind]
    cases hmore : next.skipGap.goesOn ']' with
    | error stop => rfl
    | ok more =>
      cases more with
      | false => rfl
      | true =>
        have hlength := Cursor.length_goesOn hmore
        exact h.items other room _ _ (by omega) (by omega)

theorem Settled.fields_step {fuel : Nat} (h : Settled fuel) (other room : Nat)
    (read : List (Text × Json)) (cursor : Cursor)
    (hfuel : 2 * cursor.rest.length + 2 ≤ fuel + 1)
    (hother : 2 * cursor.rest.length + 2 ≤ other) :
    readFields (fuel + 1) room read cursor = readFields other room read cursor := by
  obtain ⟨other, rfl⟩ : ∃ n, other = n + 1 := ⟨other - 1, by omega⟩
  unfold readFields
  cases hname : readName cursor with
  | error stop => rfl
  | ok found =>
    obtain ⟨name, place⟩ := found
    have hplace := (advances_readName cursor _ _ hname).length_le
    have hvalue := h.value other room place (by omega) (by omega)
    have hadvances := (readersAdvance other).value room place
    simp only [bind, Except.bind]
    rw [hvalue]
    cases hread : readValue other room place with
    | error stop => rfl
    | ok found =>
      obtain ⟨value, next⟩ := found
      have hnext := (next.skipGap_suffix.trans (hadvances _ _ hread)).length_le
      dsimp only
      cases hmore : next.skipGap.goesOn '\x7d' with
      | error stop => rfl
      | ok more =>
        cases more with
        | false => rfl
        | true =>
          have hlength := Cursor.length_goesOn hmore
          exact h.fields other room _ _ (by omega) (by omega)

theorem settled (fuel : Nat) : Settled fuel := by
  induction fuel with
  | zero =>
    constructor
    all_goals
      intros
      omega
  | succ fuel ih => exact ⟨ih.value_step, ih.items_step, ih.fields_step⟩

/-! ## Readers without fuel -/

def valueAt (room : Nat) (cursor : Cursor) : Except Stop (Json × Cursor) :=
  readValue cursor.fuel room cursor

def itemsAt (room : Nat) (read : List Json) (cursor : Cursor) : Except Stop (Json × Cursor) :=
  readItems cursor.fuel room read cursor

def fieldsAt (room : Nat) (read : List (Text × Json)) (cursor : Cursor) :
    Except Stop (Json × Cursor) :=
  readFields cursor.fuel room read cursor

theorem Cursor.fuel_le {cursor : Cursor} : 2 * cursor.rest.length + 2 ≤ cursor.fuel :=
  Nat.le_refl _

/-- What follows an item that was read. -/
def itemRest (room : Nat) (read : List Json) : Json × Cursor → Except Stop (Json × Cursor)
  | (item, cursor) => do
    if ← cursor.skipGap.goesOn ']' then itemsAt room (item :: read) cursor.skipGap.passMark
    else return (.array (item :: read).reverse, cursor.skipGap.skip 1)

/-- What follows the value of a field that was read. -/
def fieldRest (room : Nat) (read : List (Text × Json)) (name : Text) :
    Json × Cursor → Except Stop (Json × Cursor)
  | (value, cursor) => do
    let read := Table.insertEntry name value read
    if ← cursor.skipGap.goesOn '\x7d' then fieldsAt room read cursor.skipGap.passMark
    else return (.object read, cursor.skipGap.skip 1)

theorem advances_valueAt (room : Nat) (cursor : Cursor) :
    Advances cursor.rest (valueAt room cursor) :=
  (readersAdvance cursor.fuel).value room cursor

theorem itemsAt_eq (room : Nat) (read : List Json) (cursor : Cursor) :
    itemsAt room read cursor = valueAt room cursor >>= itemRest room read := by
  have hvalue : readValue (2 * cursor.rest.length + 1) room cursor = valueAt room cursor :=
    (settled _).value _ room cursor (by omega) (by simp [Cursor.fuel])
  have hadvances := advances_valueAt room cursor
  unfold itemsAt Cursor.fuel readItems
  rw [hvalue]
  cases hread : valueAt room cursor with
  | error stop => rfl
  | ok found =>
    obtain ⟨item, next⟩ := found
    have hnext := (next.skipGap_suffix.trans (hadvances _ _ hread)).length_le
    simp only [bind, Except.bind, itemRest]
    cases hmore : next.skipGap.goesOn ']' with
    | error stop => rfl
    | ok more =>
      cases more with
      | false => rfl
      | true =>
        have hlength := Cursor.length_goesOn hmore
        exact (settled _).items _ room _ _ (by omega) Cursor.fuel_le

theorem fieldsAt_eq (room : Nat) (read : List (Text × Json)) (cursor : Cursor) :
    fieldsAt room read cursor =
      readName cursor >>= fun (name, place) => valueAt room place >>= fieldRest room read name := by
  unfold fieldsAt Cursor.fuel readFields
  cases hname : readName cursor with
  | error stop => rfl
  | ok found =>
    obtain ⟨name, place⟩ := found
    have hplace := (advances_readName cursor _ _ hname).length_le
    have hvalue : readValue (2 * cursor.rest.length + 1) room place = valueAt room place :=
      (settled _).value _ room place (by omega) (by simp [Cursor.fuel])
    have hadvances := advances_valueAt room place
    simp only [bind, Except.bind]
    rw [hvalue]
    cases hread : valueAt room place with
    | error stop => rfl
    | ok found =>
      obtain ⟨value, next⟩ := found
      have hnext := (next.skipGap_suffix.trans (hadvances _ _ hread)).length_le
      simp only [fieldRest, bind, Except.bind]
      cases hmore : next.skipGap.goesOn '\x7d' with
      | error stop => rfl
      | ok more =>
        cases more with
        | false => rfl
        | true =>
          have hlength := Cursor.length_goesOn hmore
          exact (settled _).fields _ room _ _ (by omega) Cursor.fuel_le

theorem valueAt_array {cursor : Cursor} {rest : List Char} (h : cursor.rest = '[' :: rest)
    (room : Nat) :
    valueAt (room + 1) cursor =
      if cursor.passMark.rest.head? = some ']' then .ok (.array [], cursor.passMark.skip 1)
      else itemsAt room [] cursor.passMark := by
  have hlength := Cursor.length_passMark h
  unfold valueAt Cursor.fuel readValue
  simp only [h]
  rw [(settled _).items cursor.passMark.fuel room [] cursor.passMark (by rw [h] at hlength; omega)
    Cursor.fuel_le]
  rfl

theorem valueAt_object {cursor : Cursor} {rest : List Char} (h : cursor.rest = '\x7b' :: rest)
    (room : Nat) :
    valueAt (room + 1) cursor =
      if cursor.passMark.rest.head? = some '\x7d' then .ok (.object [], cursor.passMark.skip 1)
      else fieldsAt room [] cursor.passMark := by
  have hlength := Cursor.length_passMark h
  unfold valueAt Cursor.fuel readValue
  simp only [h]
  rw [(settled _).fields cursor.passMark.fuel room [] cursor.passMark (by rw [h] at hlength; omega)
    Cursor.fuel_le]
  rfl

theorem valueAt_scalar {cursor : Cursor} (hstring : ∀ rest, cursor.rest ≠ '"' :: rest)
    (harray : ∀ rest, cursor.rest ≠ '[' :: rest)
    (hobject : ∀ rest, cursor.rest ≠ '\x7b' :: rest) (room : Nat) :
    valueAt room cursor = readScalar cursor := by
  unfold valueAt Cursor.fuel readValue
  split
  · next h => exact absurd h (hstring _)
  · next h => exact absurd h (harray _)
  · next h => exact absurd h (hobject _)
  · rfl

end TokenTape.Json
