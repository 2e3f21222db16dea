import Mathlib
import TokenTape.Proofs.Overflow
import TokenTape.Proofs.ProgramFile

/-!
# The format of programs

Which values are programs, and what is wrong with one that is none, are said here apart from the
decoder. The decoder accepts exactly the first, and reports the first offence of the others.
-/

namespace TokenTape

/-! ## Rows -/

section Rows

variable {ε α β : Type}

/-- A computation succeeds as one relation says, and fails as another one says. -/
structure Decides (x : Except ε α) (good : α → Prop) (bad : ε → Prop) : Prop where
  ok_iff : ∀ a, x = .ok a ↔ good a
  error_iff : ∀ e, x = .error e ↔ bad e

theorem Decides.of_total {x : Except ε α} {good : α → Prop} {bad : ε → Prop}
    (hgood : ∀ a, good a → x = .ok a) (hbad : ∀ e, bad e → x = .error e)
    (htotal : (∃ a, good a) ∨ ∃ e, bad e) : Decides x good bad := by
  constructor
  · refine fun a => ⟨fun ha => ?_, hgood a⟩
    rcases htotal with ⟨b, hb⟩ | ⟨e, he⟩
    · cases ha.symm.trans (hgood b hb)
      exact hb
    · cases ha.symm.trans (hbad e he)
  · refine fun e => ⟨fun he => ?_, hbad e⟩
    rcases htotal with ⟨b, hb⟩ | ⟨f, hf⟩
    · cases he.symm.trans (hgood b hb)
    · cases he.symm.trans (hbad f hf)
      exact hf

theorem Decides.total {x : Except ε α} {good : α → Prop} {bad : ε → Prop}
    (h : Decides x good bad) : (∃ a, good a) ∨ ∃ e, bad e := by
  cases x with
  | ok a => exact .inl ⟨a, (h.ok_iff a).1 rfl⟩
  | error e => exact .inr ⟨e, (h.error_iff e).1 rfl⟩

theorem Decides.map {x : Except ε α} {good : α → Prop} {bad : ε → Prop} (h : Decides x good bad)
    (f : α → β) : Decides (x.map f) (fun b => ∃ a, good a ∧ b = f a) bad := by
  constructor
  · intro b
    simp only [← h.ok_iff]
    cases x <;> simp [Except.map, eq_comm]
  · intro e
    rw [← h.error_iff]
    cases x <;> simp [Except.map]

/-- The members of a row are good up to one that is bad. -/
def FirstBad (good : α → β → Prop) (bad : α → ε → Prop) (xs : List α) (e : ε) : Prop :=
  ∃ before x behind, xs = before ++ x :: behind ∧ (∀ y ∈ before, ∃ b, good y b) ∧ bad x e

theorem firstBad_cons {good : α → β → Prop} {bad : α → ε → Prop} {x : α} {xs : List α} {e : ε} :
    FirstBad good bad (x :: xs) e ↔ bad x e ∨ (∃ b, good x b) ∧ FirstBad good bad xs e := by
  constructor
  · rintro ⟨before, y, behind, heq, hbefore, hy⟩
    cases before with
    | nil =>
      cases heq
      exact .inl hy
    | cons z before =>
      cases heq
      rw [List.forall_mem_cons] at hbefore
      exact .inr ⟨hbefore.1, before, y, behind, rfl, hbefore.2, hy⟩
  · rintro (hx | ⟨hx, before, y, behind, rfl, hbefore, hy⟩)
    · exact ⟨[], x, xs, rfl, by simp, hx⟩
    · exact ⟨x :: before, y, behind, rfl, List.forall_mem_cons.2 ⟨hx, hbefore⟩, hy⟩

theorem Decides.mapM {f : α → Except ε β} {good : α → β → Prop} {bad : α → ε → Prop}
    (h : ∀ x, Decides (f x) (good x) (bad x)) (xs : List α) :
    Decides (xs.mapM f) (List.Forall₂ good xs) (FirstBad good bad xs) := by
  constructor
  · intro ys
    rw [mapM_eq_ok_iff]
    simp only [(h _).ok_iff]
  · intro e
    induction xs with
    | nil => simp [FirstBad, pure, Except.pure]
    | cons x xs ih =>
      rw [List.mapM_cons, firstBad_cons, ← ih]
      simp only [← (h x).ok_iff, ← (h x).error_iff]
      cases f x with
      | error e' => simp [bind, Except.bind]
      | ok y => cases xs.mapM f <;> simp [bind, Except.bind, pure, Except.pure]

end Rows

/-! ## Numbers -/

namespace Json

/-- The value stands for a number. -/
inductive Denotes : Json → Binary64 → Prop
  | integer {n : Int} (h : n.natAbs < Binary64.integerLimit) : Denotes (.integer n) (.ofInt n)
  | number (x : Binary64) : Denotes (.number x) x
  | string {text : String} {x : Binary64} (h : Binary64.read? text = some x) :
      Denotes (.string text) x

/-- What is wrong with a value that stands for no number. -/
inductive Unusable : Json → NumberError → Prop
  | null : Unusable .null (.wrongType "NoneType")
  | bool (value : Bool) : Unusable (.bool value) (.wrongType "bool")
  | array (items : List Json) : Unusable (.array items) (.wrongType "list")
  | object (fields : List (Text × Json)) : Unusable (.object fields) (.wrongType "dict")
  | string {text : Text} (h : ∀ s : String, text = s → Binary64.read? s = none) :
      Unusable (.string text) (.unreadable text)
  | integer {n : Int} (h : Binary64.integerLimit ≤ n.natAbs) : Unusable (.integer n) .tooLarge

theorem numberOfText_eq_error {text : Text}
    (h : ∀ s : String, text = s → Binary64.read? s = none) :
    numberOfText text = .error (.unreadable text) := by
  unfold numberOfText
  cases hs : text.toString? with
  | none => rfl
  | some s => rw [Option.bind_some, h s (Text.toString?_eq_some.1 hs), Option.elim_none]

theorem decides_toNumber (value : Json) : Decides value.toNumber value.Denotes value.Unusable := by
  apply Decides.of_total
  · rintro x (⟨h⟩ | _ | ⟨h⟩)
    · simp [toNumber, Binary64.ofInt?_eq, h]
    · rfl
    · simp [toNumber, numberOfText, h]
  · rintro e (_ | _ | _ | _ | ⟨h⟩ | ⟨h⟩)
    · rfl
    · rfl
    · rfl
    · rfl
    · exact numberOfText_eq_error h
    · simp [toNumber, Binary64.ofInt?_eq, Nat.not_lt.2 h]
  · cases value with
    | null => exact .inr ⟨_, .null⟩
    | bool b => exact .inr ⟨_, .bool b⟩
    | array items => exact .inr ⟨_, .array items⟩
    | object fields => exact .inr ⟨_, .object fields⟩
    | number x => exact .inl ⟨_, .number x⟩
    | integer n =>
      rcases Nat.lt_or_ge n.natAbs Binary64.integerLimit with h | h
      · exact .inl ⟨_, .integer h⟩
      · exact .inr ⟨_, .integer h⟩
    | string text =>
      by_cases h : ∃ (s : String) (x : Binary64), text = s ∧ Binary64.read? s = some x
      · obtain ⟨s, x, rfl, hx⟩ := h
        exact .inl ⟨x, .string hx⟩
      · refine .inr ⟨_, .string fun s hs => Option.eq_none_iff_forall_ne_some.2 fun x hx => ?_⟩
        exact h ⟨s, x, hs, hx⟩

theorem typeName?_eq_some {value : Json} {name : String} :
    value.typeName? = some name ↔ value.field? "type" = some (.string name) := by
  unfold typeName?
  split
  · next text htype => rw [htype, Option.some_inj, string.injEq, Text.toString?_eq_some]
  · next h =>
    refine iff_of_false nofun fun htype => ?_
    exact h _ htype

end Json

/-- How an unusable number is reported. An integer that is too large is no error of the format. -/
def ProgramError.ofNumber (offence : Json.NumberError → FormatError) :
    Json.NumberError → ProgramError
  | .tooLarge => .integerTooLarge
  | cause => .format (offence cause)

/-- A value as such is too large, or it is malformed. -/
def ProgramError.OfValue (e : ProgramError) : Prop :=
  e = .integerTooLarge ∨ ∃ offence, e = .format offence

theorem ProgramError.ofValue_ofNumber (offence : Json.NumberError → FormatError)
    (cause : Json.NumberError) : (ofNumber offence cause).OfValue := by
  cases cause with
  | tooLarge => exact .inl rfl
  | wrongType type => exact .inr ⟨_, rfl⟩
  | unreadable text => exact .inr ⟨_, rfl⟩

theorem decides_decodeNumber (offence : Json.NumberError → FormatError) (value : Json) :
    Decides (decodeNumber offence value) value.Denotes
      (fun e => ∃ cause, value.Unusable cause ∧ e = .ofNumber offence cause) := by
  have h := value.decides_toNumber
  unfold decodeNumber
  apply Decides.of_total
  · intro x hx
    rw [(h.ok_iff x).2 hx]
  · rintro _ ⟨cause, hcause, rfl⟩
    rw [(h.error_iff cause).2 hcause]
    cases cause <;> rfl
  · refine h.total.imp_right ?_
    rintro ⟨cause, hcause⟩
    exact ⟨_, cause, hcause, rfl⟩

/-! ## Tokens -/

namespace Token

/-- The value is an object that holds a token. Fields that its type does not ask for are ignored. -/
inductive Encodes (value : Json) : Token → Prop
  | number {field : Json} {x : Binary64} (htype : value.field? "type" = some (.string "Number"))
      (hfield : value.field? "value" = some field) (h : field.Denotes x) :
      Encodes value (.number x)
  | reference {name : Text} (htype : value.field? "type" = some (.string "Variable"))
      (hfield : value.field? "name" = some (.string name)) (h : name ≠ "") :
      Encodes value (.reference name)
  | operator {kind : Operator} (htype : value.field? "type" = some (.string "Operator"))
      (hfield : value.field? "kind" = some (.string kind.name)) : Encodes value (.operator kind)
  | control {kind : Control} (htype : value.field? "type" = some (.string "Control"))
      (hfield : value.field? "kind" = some (.string kind.name)) : Encodes value (.control kind)

/-- The types of tokens, each with the field that it asks for. -/
def requiredFields : List (String × String) :=
  [("Number", "value"), ("Variable", "name"), ("Operator", "kind"), ("Control", "kind")]

theorem mem_requiredFields {type field : String} :
    (type, field) ∈ requiredFields ↔
      type = "Number" ∧ field = "value" ∨ type = "Variable" ∧ field = "name" ∨
        type = "Operator" ∧ field = "kind" ∨ type = "Control" ∧ field = "kind" := by
  simp [requiredFields]

/-- What is wrong with a value that holds no token. -/
inductive Offends (value : Json) : ProgramError → Prop
  | notObject (h : ∀ fields, value ≠ .object fields) : Offends value (.format (.notToken value))
  | unknownType {fields : List (Text × Json)} (hobject : value = .object fields)
      (h : ∀ type field, (type, field) ∈ requiredFields →
        value.field? "type" ≠ some (.string type)) :
      Offends value (.format (.unknownType ((value.field? "type").getD .null)))
  | missingField {type field : String} (hmem : (type, field) ∈ requiredFields)
      (htype : value.field? "type" = some (.string type)) (h : value.field? field = none) :
      Offends value (.format (.missingField type field))
  | number {field : Json} {cause : Json.NumberError}
      (htype : value.field? "type" = some (.string "Number"))
      (hfield : value.field? "value" = some field) (h : field.Unusable cause) :
      Offends value (.ofNumber .invalidNumber cause)
  | name {field : Json} (htype : value.field? "type" = some (.string "Variable"))
      (hfield : value.field? "name" = some field) (h : ∀ name, field = .string name → name = "") :
      Offends value (.format (.invalidName field))
  | operator {field : Json} (htype : value.field? "type" = some (.string "Operator"))
      (hfield : value.field? "kind" = some field)
      (h : ∀ kind : Operator, field ≠ .string kind.name) :
      Offends value (.format (.unknownOperator field))
  | control {field : Json} (htype : value.field? "type" = some (.string "Control"))
      (hfield : value.field? "kind" = some field)
      (h : ∀ kind : Control, field ≠ .string kind.name) :
      Offends value (.format (.unknownControl field))

theorem decides_decodeName (value : Json) :
    Decides (decodeName value) (fun name => value = .string name ∧ name ≠ "")
      (fun e => (∀ name, value = .string name → name = "") ∧ e = .format (.invalidName value)) := by
  unfold decodeName
  split
  · next name =>
    by_cases h : name = ""
    · simp only [if_pos h]
      constructor <;> simp [h, eq_comm]
    · simp only [if_neg h]
      constructor <;> simp [h, eq_comm]
  · next h => constructor <;> grind

theorem decides_decodeKind {α : Type} {ofName? : Text → Option α} {name : α → String}
    (h : ∀ text kind, ofName? text = some kind ↔ text = name kind)
    (offence : Json → FormatError) (value : Json) :
    Decides (decodeKind ofName? offence value) (fun kind => value = .string (name kind))
      (fun e => (∀ kind, value ≠ .string (name kind)) ∧ e = .format (offence value)) := by
  unfold decodeKind
  split
  · next text =>
    cases hkind : ofName? text with
    | none =>
      have hnone (kind : α) : text ≠ name kind := by simp [← h, hkind]
      constructor <;> simp [hnone, eq_comm]
    | some kind =>
      obtain rfl := (h text kind).1 hkind
      constructor <;> simp [← h, hkind]
  · next h => constructor <;> grind

theorem ofName?_operator (text : Text) (kind : Operator) :
    Operator.ofName? text = some kind ↔ text = kind.name := by
  constructor
  · intro h
    have hname := List.find?_some (p := fun kind : Operator => decide ((kind.name : Text) = text)) h
    exact (of_decide_eq_true hname).symm
  · rintro rfl
    cases kind <;> rfl

theorem ofName?_control (text : Text) (kind : Control) :
    Control.ofName? text = some kind ↔ text = kind.name := by
  constructor
  · intro h
    have hname := List.find?_some (p := fun kind : Control => decide ((kind.name : Text) = text)) h
    exact (of_decide_eq_true hname).symm
  · rintro rfl
    cases kind <;> rfl

theorem exists_object {value field : Json} {name : Text} (h : value.field? name = some field) :
    ∃ fields, value = .object fields := by
  cases value <;> simp [Json.field?] at h ⊢

theorem ofJson_eq {value field : Json} {type name : String} (hmem : (type, name) ∈ requiredFields)
    (htype : value.field? "type" = some (.string type)) (hfield : value.field? name = some field) :
    ofJson value =
      if type = "Number" then (decodeNumber .invalidNumber field).map .number
      else if type = "Variable" then (decodeName field).map .reference
      else if type = "Operator" then
        (decodeKind Operator.ofName? .unknownOperator field).map .operator
      else (decodeKind Control.ofName? .unknownControl field).map .control := by
  obtain ⟨fields, rfl⟩ := exists_object htype
  rw [← Json.typeName?_eq_some] at htype
  rcases mem_requiredFields.1 hmem with ⟨rfl, rfl⟩ | ⟨rfl, rfl⟩ | ⟨rfl, rfl⟩ | ⟨rfl, rfl⟩ <;>
    simp [ofJson, htype, requireField, hfield] <;> rfl

theorem ofJson_of_encodes {value : Json} {token : Token} (h : Encodes value token) :
    ofJson value = .ok token := by
  cases h with
  | number htype hfield h =>
    rw [ofJson_eq (by simp [requiredFields]) htype hfield, if_pos rfl,
      ((decides_decodeNumber _ _).ok_iff _).2 h]
    rfl
  | reference htype hfield h =>
    rw [ofJson_eq (by simp [requiredFields]) htype hfield, if_neg (by simp), if_pos rfl,
      ((decides_decodeName _).ok_iff _).2 ⟨rfl, h⟩]
    rfl
  | operator htype hfield =>
    rw [ofJson_eq (by simp [requiredFields]) htype hfield, if_neg (by simp), if_neg (by simp),
      if_pos rfl, ((decides_decodeKind ofName?_operator _ _).ok_iff _).2 rfl]
    rfl
  | control htype hfield =>
    rw [ofJson_eq (by simp [requiredFields]) htype hfield, if_neg (by simp), if_neg (by simp),
      if_neg (by simp), ((decides_decodeKind ofName?_control _ _).ok_iff _).2 rfl]
    rfl

theorem ofJson_of_offends {value : Json} {e : ProgramError} (h : Offends value e) :
    ofJson value = .error e := by
  cases h with
  | notObject h =>
    unfold ofJson
    split
    · next fields => exact absurd rfl (h fields)
    · rfl
  | unknownType hobject h =>
    subst hobject
    simp only [ne_eq, ← Json.typeName?_eq_some] at h
    simp only [ofJson]
    split
    · next htype => exact absurd htype (h "Number" "value" (by simp [requiredFields]))
    · next htype => exact absurd htype (h "Variable" "name" (by simp [requiredFields]))
    · next htype => exact absurd htype (h "Operator" "kind" (by simp [requiredFields]))
    · next htype => exact absurd htype (h "Control" "kind" (by simp [requiredFields]))
    · rfl
  | missingField hmem htype h =>
    obtain ⟨fields, rfl⟩ := exists_object htype
    rw [← Json.typeName?_eq_some] at htype
    rcases mem_requiredFields.1 hmem with ⟨rfl, rfl⟩ | ⟨rfl, rfl⟩ | ⟨rfl, rfl⟩ | ⟨rfl, rfl⟩ <;>
      simp [ofJson, htype, requireField, h, bind, Except.bind]
  | number htype hfield h =>
    rw [ofJson_eq (by simp [requiredFields]) htype hfield, if_pos rfl,
      ((decides_decodeNumber _ _).error_iff _).2 ⟨_, h, rfl⟩]
    rfl
  | name htype hfield h =>
    rw [ofJson_eq (by simp [requiredFields]) htype hfield, if_neg (by simp), if_pos rfl,
      ((decides_decodeName _).error_iff _).2 ⟨h, rfl⟩]
    rfl
  | operator htype hfield h =>
    rw [ofJson_eq (by simp [requiredFields]) htype hfield, if_neg (by simp), if_neg (by simp),
      if_pos rfl, ((decides_decodeKind ofName?_operator _ _).error_iff _).2 ⟨h, rfl⟩]
    rfl
  | control htype hfield h =>
    rw [ofJson_eq (by simp [requiredFields]) htype hfield, if_neg (by simp), if_neg (by simp),
      if_neg (by simp), ((decides_decodeKind ofName?_control _ _).error_iff _).2 ⟨h, rfl⟩]
    rfl

theorem encodes_or_offends (value : Json) :
    (∃ token, Encodes value token) ∨ ∃ e, Offends value e := by
  by_cases hobject : ∃ fields, value = .object fields
  · obtain ⟨fields, hobject⟩ := hobject
    by_cases htype : ∃ type name, (type, name) ∈ requiredFields ∧
        value.field? "type" = some (.string type)
    · obtain ⟨type, name, hmem, htype⟩ := htype
      cases hfield : value.field? name with
      | none => exact .inr ⟨_, .missingField hmem htype hfield⟩
      | some field =>
        rcases mem_requiredFields.1 hmem with ⟨rfl, rfl⟩ | ⟨rfl, rfl⟩ | ⟨rfl, rfl⟩ | ⟨rfl, rfl⟩
        · rcases field.decides_toNumber.total with ⟨x, h⟩ | ⟨cause, h⟩
          · exact .inl ⟨_, .number htype hfield h⟩
          · exact .inr ⟨_, .number htype hfield h⟩
        · rcases (decides_decodeName field).total with ⟨name, rfl, h⟩ | ⟨e, h, -⟩
          · exact .inl ⟨_, .reference htype hfield h⟩
          · exact .inr ⟨_, .name htype hfield h⟩
        · rcases (decides_decodeKind ofName?_operator .unknownOperator field).total with
            ⟨kind, rfl⟩ | ⟨e, h, -⟩
          · exact .inl ⟨_, .operator htype hfield⟩
          · exact .inr ⟨_, .operator htype hfield h⟩
        · rcases (decides_decodeKind ofName?_control .unknownControl field).total with
            ⟨kind, rfl⟩ | ⟨e, h, -⟩
          · exact .inl ⟨_, .control htype hfield⟩
          · exact .inr ⟨_, .control htype hfield h⟩
    · exact .inr ⟨_, .unknownType hobject fun type name hmem h => htype ⟨type, name, hmem, h⟩⟩
  · exact .inr ⟨_, .notObject fun fields h => hobject ⟨fields, h⟩⟩

theorem decides_ofJson (value : Json) : Decides (ofJson value) (Encodes value) (Offends value) :=
  .of_total (fun _ => ofJson_of_encodes) (fun _ => ofJson_of_offends) (encodes_or_offends value)

theorem Offends.ofValue {value : Json} {e : ProgramError} (h : Offends value e) : e.OfValue := by
  cases h with
  | number => exact ProgramError.ofValue_ofNumber _ _
  | notObject | unknownType | missingField | name | operator | control => exact .inr ⟨_, rfl⟩

end Token

/-! ## Programs -/

namespace Program

/-- The field holds a variable of its name. -/
def FieldEncodes (field : Text × Json) (entry : Text × Binary64) : Prop :=
  field.1 = entry.1 ∧ field.2.Denotes entry.2

def FieldOffends (field : Text × Json) (e : ProgramError) : Prop :=
  ∃ cause, field.2.Unusable cause ∧ e = .ofNumber (.invalidVariable field.1) cause

/-- A value with a list of tokens and an object of variables, where a program has them. -/
inductive Shape (value : Json) : List Json → List (Text × Json) → Prop
  | bare {items : List Json} (h : value = .array items) : Shape value items []
  | whole {items : List Json} {fields : List (Text × Json)}
      (htype : value.field? "type" = some (.string "Program"))
      (hitems : (value.field? "tokens").getD (.array []) = .array items)
      (hfields : (value.field? "variables").getD (.object []) = .object fields) :
      Shape value items fields

/-- The value holds the program, token for token and variable for variable. If a name came twice, it
would count as in any table. -/
def Encodes (value : Json) (program : Program) : Prop :=
  ∃ items fields entries, Shape value items fields ∧
    List.Forall₂ Token.Encodes items program.tokens ∧
    List.Forall₂ FieldEncodes fields entries ∧ program.store = Table.ofList entries

/-- What is the first thing wrong with a value that holds no program. -/
inductive Offends (value : Json) : ProgramError → Prop
  | notProgram (harray : ∀ items, value ≠ .array items)
      (htype : value.field? "type" ≠ some (.string "Program")) :
      Offends value (.format .notProgram)
  | tokensNotList (htype : value.field? "type" = some (.string "Program"))
      (h : ∀ items, (value.field? "tokens").getD (.array []) ≠ .array items) :
      Offends value (.format .tokensNotList)
  | variablesNotObject {items : List Json}
      (htype : value.field? "type" = some (.string "Program"))
      (hitems : (value.field? "tokens").getD (.array []) = .array items)
      (h : ∀ fields, (value.field? "variables").getD (.object []) ≠ .object fields) :
      Offends value (.format .variablesNotObject)
  | token {items : List Json} {fields : List (Text × Json)} {e : ProgramError}
      (hshape : Shape value items fields)
      (h : FirstBad Token.Encodes Token.Offends items e) : Offends value e
  | field {items : List Json} {fields : List (Text × Json)} {tokens : List Token}
      {e : ProgramError} (hshape : Shape value items fields)
      (htokens : List.Forall₂ Token.Encodes items tokens)
      (h : FirstBad FieldEncodes FieldOffends fields e) : Offends value e

theorem decodeStore_eq (fields : List (Text × Json)) :
    decodeStore fields =
      (fields.mapM fun field =>
        (decodeNumber (.invalidVariable field.1) field.2).map (field.1, ·)).map Table.ofList := by
  unfold decodeStore Table.ofList
  generalize (Table.empty : Store) = store
  induction fields generalizing store with
  | nil => rfl
  | cons field rest ih =>
    obtain ⟨name, value⟩ := field
    rw [List.foldlM_cons, List.mapM_cons]
    dsimp only
    cases decodeNumber (.invalidVariable name) value with
    | error e => rfl
    | ok x =>
      refine (ih (store.insert name x)).trans ?_
      cases rest.mapM fun field =>
        (decodeNumber (.invalidVariable field.1) field.2).map (field.1, ·) <;> rfl

theorem decides_decodeStore (fields : List (Text × Json)) :
    Decides (decodeStore fields)
      (fun store => ∃ entries, List.Forall₂ FieldEncodes fields entries ∧
        store = Table.ofList entries)
      (FirstBad FieldEncodes FieldOffends fields) := by
  have hfield (field : Text × Json) :
      Decides ((decodeNumber (.invalidVariable field.1) field.2).map (field.1, ·))
        (FieldEncodes field) (FieldOffends field) := by
    have h := (decides_decodeNumber (.invalidVariable field.1) field.2).map (field.1, ·)
    refine ⟨fun entry => (h.ok_iff entry).trans ?_, h.error_iff⟩
    obtain ⟨name, x⟩ := entry
    simp [FieldEncodes, eq_comm, and_comm]
  rw [decodeStore_eq]
  exact (Decides.mapM hfield fields).map Table.ofList

theorem ofJson_of_shape {value : Json} {items : List Json} {fields : List (Text × Json)}
    (h : Shape value items fields) :
    ofJson value =
      (items.mapM Token.ofJson >>= fun tokens => (decodeStore fields).map (⟨tokens, ·⟩)) := by
  cases h with
  | bare h =>
    subst h
    rfl
  | whole htype hitems hfields =>
    obtain ⟨object, rfl⟩ := Token.exists_object htype
    rw [← Json.typeName?_eq_some] at htype
    simp only [ofJson, htype, hitems, hfields]
    cases items.mapM Token.ofJson with
    | error e => rfl
    | ok tokens => cases decodeStore fields <;> rfl

theorem ofJson_of_encodes {value : Json} {program : Program} (h : Encodes value program) :
    ofJson value = .ok program := by
  obtain ⟨items, fields, entries, hshape, htokens, hentries, hstore⟩ := h
  have htokens := ((Decides.mapM Token.decides_ofJson items).ok_iff _).2 htokens
  have hstore := ((decides_decodeStore fields).ok_iff _).2 ⟨entries, hentries, hstore⟩
  rw [ofJson_of_shape hshape, htokens, hstore]
  rfl

theorem ofJson_of_offends {value : Json} {e : ProgramError} (h : Offends value e) :
    ofJson value = .error e := by
  cases h with
  | notProgram harray htype =>
    unfold ofJson
    split
    · next items => exact absurd rfl (harray items)
    · split
      · next h => exact absurd (Json.typeName?_eq_some.1 h) htype
      · rfl
    · rfl
  | tokensNotList htype h =>
    obtain ⟨object, rfl⟩ := Token.exists_object htype
    rw [← Json.typeName?_eq_some] at htype
    simp only [ofJson, htype]
    split
    · next items _ hitems _ => exact absurd hitems (h items)
    · next items hitems _ => exact absurd hitems (h items)
    · rfl
  | variablesNotObject htype hitems h =>
    obtain ⟨object, rfl⟩ := Token.exists_object htype
    rw [← Json.typeName?_eq_some] at htype
    simp only [ofJson, htype, hitems]
  | token hshape h =>
    rw [ofJson_of_shape hshape, ((Decides.mapM Token.decides_ofJson _).error_iff _).2 h]
    rfl
  | field hshape htokens h =>
    have htokens := ((Decides.mapM Token.decides_ofJson _).ok_iff _).2 htokens
    rw [ofJson_of_shape hshape, htokens, ((decides_decodeStore _).error_iff _).2 h]
    rfl

theorem encodes_or_offends (value : Json) :
    (∃ program, Encodes value program) ∨ ∃ e, Offends value e := by
  -- Where the shape is right, the tokens and the variables decide
  have hshaped {items : List Json} {fields : List (Text × Json)}
      (hshape : Shape value items fields) :
      (∃ program, Encodes value program) ∨ ∃ e, Offends value e := by
    rcases (Decides.mapM Token.decides_ofJson items).total with ⟨tokens, htokens⟩ | ⟨e, he⟩
    · rcases (decides_decodeStore fields).total with ⟨store, entries, hentries, hstore⟩ | ⟨e, he⟩
      · exact .inl ⟨⟨tokens, store⟩, items, fields, entries, hshape, htokens, hentries, hstore⟩
      · exact .inr ⟨e, .field hshape htokens he⟩
    · exact .inr ⟨e, .token hshape he⟩
  by_cases harray : ∃ items, value = .array items
  · obtain ⟨items, harray⟩ := harray
    exact hshaped (.bare harray)
  by_cases htype : value.field? "type" = some (.string "Program")
  · by_cases hitems : ∃ items, (value.field? "tokens").getD (.array []) = .array items
    · obtain ⟨items, hitems⟩ := hitems
      by_cases hfields : ∃ fields, (value.field? "variables").getD (.object []) = .object fields
      · obtain ⟨fields, hfields⟩ := hfields
        exact hshaped (.whole htype hitems hfields)
      · exact .inr ⟨_, .variablesNotObject htype hitems fun fields h => hfields ⟨fields, h⟩⟩
    · exact .inr ⟨_, .tokensNotList htype fun items h => hitems ⟨items, h⟩⟩
  · exact .inr ⟨_, .notProgram (fun items h => harray ⟨items, h⟩) htype⟩

theorem decides_ofJson (value : Json) : Decides (ofJson value) (Encodes value) (Offends value) :=
  .of_total (fun _ => ofJson_of_encodes) (fun _ => ofJson_of_offends) (encodes_or_offends value)

theorem Offends.ofValue {value : Json} {e : ProgramError} (h : Offends value e) : e.OfValue := by
  cases h with
  | token _ h =>
    obtain ⟨_, item, _, -, -, h⟩ := h
    exact h.ofValue
  | field _ _ h =>
    obtain ⟨_, field, _, -, -, cause, -, rfl⟩ := h
    exact ProgramError.ofValue_ofNumber _ _
  | notProgram | tokensNotList | variablesNotObject => exact .inr ⟨_, rfl⟩

theorem entries_ofList {fields : List (Text × Json)} {entries : List (Text × Binary64)}
    (h : List.Forall₂ FieldEncodes fields entries) (hnames : (fields.map Prod.fst).Nodup) :
    (Table.ofList entries).entries = entries := by
  have heq : fields.map Prod.fst = entries.map Prod.fst := by
    rw [← List.forall₂_eq_eq_eq, List.forall₂_map_left_iff, List.forall₂_map_right_iff]
    exact h.imp fun _ _ h => h.1
  exact Table.entries_insertAll Table.empty (heq ▸ hnames)

theorem forall₂_entries {value : Json} {items : List Json} {fields : List (Text × Json)}
    {program : Program} (hshape : Shape value items fields) (hnames : (fields.map Prod.fst).Nodup)
    (h : ofJson value = .ok program) : List.Forall₂ FieldEncodes fields program.store.entries := by
  rw [ofJson_of_shape hshape] at h
  obtain ⟨tokens, -, h⟩ := exists_of_bind_ok h
  cases hstore : decodeStore fields with
  | error e =>
    rw [hstore] at h
    cases h
  | ok store =>
    rw [hstore] at h
    cases h
    obtain ⟨entries, hentries, rfl⟩ := ((decides_decodeStore fields).ok_iff store).1 hstore
    rwa [entries_ofList hentries hnames]

/-- The decoder accepts exactly the values that hold a program, and returns that program, its
variables in the order of their fields. Of any other value it reports the first offence, which is an
error of the format unless it is an integer that is too large. -/
theorem ofJson_iff (value : Json) :
    (∀ program, ofJson value = .ok program ↔ Encodes value program) ∧
      (∀ items fields program, Shape value items fields → (fields.map Prod.fst).Nodup →
        ofJson value = .ok program → List.Forall₂ FieldEncodes fields program.store.entries) ∧
      (∀ e, ofJson value = .error e ↔ Offends value e) ∧
      ∀ e, ofJson value = .error e → e = .integerTooLarge ∨ ∃ offence, e = .format offence := by
  have h := decides_ofJson value
  refine ⟨h.ok_iff, fun _ _ _ => forall₂_entries, h.error_iff, fun e he => ?_⟩
  exact ((h.error_iff e).1 he).ofValue

theorem ofJson_iff_variables :
    let item : Json := .object [("type", .string "Number"), ("value", .string " -2_5e-1\n")]
    let fields : List (Text × Json) :=
      [("b", .integer (-3)), ("", .number .nan), ("é", .string "+.5")]
    let value : Json := .object [("variables", .object fields), ("tokens", .array [item]),
      ("type", .string "Program")]
    let entries : List (Text × Binary64) :=
      [("b", .ofInt (-3)), ("", .nan), ("é", .ofDecimal false ⟨5, -1⟩)]
    ofJson value = .ok ⟨[.number (.ofDecimal true ⟨25, -1⟩)], Table.ofList entries⟩ ∧
      List.Forall₂ FieldEncodes fields (Table.ofList entries).entries := by
  intro item fields value entries
  have hshape : Shape value [item] fields := .whole rfl rfl rfl
  have hitem : Token.Encodes item (.number (.ofDecimal true ⟨25, -1⟩)) :=
    .number rfl rfl (.string (by decide +kernel))
  have hentries : List.Forall₂ FieldEncodes fields entries :=
    .cons ⟨rfl, .integer (by decide +kernel)⟩ (.cons ⟨rfl, .number _⟩
      (.cons ⟨rfl, .string (by decide +kernel)⟩ .nil))
  have hencodes : Encodes value ⟨[.number (.ofDecimal true ⟨25, -1⟩)], Table.ofList entries⟩ :=
    ⟨[item], fields, entries, hshape, .cons hitem .nil, hentries, rfl⟩
  have hprogram := ((ofJson_iff value).1 _).2 hencodes
  exact ⟨hprogram, (ofJson_iff value).2.1 [item] fields _ hshape (by decide) hprogram⟩

end Program

end TokenTape
