import TokenTape.Program.Basic

/-!
# Decoding programs

A program is an object of type `Program` with a list of tokens and an object of variables, either of
which may be left out, or just a list of tokens. The shape of the whole comes first, then the tokens
and then the variables, each from left to right; the first offence is the one that is reported.
-/

namespace TokenTape

/-- A number, with the name that an unusable one gets as an offence. An integer beyond all numbers
is an error of its own. -/
def decodeNumber (offence : Json.NumberError → FormatError) (value : Json) :
    Except ProgramError Binary64 :=
  match value.toNumber with
  | .ok x => .ok x
  | .error .tooLarge => .error .integerTooLarge
  | .error e => .error (.format (offence e))

namespace Token

/-- A field that tokens of a type must have. -/
def requireField (type field : String) (value : Json) : Except ProgramError Json :=
  (value.field? field).elim (.error (.format (.missingField type field))) .ok

/-- The member of a family that a value names. -/
def decodeKind {α : Type} (ofName? : Text → Option α) (offence : Json → FormatError)
    (value : Json) : Except ProgramError α :=
  match value with
  | .string name => (ofName? name).elim (.error (.format (offence value))) .ok
  | _ => .error (.format (offence value))

def decodeName (value : Json) : Except ProgramError Text :=
  match value with
  | .string name => if name = "" then .error (.format (.invalidName value)) else .ok name
  | _ => .error (.format (.invalidName value))

def ofJson (value : Json) : Except ProgramError Token :=
  match value with
  | .object _ =>
    match value.typeName? with
    | some "Number" => do
      return .number (← decodeNumber .invalidNumber (← requireField "Number" "value" value))
    | some "Variable" => do
      return .reference (← decodeName (← requireField "Variable" "name" value))
    | some "Operator" => do
      let kind ← requireField "Operator" "kind" value
      return .operator (← decodeKind Operator.ofName? .unknownOperator kind)
    | some "Control" => do
      let kind ← requireField "Control" "kind" value
      return .control (← decodeKind Control.ofName? .unknownControl kind)
    | _ => .error (.format (.unknownType ((value.field? "type").getD .null)))
  | _ => .error (.format (.notToken value))

end Token

namespace Program

def decodeStore (fields : List (Text × Json)) : Except ProgramError Store :=
  fields.foldlM (fun store (name, value) =>
    (decodeNumber (.invalidVariable name) value).map (store.insert name)) Table.empty

def ofJson (value : Json) : Except ProgramError Program :=
  match value with
  | .array items => do return ⟨← items.mapM Token.ofJson, Table.empty⟩
  | .object _ =>
    match value.typeName? with
    | some "Program" =>
      match (value.field? "tokens").getD (.array []),
          (value.field? "variables").getD (.object []) with
      | .array items, .object fields => do
        let tokens ← items.mapM Token.ofJson
        return ⟨tokens, ← decodeStore fields⟩
      | .array _, _ => .error (.format .variablesNotObject)
      | _, _ => .error (.format .tokensNotList)
    | _ => .error (.format .notProgram)
  | _ => .error (.format .notProgram)

/-- The program in the file at `path`, which holds `bytes`. -/
def load (path : Text) (bytes : List UInt8) : Except ProgramError Program := do
  let text ← (Text.decode bytes).mapError fun fault => .format (.notUtf8 path fault)
  let text := String.ofList (Text.unifyLineEnds text.toList)
  match Json.read text with
  | .ok value => ofJson value
  | .error (.integerTooLong digits) => .error (.integerTooLong digits)
  | .error (.nestedTooDeep container) => .error (.nestedTooDeep container)
  | .error error => .error (.format (.notJson path error))

end Program

end TokenTape
