import TokenTape.Json.Reader
import TokenTape.Run.Walk
import TokenTape.Text.Utf8

/-!
# Programs

A program is a row of tokens and a table of variables to start from. This module says what can be
wrong with the file of one.
-/

namespace TokenTape

structure Program where
  tokens : List Token
  store : Store

/-- What is wrong with a value that should be a program. -/
inductive FormatError where
  | notToken (value : Json)
  | missingField (type field : String)
  | invalidNumber (error : Json.NumberError)
  | invalidName (value : Json)
  | unknownOperator (value : Json)
  | unknownControl (value : Json)
  | unknownType (value : Json)
  | notProgram
  | tokensNotList
  | variablesNotObject
  | invalidVariable (name : Text) (error : Json.NumberError)
  | notUtf8 (path : Text) (fault : Text.Utf8Fault)
  | notJson (path : Text) (error : Json.ReadError)

def FormatError.message : FormatError → Text
  | notToken value => "Invalid token object: " ++ value.display
  | missingField type field => type ++ " token is missing " ++ Text.quoted field
  | invalidNumber error => "Invalid number value: " ++ error.message
  | invalidName value => "Invalid variable name: " ++ value.display
  | unknownOperator value => "Unknown operator kind: " ++ value.display
  | unknownControl value => "Unknown control kind: " ++ value.display
  | unknownType value => "Unknown token type: " ++ value.display
  | notProgram => "Invalid program object"
  | tokensNotList => "Program tokens must be a list"
  | variablesNotObject => "Program variables must be an object"
  | invalidVariable name error => "Invalid value for variable " ++ name ++ ": " ++ error.message
  | notUtf8 path fault => path ++ " is not valid UTF-8: " ++ fault.message
  | notJson path error => path ++ " is not valid JSON: " ++ error.message

/-- Why a file yields no program: it is malformed, or it holds an integer that cannot be converted
or arrays and objects that are nested too deep. -/
inductive ProgramError where
  | format (error : FormatError)
  | integerTooLarge
  | integerTooLong (digits : Nat)
  | nestedTooDeep (container : Json.Container)

def ProgramError.message : ProgramError → Text
  | format error => error.message
  | integerTooLarge => Json.NumberError.tooLarge.message
  | integerTooLong digits => (Json.ReadError.integerTooLong digits).message
  | nestedTooDeep container => (Json.ReadError.nestedTooDeep container).message

end TokenTape
