import TokenTape.Json.Writer
import TokenTape.Program.Basic

/-!
# Encoding programs

A program is written as an object. Its variables are left out where there are none.
-/

namespace TokenTape

/-- Why tokens cannot be written. -/
inductive EncodeError where
  | unclassifiedToken
  | quantity (error : QuantityError)

def EncodeError.message : EncodeError → String
  | unclassifiedToken => "Unsupported token for serialization: Token"
  | quantity error => error.message

namespace Program

end Program

end TokenTape
