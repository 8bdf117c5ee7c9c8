/-
# Why a text or a value is not a document

Either the text is not JSON, or a part of it does not have the shape a document
asks for there.

Key definitions: `DocumentFault`, `DocumentFault.detail?`.
-/
import ViewMarkup.Json.Reading

namespace ViewMarkup

inductive DocumentFault
  | text (fault : Json.TextFault)
  /-- Another kind of value than expected. -/
  | kind (found expected : String)
  | missingField (name : String)
  | repeatedField (name : String)
  | unknownField (name : String) (known : List String)
  /-- An array that ends before the first field without a default. -/
  | tooFewItems (count : Nat) (expected : String)
  /-- An array with more items than there are fields. -/
  | tooManyItems (count : Nat)
  deriving DecidableEq

namespace DocumentFault

/-- A text between backticks. -/
def ticked (text : String) : String :=
  String.ofList ['\x60'] ++ text ++ String.ofList ['\x60']

/-- What is wrong with the shape; none when the text is not JSON. -/
def detail? : DocumentFault → Option String
  | text _ => none
  | kind found expected => some ("invalid type: " ++ found ++ ", expected " ++ expected)
  | missingField name => some ("missing field " ++ ticked name)
  | repeatedField name => some ("duplicate field " ++ ticked name)
  | unknownField name known =>
    some ("unknown field " ++ ticked name ++ ", expected one of " ++
      String.intercalate ", " (known.map ticked))
  | tooFewItems count expected =>
    some ("invalid length " ++ toString count ++ ", expected " ++ expected)
  | tooManyItems count =>
    some ("invalid length " ++ toString count ++ ", expected fewer elements in array")

def message (fault : DocumentFault) : String :=
  match fault with
  | text .malformed => "not well-formed JSON"
  | text .truncated => "the text ends early"
  | fault => fault.detail?.getD ""

end DocumentFault

end ViewMarkup
