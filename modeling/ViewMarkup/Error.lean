/-
# Errors

What can be wrong with a document, and where. The place is a key path into the
document; who does not know it leaves it empty, and the first caller that does
fills it in (`MarkupError.placedAt`).

Key definitions: `Fault`, `MarkupError`, `MarkupError.placedAt`,
`MarkupError.message`.
-/
import ViewMarkup.Document.Fault

namespace ViewMarkup

inductive Fault
  /-- A text marked as a color that does not spell one. -/
  | malformedColor (literal reason : String)
  | unknownColor (name : String)
  /-- An expression of a template that is opened at the offset and never closed. -/
  | unterminatedExpression (template : String) (offset : Nat)
  /-- A path that is none, or at which there is no value. -/
  | unresolvedPath (path reason : String)
  | unknownKind (kind : String) (suggestions : List String)
  /-- An attribute that views of the kind do not have, or not with this value. -/
  | unsupportedAttribute (kind name reason : String)
  | duplicateId (id first : String)
  /-- A constraint format that cannot be read or resolved, and the part at fault
  if there is one. -/
  | malformedFormat (format : String) (span : Option Span) (text : String)
      (suggestions : List String)
  | document (fault : DocumentFault)
  deriving DecidableEq

structure MarkupError where
  fault : Fault
  keyPath : String := ""
  deriving DecidableEq

/-- The similar names, as a question. -/
def didYouMean : List String → String
  | [] => ""
  | names => " (did you mean " ++ String.intercalate ", " names ++ "?)"

namespace MarkupError

/-- An error in a part of a constraint format. -/
def ofFormat (format : String) (span : Span) (text : String) : MarkupError :=
  { fault := .malformedFormat format (some span) text [] }

def unresolved (path reason : String) : MarkupError := { fault := .unresolvedPath path reason }

/-- Names to suggest, for the errors that suggest names. -/
def suggesting (e : MarkupError) (names : List String) : MarkupError :=
  match e.fault with
  | .unknownKind kind _ => { e with fault := .unknownKind kind names }
  | .malformedFormat format span text _ =>
    { e with fault := .malformedFormat format span text names }
  | _ => e

/-- Fills in the place unless the error has one. A text that is no document has
no places. -/
def placedAt (e : MarkupError) (keyPath : String) : MarkupError :=
  match e.fault with
  | .document _ => e
  | _ => if e.keyPath = "" then { e with keyPath } else e

/-- The place, if it is known. -/
def place? (e : MarkupError) : Option String :=
  match e.fault with
  | .document _ => none
  | _ => if e.keyPath = "" then none else some e.keyPath

private def location (e : MarkupError) : String :=
  if e.keyPath = "" then "" else " at " ++ e.keyPath

/-- The error in one line. -/
def message (e : MarkupError) : String :=
  match e.fault with
  | .malformedColor literal reason =>
    "malformed color literal '" ++ literal ++ "': " ++ reason ++ e.location
  | .unknownColor name => "unknown color name '" ++ name ++ "'" ++ e.location
  | .unterminatedExpression _ offset =>
    "unterminated template expression starting at offset " ++ toString offset ++ e.location
  | .unresolvedPath path reason =>
    "unresolved binding path '" ++ path ++ "': " ++ reason ++ e.location
  | .unknownKind kind suggestions =>
    "unknown view kind '" ++ kind ++ "'" ++ e.location ++ didYouMean suggestions
  | .unsupportedAttribute kind name reason =>
    "unsupported attribute '" ++ name ++ "' on '" ++ kind ++ "': " ++ reason ++ e.location
  | .duplicateId id first =>
    "duplicate identifier '" ++ id ++ "' (first declared at " ++ first ++ ")" ++ e.location
  | .malformedFormat format _ text suggestions =>
    "malformed constraint format '" ++ format ++ "': " ++ text ++ e.location ++
      didYouMean suggestions
  | .document fault => "invalid document: " ++ fault.message

end MarkupError

/-- Fills in the place of the error, if there is one. -/
def located {α : Type} (keyPath : String) (r : Except MarkupError α) : Except MarkupError α :=
  r.mapError (·.placedAt keyPath)

end ViewMarkup
