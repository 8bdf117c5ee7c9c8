/-
# Property values

What an attribute has become when it is set on a view: the text of a template, a
color, or JSON as it stands. A property asks for one type, and each type takes
the values that read as one: text that spells a number is a number.

Key definitions: `PropertyValue`, `PropertyError`, `Rect`,
`PropertyValue.asDouble`, `PropertyValue.asInteger`, `PropertyValue.asBool`.
-/
import ViewMarkup.Color
import ViewMarkup.Json.Basic
import ViewMarkup.Text.Blank

namespace ViewMarkup

structure Rect where
  x : Double
  y : Double
  width : Double
  height : Double
  deriving DecidableEq

inductive PropertyValue
  | text (s : String)
  | color (c : Color)
  | json (v : Json)

/-- Why a property does not take a value. -/
inductive PropertyError
  | typeMismatch (expected found : String)
  | outOfRange (value reason : String)
  /-- The property is one of another type of view. -/
  | wrongViewType
  deriving DecidableEq

namespace PropertyError

def message : PropertyError → String
  | typeMismatch expected found => "expected " ++ expected ++ ", found " ++ found
  | outOfRange value reason => "value " ++ value ++ " out of range: " ++ reason
  | wrongViewType => "setter registered for a different view type"

end PropertyError

namespace PropertyValue

/-- The value, as messages name it. -/
def describe : PropertyValue → String
  | text s => "text \"" ++ s ++ "\""
  | color c => "color " ++ c.text
  | json v => v.kindName ++ " " ++ v.text

/-- What reads as the expected type, or the mismatch. -/
def expect {α : Type} (value : PropertyValue) (expected : String) :
    Option α → Except PropertyError α
  | some a => .ok a
  | none => .error (.typeMismatch expected value.describe)

def string? : PropertyValue → Option String
  | text s => some s
  | json (.string s) => some s
  | _ => none

def asString (value : PropertyValue) : Except PropertyError String :=
  value.expect "a string" value.string?

/-- A number, or text that spells one. -/
def number? : PropertyValue → Option Double
  | text s => double? (trimText s)
  | json (.number n) => some n.toDouble
  | _ => none

def asDouble (value : PropertyValue) : Except PropertyError Double :=
  value.expect "a number" value.number?

/-- A whole number, or text that spells one. -/
def wholeNumber? : PropertyValue → Option Int
  | text s => integer? (trimText s)
  | json (.number n) => n.toInteger?
  | _ => none

def asInteger (value : PropertyValue) : Except PropertyError Int :=
  value.expect "an integer" value.wholeNumber?

/-- A truth value, the whole numbers 0 and 1, or one of four words. -/
def bool? : PropertyValue → Option Bool
  | text s =>
    let word := trimText s
    if word = "true" || word = "YES" then some true
    else if word = "false" || word = "NO" then some false
    else none
  | json (.bool b) => some b
  | json (.number n) =>
    match n.toInteger? with
    | some 0 => some false
    | some 1 => some true
    | _ => none
  | _ => none

def asBool (value : PropertyValue) : Except PropertyError Bool :=
  value.expect "a boolean" value.bool?

def color? : PropertyValue → Option Color
  | color c => some c
  | _ => none

def asColor (value : PropertyValue) : Except PropertyError Color :=
  value.expect "a color" value.color?

/-- The double of a JSON number. -/
def jsonDouble? : Json → Option Double
  | .number n => some n.toDouble
  | _ => none

/-- Four numbers, or an object with a number for each part. -/
def rect? : PropertyValue → Option Rect
  | json (.array [x, y, width, height]) => do
    return ⟨← jsonDouble? x, ← jsonDouble? y, ← jsonDouble? width, ← jsonDouble? height⟩
  | json (.object members) => do
    let part (name : String) : Option Double := (Json.member? name members).bind jsonDouble?
    return ⟨← part "x", ← part "y", ← part "width", ← part "height"⟩
  | _ => none

def asRect (value : PropertyValue) : Except PropertyError Rect :=
  value.expect "a rect [x, y, width, height]" value.rect?

end PropertyValue

end ViewMarkup
