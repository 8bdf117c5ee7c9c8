/-
# Values of attributes

A string that starts with a color mark is a color, by its digits or by its name;
any other string is a template, and what is no string is taken as it is.

Key definitions: `AttributeValue`, `AttributeValue.resolve`.
-/
import ViewMarkup.Palette
import ViewMarkup.Template.Basic

namespace ViewMarkup

inductive AttributeValue
  | literal (v : Json)
  | namedColor (name : String) (color : Color)
  | hexColor (digits : String) (color : Color)
  | template (t : Template)

namespace AttributeValue

def hexMark : List Char := "@color-hex:".toList

def nameMark : List Char := "@color:".toList

/-- The value of a string. -/
def ofString (s : String) (palette : Palette) : Except MarkupError AttributeValue :=
  match dropStart? hexMark s.toList with
  | some digits =>
    match Color.ofHex (String.ofList digits) with
    | .ok color => .ok (.hexColor (String.ofList digits) color)
    | .error fault => .error { fault := .malformedColor s fault.message }
  | none =>
    match dropStart? nameMark s.toList with
    | some [] => .error { fault := .malformedColor s "missing color name" }
    | some name =>
      match palette.resolve (String.ofList name) with
      | some color => .ok (.namedColor (String.ofList name) color)
      | none => .error { fault := .unknownColor (String.ofList name) }
    | none => (Template.parse s).map .template

/-- The value that JSON stands for as an attribute. -/
def resolve (raw : Json) (palette : Palette) : Except MarkupError AttributeValue :=
  match raw with
  | .string s => ofString s palette
  | v => .ok (.literal v)

end AttributeValue

end ViewMarkup
