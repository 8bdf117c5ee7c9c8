/-
# Render configuration

Spacing, palette and the name by which expressions call the data object. A
configuration is read from TOML text; what the text leaves out keeps its
default.

Key definitions: `Config`, `Config.ofText`, `Palette.ofText`,
`ConfigFault.message`.
-/
import ViewMarkup.Constraint.Spacing
import ViewMarkup.Palette
import ViewMarkup.Toml.Reading

namespace ViewMarkup

/-- The name of the data object unless a configuration gives another. -/
def defaultRoot : String := "object"

structure Config where
  spacing : Spacing := .standard
  palette : Palette := .system
  root : String := defaultRoot

instance : Inhabited Config := ⟨{}⟩

/-- Why a configuration or a palette is not read. -/
inductive ConfigFault
  /-- The text breaks the rules or a field has the wrong type. -/
  | text
  | color (fault : ColorEntryFault)
  | root (name : String)

namespace ConfigFault

def message : ConfigFault → String
  | text => "Failed to parse config TOML"
  | color fault => fault.message
  | root name => "Invalid data root '" ++ name ++ "': expected an identifier"

end ConfigFault

/-- The start of an identifier. -/
def isNameStart (c : Char) : Bool := c.isAlpha || c = '_'

def isNameChar (c : Char) : Bool := c.isAlphanum || c = '_'

/-- A letter or an underscore, then letters, digits and underscores, all of
ASCII. -/
def isIdentifier : List Char → Bool
  | [] => false
  | c :: cs => isNameStart c && cs.all isNameChar

/-- The fault of a part that does not read. -/
private def typed {α : Type} : Option α → Except ConfigFault α
  | some a => .ok a
  | none => .error .text

/-- The fields of a record that may be left out as a whole. -/
private def record (text : Toml.Value) (name : String) (place required : Nat) :
    Except ConfigFault (String → Nat → Option Toml.Value) :=
  match text.field? name place with
  | none => .ok fun _ _ => none
  | some v => if v.isRecord required then .ok v.field? else .error .text

/-- Name and description. -/
private def metadata (text : Toml.Value) : Except ConfigFault (Option String × Option String) := do
  let field ← record text "metadata" 0 2
  let name ← typed (Toml.Value.optional Toml.Value.string? (field "name" 0))
  let description ← typed (Toml.Value.optional Toml.Value.string? (field "description" 1))
  return (name, description)

private def colorEntries (text : Toml.Value) : Except ConfigFault (List (String × String)) := do
  return (← typed (Toml.Value.optional Toml.Value.strings? (text.field? "colors" 1))).getD []

/-- The palette of entries, under a name and a description. -/
private def paletteOf (about : Option String × Option String) (entries : List (String × String)) :
    Except ConfigFault Palette :=
  match Palette.ofEntries entries with
  | .ok palette => .ok { palette with name := about.1, description := about.2 }
  | .error fault => .error (.color fault)

/-- Reads a palette from TOML text. -/
def Palette.ofText (text : String) : Except ConfigFault Palette := do
  let values ← typed (Toml.parse text)
  let about ← metadata values
  paletteOf about (← colorEntries values)

namespace Config

private def spacingOf (text : Toml.Value) : Except ConfigFault Spacing := do
  let field ← record text "layout" 2 0
  let sibling ← typed (Toml.Value.optional Toml.Value.double? (field "standard_spacing" 0))
  let superview ← typed (Toml.Value.optional Toml.Value.double? (field "superview_spacing" 1))
  return ⟨sibling.getD Spacing.standard.sibling, superview.getD Spacing.standard.superview⟩

private def rootOf (text : Toml.Value) : Except ConfigFault (Option String) := do
  let field ← record text "bindings" 3 1
  typed (Toml.Value.optional Toml.Value.string? (field "root" 0))

/-- Reads a configuration from TOML text. All fields are read before colors are
looked at, and these before the name of the data object. -/
def ofText (text : String) : Except ConfigFault Config := do
  let values ← typed (Toml.parse text)
  let about ← metadata values
  let entries ← colorEntries values
  let spacing ← spacingOf values
  let root ← rootOf values
  let palette ← paletteOf about entries
  match root with
  | none => return { spacing, palette }
  | some name =>
    if isIdentifier name.toList then return { spacing, palette, root := name }
    else throw (.root name)

end Config

end ViewMarkup
