/-
# Palettes

A palette gives names to colors. Its own entries come before the system colors,
and a system color is also found when only the case of ASCII letters differs.

Key definitions: `Palette`, `Palette.ofEntries`, `Palette.resolve`,
`Palette.names`.
-/
import ViewMarkup.Color
import ViewMarkup.Text.Order

namespace ViewMarkup

structure Palette where
  name : Option String
  description : Option String
  colors : List (String × Color)

/-- An entry of a palette that is not a color. -/
structure ColorEntryFault where
  name : String
  value : String
  fault : HexFault

namespace ColorEntryFault

def message (e : ColorEntryFault) : String :=
  "Invalid color '" ++ e.value ++ "' for '" ++ e.name ++ "': " ++ e.fault.message

end ColorEntryFault

namespace Palette

/-- The palette of the system colors alone. -/
def system : Palette := ⟨none, none, []⟩

instance : Inhabited Palette := ⟨system⟩

/-- Gives a name a color, in its place if it has one. -/
def setColor (name : String) (color : Color) : List (String × Color) → List (String × Color)
  | [] => [(name, color)]
  | (n, c) :: rest =>
    if n = name then (n, color) :: rest else (n, c) :: setColor name color rest

def withColor (palette : Palette) (name : String) (color : Color) : Palette :=
  { palette with colors := setColor name color palette.colors }

/-- The text without a `#` at its front. -/
def withoutHash (text : String) : String :=
  match text.toList with
  | '#' :: cs => String.ofList cs
  | _ => text

/-- The colors of entries, each with or without a leading `#`. -/
def ofEntries : List (String × String) → Except ColorEntryFault Palette
  | entries => do
    let colors ← entries.mapM fun (name, value) =>
      match Color.ofHex (withoutHash value) with
      | .ok color => .ok (name, color)
      | .error fault => .error ⟨name, value, fault⟩
    return colors.foldl (fun palette (name, color) => palette.withColor name color) system

/-- Equal up to the case of ASCII letters. -/
def sameIgnoringCase (a b : String) : Bool :=
  a.toList.map Char.toLower = b.toList.map Char.toLower

/-- The color of a name: an entry, then a system color, then a system color in
another case. -/
def resolve (palette : Palette) (name : String) : Option Color :=
  (palette.colors.lookup name).or <| (systemColors.lookup name).or <|
    (systemColors.find? fun entry => sameIgnoringCase entry.1 name).map Prod.snd

/-- Every name with a color of its own, in order. -/
def names (palette : Palette) : List String :=
  distinctNames (systemColors.map Prod.fst ++ palette.colors.map Prod.fst)

end Palette

end ViewMarkup
