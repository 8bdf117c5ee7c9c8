/-
# Paths into the data

A path is a list of segments between points: identifiers, or array indices in
decimal digits. A first segment that is the name of the data object stands for
the object itself; any other path starts in the object.

Key definitions: `Path`, `Path.parse`, `Path.relative`, `Path.resolve`.
-/
import ViewMarkup.Error
import ViewMarkup.Template.Data
import ViewMarkup.Text.Affix
import ViewMarkup.Text.Blank

namespace ViewMarkup

structure Path where
  segments : List String
  deriving DecidableEq

namespace Path

/-- Digits alone, or a letter or underscore and then letters, digits and
underscores, all of ASCII. -/
def isSegment : List Char → Bool
  | [] => false
  | c :: cs =>
    if c.isDigit then cs.all Char.isDigit
    else (c.isAlpha || c = '_') && cs.all fun d => d.isAlphanum || d = '_'

/-- Reads a path. The first part that is no segment is reported. -/
def parse (raw : String) : Except MarkupError Path :=
  let cs := trim raw.toList
  if cs.isEmpty then .error (.unresolved "" "empty expression")
  else
    let parts := splitAt '.' cs
    match parts.find? fun part => !isSegment part with
    | some part =>
      .error (.unresolved (String.ofList cs)
        ("'" ++ String.ofList part ++ "' is not a valid path segment"))
    | none => .ok ⟨parts.map String.ofList⟩

/-- The segments below the data object, which is called `root`. -/
def relative (path : Path) (root : String) : List String :=
  match path.segments with
  | first :: rest => if first = root then rest else first :: rest
  | [] => []

def joined (segments : List String) : String := String.intercalate "." segments

def text (path : Path) : String := joined path.segments

/-- The path below the data object as a key. -/
def key (path : Path) (root : String) : String := joined (path.relative root)

/-- The first segment below `seen` up to which there is no value. -/
def firstMissing? (data : DataSource) : List String → List String → Option String
  | _, [] => none
  | seen, segment :: rest =>
    if (data (seen ++ [segment])).isNone then some segment
    else firstMissing? data (seen ++ [segment]) rest

/-- The value at the path. If there is none, the error names the segment that
ends the shortest part of the path without a value. -/
def resolve (path : Path) (data : DataSource) (root : String) : Except MarkupError Json :=
  let segments := path.relative root
  match data segments with
  | some v => .ok v
  | none =>
    let missing := (firstMissing? data [] segments).getD root
    .error (.unresolved path.text ("no value for '" ++ missing ++ "'"))

end Path

end ViewMarkup
