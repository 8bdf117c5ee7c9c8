/-
# Options of a constraint spec

An option aligns all views of a format by an anchor, or says in which direction
a horizontal format runs. Options have short names and long ones, which differ
by what stands before the name and by the case of its first letter.

Key definitions: `FormatOptions`, `FormatOptions.parse`, `normalizedOption`.
-/
import ViewMarkup.Constraint.Descriptor
import ViewMarkup.Error
import ViewMarkup.Text.Affix
import ViewMarkup.Text.Blank
import ViewMarkup.Text.Distance

namespace ViewMarkup

/-- The order of the views in a horizontal format. -/
inductive Direction
  | leadingToTrailing
  | leftToRight
  | rightToLeft
  deriving DecidableEq

/-- The anchors that views can be aligned by. -/
def alignmentOptions : List (String × Anchor) :=
  ([.left, .right, .top, .bottom, .leading, .trailing, .centerX, .centerY, .baseline,
    .lastBaseline, .firstBaseline] : List Anchor).map fun a => (a.text, a)

def directionOptions : List (String × Direction) :=
  [("leadingToTrailing", .leadingToTrailing), ("leftToRight", .leftToRight),
   ("rightToLeft", .rightToLeft)]

/-- What may stand before the name of an option. -/
def optionMarks : List (List Char) :=
  ["NSLayoutFormatAlignAll".toList, "NSLayoutFormatDirection".toList, "alignAll".toList]

/-- An option without blanks around it and without its mark, its first letter in
lower case. -/
def normalizedOption (option : String) : String :=
  let trimmed := trim option.toList
  match (optionMarks.findSome? fun mark => dropStart? mark trimmed).getD trimmed with
  | [] => ""
  | c :: cs => String.ofList (c.toLower :: cs)

structure FormatOptions where
  alignments : List Anchor
  direction : Direction
  deriving DecidableEq

namespace FormatOptions

/-- An error that concerns no part of the format. -/
def fault (format text : String) : MarkupError :=
  { fault := .malformedFormat format none text [] }

/-- Option names, for suggestions. -/
def knownNames : List String := alignmentOptions.map Prod.fst ++ directionOptions.map Prod.fst

/-- Takes up one option: the alignments and the direction so far. -/
def add (format : String) (state : List Anchor × Option Direction) (option : String) :
    Except MarkupError (List Anchor × Option Direction) :=
  let name := normalizedOption option
  let (alignments, direction) := state
  match alignmentOptions.lookup name, directionOptions.lookup name with
  | some anchor, _ =>
    .ok (if alignments.contains anchor then alignments else alignments ++ [anchor], direction)
  | none, some dir =>
    if direction.any (· ≠ dir) then
      .error (fault format ("conflicting direction option '" ++ option ++ "'"))
    else .ok (alignments, some dir)
  | none, none =>
    .error ((fault format ("unknown option '" ++ option ++ "'")).suggesting
      (similarNames knownNames name 2))

/-- Reads the options of a format. Alignments are kept once, in the order of
their first mention. -/
def parse (format : String) (options : List String) : Except MarkupError FormatOptions := do
  let (alignments, direction) ← options.foldlM (add format) ([], none)
  return ⟨alignments, direction.getD .leadingToTrailing⟩

end FormatOptions

end ViewMarkup
