/-
# Visual formats

A format is a row of views along an axis, with a connection between each two
neighbours, and one at either end that touches the superview. Every part that
may turn out to be wrong knows its place in the text.

Key definitions: `VisualFormat`, `Connection`, `Predicate`, `Operand`.
-/
import ViewMarkup.Numeric.Binary
import ViewMarkup.Text.Span

namespace ViewMarkup

inductive Axis
  | horizontal
  | vertical
  deriving DecidableEq

def Axis.text : Axis → String
  | horizontal => "H"
  | vertical => "V"

/-- How the two sides of a constraint compare. -/
inductive Relation
  | equal
  | atLeast
  | atMost
  deriving DecidableEq

namespace Relation

def text : Relation → String
  | equal => "=="
  | atLeast => ">="
  | atMost => "<="

/-- The relation seen from the other side. -/
def mirrored : Relation → Relation
  | equal => equal
  | atLeast => atMost
  | atMost => atLeast

end Relation

/-- A number, or a name that is looked up when the format is resolved. -/
inductive Operand
  | number (x : Double)
  | name (text : String)
  deriving DecidableEq

/-- A relation to an operand, and how much it matters. -/
structure Predicate where
  relation : Relation
  object : Located Operand
  priority : Option (Located Operand)
  deriving DecidableEq

/-- What stands between two neighbours. -/
inductive Connection
  /-- Nothing: they touch. -/
  | flush
  /-- A dash: the default gap. -/
  | standard
  /-- A gap between dashes. -/
  | spacer (gap : Located Operand)
  /-- Conditions on the gap, between dashes. -/
  | predicates (conditions : List (Located Predicate))
  deriving DecidableEq

/-- A view in brackets, with conditions on its size. -/
structure ViewTerm where
  name : Located String
  predicates : List (Located Predicate)
  span : Span
  deriving DecidableEq

/-- A whole format. Each view after the first comes with the connection before
it. -/
structure VisualFormat where
  axis : Axis
  leading : Option Connection
  first : ViewTerm
  rest : List (Connection × ViewTerm)
  trailing : Option Connection
  deriving DecidableEq

namespace VisualFormat

def views (format : VisualFormat) : List ViewTerm := format.first :: format.rest.map Prod.snd

def gaps (format : VisualFormat) : List Connection := format.rest.map Prod.fst

def lastView (format : VisualFormat) : ViewTerm :=
  (format.rest.getLast?.map Prod.snd).getD format.first

/-- Whether an end of the format is the superview. -/
def touchesSuperview (format : VisualFormat) : Bool :=
  format.leading.isSome || format.trailing.isSome

end VisualFormat

end ViewMarkup
