/-
# Constraint descriptors

A descriptor relates an anchor of one item to a multiple of an anchor of
another plus a constant, or to a constant alone, at some priority. An item is a
view, by its id, or the superview of the view on the other side.

Key definitions: `Anchor`, `Item`, `Descriptor`, `Descriptor.right?`, `Descriptor.text`.
-/
import ViewMarkup.Format.Tree
import ViewMarkup.Numeric.Decimal

namespace ViewMarkup

inductive Item
  | superview
  | view (id : String)
  deriving DecidableEq

namespace Item

def id? : Item → Option String
  | superview => none
  | view id => some id

def text : Item → String
  | superview => "superview"
  | view id => id

end Item

/-- What of an item a constraint is about: an edge, a dimension, a centre or a
baseline. -/
inductive Anchor
  | left
  | right
  | top
  | bottom
  | leading
  | trailing
  | width
  | height
  | centerX
  | centerY
  | baseline
  | firstBaseline
  | lastBaseline
  deriving DecidableEq

namespace Anchor

def text : Anchor → String
  | left => "left"
  | right => "right"
  | top => "top"
  | bottom => "bottom"
  | leading => "leading"
  | trailing => "trailing"
  | width => "width"
  | height => "height"
  | centerX => "centerX"
  | centerY => "centerY"
  | baseline => "baseline"
  | firstBaseline => "firstBaseline"
  | lastBaseline => "lastBaseline"

/-- The axis along which the anchor places or measures. -/
def axis : Anchor → Axis
  | left | right | leading | trailing | width | centerX => .horizontal
  | top | bottom | height | centerY | baseline | firstBaseline | lastBaseline => .vertical

/-- The dimension along an axis. -/
def dimension : Axis → Anchor
  | .horizontal => width
  | .vertical => height

end Anchor

/-- How much a constraint matters, from above 0 to 1000. -/
abbrev Priority := Single

namespace Priority

def required : Priority := 1000

def high : Priority := 750

def low : Priority := 250

def isRequired (p : Priority) : Bool := required.le p

end Priority

structure Descriptor where
  first : Item
  firstAnchor : Anchor
  relation : Relation
  second : Option Item
  secondAnchor : Option Anchor
  multiplier : Double
  constant : Double
  priority : Priority
  deriving DecidableEq

namespace Descriptor

/-- `first.anchor relation value` -/
def fixed (first : Item) (anchor : Anchor) (relation : Relation) (value : Double) : Descriptor :=
  ⟨first, anchor, relation, none, none, 1, value, .required⟩

/-- `first.anchor relation second.anchor + constant` -/
def between (first : Item) (firstAnchor : Anchor) (relation : Relation) (second : Item)
    (secondAnchor : Anchor) (constant : Double) : Descriptor :=
  ⟨first, firstAnchor, relation, some second, some secondAnchor, 1, constant, .required⟩

def withPriority (d : Descriptor) (priority : Priority) : Descriptor := { d with priority }

/-- What is on the right. An item without an anchor is not, nor an anchor without an
item. -/
def right? (d : Descriptor) : Option (Item × Anchor) :=
  match d.second, d.secondAnchor with
  | some item, some anchor => some (item, anchor)
  | _, _ => none

/-- The ids the descriptor mentions. -/
def views (d : Descriptor) : List String :=
  (d.first :: d.second.toList).filterMap Item.id?

/-- A constant that is added, with its sign between the terms. -/
def offsetText (constant : Double) : String :=
  if Binary.lt 0 constant then " + " ++ constant.text
  else if constant.lt 0 then " - " ++ constant.neg.text
  else ""

def rightText (d : Descriptor) : String :=
  match d.right? with
  | some (item, anchor) =>
    item.text ++ "." ++ anchor.text ++
      (if d.multiplier.same 1 then "" else " * " ++ d.multiplier.text) ++ offsetText d.constant
  | none => d.constant.text

/-- The descriptor as a formula. A required one leaves out its priority. -/
def text (d : Descriptor) : String :=
  d.first.text ++ "." ++ d.firstAnchor.text ++ " " ++ d.relation.text ++ " " ++ d.rightText ++
    (if Priority.isRequired d.priority then "" else " @" ++ Binary.text d.priority)

end Descriptor

end ViewMarkup
