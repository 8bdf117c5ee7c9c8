/-
# Frames

The constraints of a document say where its views are. Every view that a
descriptor involves has a frame, in the coordinates of the root, whose sides are
not negative and which would rather be empty and at the origin. The frame of the
root has the size that is asked for. An item is a view or, on the other side of
one, the parent of that view in the tree.

Frames are solved exactly and rounded to three decimals at the end.

Key definitions: `LayoutSystem`, `LayoutSystem.addDescriptor`, `solveLayout`,
`Frames`, `solveFrames`.
-/
import ViewMarkup.Constraint.Descriptor
import ViewMarkup.Layout.Simplex
import ViewMarkup.View.IdTable
import ViewMarkup.View.Property

namespace ViewMarkup

/-- Why there are no frames. -/
inductive LayoutFault
  | undefinedView (id : String)
  | noSuperview (id : String)
  | unsatisfiable (constraint : String)
  /-- A descriptor mentions the superview and no view. -/
  | superviewAlone
  deriving DecidableEq

namespace LayoutFault

def message : LayoutFault → String
  | undefinedView id => "Undefined view: " ++ id
  | noSuperview id => "View '" ++ id ++ "' has no superview"
  | unsatisfiable constraint => "Unsatisfiable constraint: " ++ constraint
  | superviewAlone => "Internal solver error: superview constraint without a view"

end LayoutFault

/-- Where an anchor of a view is, or what it measures. Baselines are at the
bottom, the first one at the top. -/
def Anchor.expression (anchor : Anchor) (h : Handle) : Linear Unknown :=
  let left : Linear Unknown := .var ⟨h, .left⟩
  let top : Linear Unknown := .var ⟨h, .top⟩
  let width : Linear Unknown := .var ⟨h, .width⟩
  let height : Linear Unknown := .var ⟨h, .height⟩
  match anchor with
  | .left | .leading => left
  | .right | .trailing => left.add width
  | .top | .firstBaseline => top
  | .bottom | .baseline | .lastBaseline => top.add height
  | .width => width
  | .height => height
  | .centerX => left.add (width.scale (1 / 2))
  | .centerY => top.add (height.scale (1 / 2))

namespace Priority

/-- Priorities count by four steps. -/
def strength (p : Priority) : Strength :=
  if p.isRequired then .required
  else if high.le p then .strong
  else if low.le p then .medium
  else .weak

end Priority

/-- What has been taken up, and the views that have frames. -/
structure LayoutSystem (S : Type) where
  state : S
  placed : List Handle

namespace LayoutSystem

variable {S : Type} (solver : Solver S)

/-- Takes up a constraint, which a refusal names. -/
def require (name : String) (system : LayoutSystem S) (c : LinearConstraint) :
    Except LayoutFault (LayoutSystem S) :=
  match solver.add c system.state with
  | some state => .ok { system with state }
  | none => .error (.unsatisfiable name)

/-- What every frame satisfies: its sides are not negative, and all four parts
would be zero. -/
def frameConstraints (h : Handle) : List LinearConstraint :=
  ([.width, .height] : List FramePart).map (fun part => ⟨.var ⟨h, part⟩, .atLeast, .required⟩) ++
    ([.left, .top, .width, .height] : List FramePart).map fun part =>
      ⟨.var ⟨h, part⟩, .equal, .weak⟩

/-- Gives a view a frame, unless it has one. -/
def place (system : LayoutSystem S) (h : Handle) : Except LayoutFault (LayoutSystem S) :=
  if system.placed.contains h then .ok system
  else (frameConstraints h).foldlM (require solver ("frame of " ++ h.text))
    { system with placed := h :: system.placed }

/-- The frame of the root: at the origin, with the size asked for. -/
def rootConstraints (width height : Rat) : List LinearConstraint :=
  [(FramePart.left, 0), (.top, 0), (.width, width), (.height, height)].map fun (part, value) =>
    ⟨(Linear.var ⟨.root, part⟩).sub (.const value), .equal, .required⟩

/-- The system of the root alone. -/
def start (width height : Double) : Except LayoutFault (LayoutSystem S) := do
  let system ← place solver ⟨solver.empty, []⟩ .root
  match width.value?, height.value? with
  | some width, some height =>
    (rootConstraints width height).foldlM (require solver "root frame") system
  | _, _ => throw (.unsatisfiable "root frame")

end LayoutSystem

/-- The view that an id names. -/
def viewOf (ids : IdTable) (id : String) : Except LayoutFault Handle :=
  match ids.handle? id with
  | some h => .ok h
  | none => .error (.undefinedView id)

/-- The view that an item stands for, after the views that have to be placed to
know it. The superview is that of the view on the other side. -/
def Item.handles {V : Type} (tree : ViewTree V) (ids : IdTable) (item : Item)
    (other : Option Item) : Except LayoutFault (List Handle × Handle) :=
  match item with
  | .view id => (viewOf ids id).map fun h => ([], h)
  | .superview =>
    match other with
    | some (.view id) => do
      let h ← viewOf ids id
      match tree.parent? h with
      | some parent => return ([h], parent)
      | none => throw (.noSuperview id)
    | _ => .error .superviewAlone

namespace Descriptor

/-- The right side of a descriptor over exact numbers; none if one of its numbers
is not finite. -/
def rightExpression? (d : Descriptor) (second : Option (Handle × Anchor)) :
    Option (Linear Unknown) := do
  let constant ← d.constant.value?
  match second with
  | none => return .const constant
  | some (h, anchor) =>
    let multiplier ← d.multiplier.value?
    return ((anchor.expression h).scale multiplier).add (.const constant)

/-- The constraint of a descriptor whose items stand for these views. -/
def constraint? (d : Descriptor) (first : Handle) (second : Option (Handle × Anchor)) :
    Option LinearConstraint := do
  let right ← d.rightExpression? second
  return ⟨(d.firstAnchor.expression first).sub right, d.relation, Priority.strength d.priority⟩

/-- Whether the descriptor is an inequality to a bound that nothing exceeds. -/
def asksNothing (d : Descriptor) : Bool :=
  d.multiplier.isFinite &&
    match d.relation, d.constant with
    | .atMost, .infinite false => true
    | .atLeast, .infinite true => true
    | _, _ => false

end Descriptor

namespace LayoutSystem

variable {S V : Type} (solver : Solver S) (tree : ViewTree V) (ids : IdTable)

/-- Gives the view of an item a frame. -/
def placeItem (system : LayoutSystem S) (item : Item) (other : Option Item) :
    Except LayoutFault (Handle × LayoutSystem S) := do
  let (needed, h) ← item.handles tree ids other
  let system ← (needed ++ [h]).foldlM (place solver) system
  return (h, system)

/-- Takes up a descriptor. One that is not over finite numbers is refused unless
it asks for nothing. -/
def addDescriptor (system : LayoutSystem S) (d : Descriptor) :
    Except LayoutFault (LayoutSystem S) := do
  let (first, system) ← placeItem solver tree ids system d.first d.second
  let (second, system) ← match d.right? with
    | none => pure (none, system)
    | some (item, anchor) => do
      let (h, system) ← placeItem solver tree ids system item (some d.first)
      pure (some (h, anchor), system)
  match d.constraint? first second with
  | some c => require solver d.text system c
  | none => if d.asksNothing then return system else throw (.unsatisfiable d.text)

end LayoutSystem

/-- Where views are: a solution, and the views that have frames. -/
structure Layout where
  values : List (Unknown × Rat)
  placed : List Handle

/-- Solves the descriptors of a document in a root of the given size. -/
def solveLayout {S V : Type} (solver : Solver S) (tree : ViewTree V) (ids : IdTable)
    (descriptors : List Descriptor) (width height : Double) : Except LayoutFault Layout := do
  let system ← LayoutSystem.start solver width height
  let system ← descriptors.foldlM (LayoutSystem.addDescriptor solver tree ids) system
  return ⟨solver.solution system.state, system.placed⟩

/-- An exact value as a double with three decimals, a half rounded away from
zero. -/
def roundedLength (q : Rat) : Double :=
  if q = 0 then 0
  else
    match Binary.ofRat .double q, Binary.ofNat .double 1000 with
    | .finite x, .finite thousand =>
      match x.mul thousand with
      | .finite scaled =>
        match scaled.round with
        | .finite whole => if whole.isZero then 0 else whole.div thousand
        | x => x
      | x => x
    | x, _ => x

namespace Layout

def value (layout : Layout) (h : Handle) (part : FramePart) : Rat :=
  Solver.valueIn layout.values ⟨h, part⟩

/-- The frame of a view, rounded. -/
def rect (layout : Layout) (h : Handle) : Rect :=
  ⟨roundedLength (layout.value h .left), roundedLength (layout.value h .top),
    roundedLength (layout.value h .width), roundedLength (layout.value h .height)⟩

end Layout

/-- The frame of the root, and the frames of the ids in their order. -/
structure Frames where
  root : Rect
  frames : List (String × Rect)

/-- The frames of the ids whose views have one. -/
def solveFrames {S V : Type} (solver : Solver S) (tree : ViewTree V) (ids : IdTable)
    (descriptors : List Descriptor) (width height : Double) : Except LayoutFault Frames := do
  let layout ← solveLayout solver tree ids descriptors width height
  let frames := ids.ids.filterMap fun id => do
    let h ← ids.handle? id
    if layout.placed.contains h then some (id, layout.rect h) else none
  return ⟨layout.rect .root, frames⟩

end ViewMarkup
