/-
# The standard views

Plain views, labels and image views, with the properties that documents set on
them. All three share a base. A setter first reads the value, and puts something
into the view only when it could be read.

Key definitions: `ViewBase`, `Label`, `ImageView`, `StandardView`,
`TextAlignment`, `ViewRegistry.standard`.
-/
import ViewMarkup.View.Class

namespace ViewMarkup

/-- What every standard view has. -/
structure ViewBase where
  backgroundColor : Option Color := none
  frame : Option Rect := none
  hidden : Bool := false
  /-- Between 0 and 1. -/
  alpha : Double := 1
  tag : Int := 0
  /-- Not negative. -/
  cornerRadius : Double := 0
  translatesAutoresizingMask : Bool := true
  deriving DecidableEq

inductive TextAlignment
  | left
  | center
  | right
  | justified
  | natural
  deriving DecidableEq

structure Label where
  base : ViewBase := {}
  text : String := ""
  textColor : Option Color := none
  textAlignment : TextAlignment := .natural
  /-- Not negative. -/
  numberOfLines : Int := 1
  /-- Not negative. -/
  fontSize : Double := 17
  deriving DecidableEq

structure ImageView where
  base : ViewBase := {}
  image : Option String := none
  tintColor : Option Color := none
  deriving DecidableEq

inductive StandardView
  | plain (base : ViewBase)
  | label (view : Label)
  | image (view : ImageView)
  deriving DecidableEq

namespace StandardView

def plain? : StandardView → Option ViewBase
  | plain base => some base
  | _ => none

def label? : StandardView → Option Label
  | label view => some view
  | _ => none

def image? : StandardView → Option ImageView
  | image view => some view
  | _ => none

/-- What the view shares with all others. -/
def base : StandardView → ViewBase
  | plain base => base
  | label view => view.base
  | image view => view.base

end StandardView

namespace TextAlignment

/-- The alignments by number. -/
def ofNumber? : Int → Option TextAlignment
  | 0 => some left
  | 1 => some center
  | 2 => some right
  | 3 => some justified
  | 4 => some natural
  | _ => none

/-- The alignments by name. -/
def ofName? : String → Option TextAlignment
  | "left" => some left
  | "center" => some center
  | "right" => some right
  | "justified" => some justified
  | "natural" => some natural
  | _ => none

/-- What spells a whole number is taken for the number, everything else for a
name. -/
def ofValue (value : PropertyValue) : Except PropertyError TextAlignment :=
  match value.wholeNumber? with
  | some n =>
    match ofNumber? n with
    | some a => .ok a
    | none => .error (.outOfRange (toString n) "text alignment must be 0..=4")
  | none => do
    let name ← value.asString
    match ofName? name with
    | some a => return a
    | none => throw (.outOfRange name "expected left, center, right, justified or natural")

end TextAlignment

namespace PropertyValue

/-- A number from 0 to 1. -/
def asFraction (value : PropertyValue) : Except PropertyError Double := do
  let x ← value.asDouble
  if Binary.le 0 x && x.le 1 then return x
  else throw (.outOfRange x.text "must be between 0 and 1")

/-- A number that is not negative. What is not a number is refused as well. -/
def asMagnitude (value : PropertyValue) : Except PropertyError Double := do
  let x ← value.asDouble
  if Binary.le 0 x then return x
  else throw (.outOfRange x.text "must not be negative")

/-- A whole number that is not negative. -/
def asCount (value : PropertyValue) : Except PropertyError Int := do
  let n ← value.asInteger
  if n < 0 then throw (.outOfRange (toString n) "must not be negative")
  else return n

/-- Text to show: JSON is inserted as into a template. -/
def asShown (value : PropertyValue) : Except PropertyError String :=
  match value with
  | json v => .ok v.inserted
  | v => v.asString

end PropertyValue

/-- A setter that reads a value and then puts it into a view. -/
def Setter.of {V α : Type} (read : PropertyValue → Except PropertyError α) (put : V → α → V) :
    Setter V := fun view value =>
  match read value with
  | .ok a => (.ok (), put view a)
  | .error e => (.error e, view)

namespace ViewBase

/-- The properties of every standard view. -/
def setters : List (String × Setter ViewBase) :=
  [("backgroundColor", .of PropertyValue.asColor fun v c => { v with backgroundColor := some c }),
   ("frame", .of PropertyValue.asRect fun v r => { v with frame := some r }),
   ("hidden", .of PropertyValue.asBool fun v b => { v with hidden := b }),
   ("alpha", .of PropertyValue.asFraction fun v x => { v with alpha := x }),
   ("tag", .of PropertyValue.asInteger fun v n => { v with tag := n }),
   ("cornerRadius", .of PropertyValue.asMagnitude fun v x => { v with cornerRadius := x }),
   ("translatesAutoresizingMaskIntoConstraints",
     .of PropertyValue.asBool fun v b => { v with translatesAutoresizingMask := b })]

/-- The shared properties of views that have a base. -/
def settersWithin {V : Type} (get : V → ViewBase) (put : V → ViewBase → V) :
    List (String × Setter V) :=
  setters.map fun s => (s.1, Setter.within get put s.2)

end ViewBase

namespace Label

/-- The properties of labels alone. -/
def setters : List (String × Setter Label) :=
  [("text", .of PropertyValue.asShown fun l s => { l with text := s }),
   ("textColor", .of PropertyValue.asColor fun l c => { l with textColor := some c }),
   ("textAlignment", .of TextAlignment.ofValue fun l a => { l with textAlignment := a }),
   ("numberOfLines", .of PropertyValue.asCount fun l n => { l with numberOfLines := n }),
   ("fontSize", .of PropertyValue.asMagnitude fun l x => { l with fontSize := x })]

end Label

namespace ImageView

/-- The properties of image views alone. -/
def setters : List (String × Setter ImageView) :=
  [("image", .of PropertyValue.asString fun v s => { v with image := some s }),
   ("tintColor", .of PropertyValue.asColor fun v c => { v with tintColor := some c })]

end ImageView

namespace StandardView

def plainClass : ViewClass StandardView :=
  ((ViewClass.ofKind "UIView" ({} : ViewBase)).withProperties ViewBase.setters).embed plain plain?

def labelClass : ViewClass StandardView :=
  ((ViewClass.ofKind "UILabel" ({} : Label)).withProperties
    (ViewBase.settersWithin Label.base (fun l base => { l with base }) ++ Label.setters)).embed
      label label?

def imageClass : ViewClass StandardView :=
  ((ViewClass.ofKind "UIImageView" ({} : ImageView)).withProperties
    (ViewBase.settersWithin ImageView.base (fun v base => { v with base }) ++
      ImageView.setters)).embed image image?

end StandardView

/-- The registry of the standard views. -/
def ViewRegistry.standard : ViewRegistry StandardView :=
  ((empty.withClass StandardView.plainClass).withClass StandardView.labelClass).withClass
    StandardView.imageClass

end ViewMarkup
