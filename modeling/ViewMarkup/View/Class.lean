/-
# View classes

A class knows how a new view of its kind looks and which properties it has. To
set a property is to answer whether the value is taken, and to leave the view in
some state either way: a setter may change a view before it refuses. A registry
holds one class for each kind.

Classes for one type of view become classes for a wider type by
`ViewClass.embed`; they refuse a view that is not of the narrow type, and leave it
as it is.

Key definitions: `Setter`, `ViewClass`, `ViewClass.apply`, `ViewClass.embed`,
`ViewRegistry`, `ViewRegistry.register`.
-/
import ViewMarkup.Text.Order
import ViewMarkup.Text.Quoted
import ViewMarkup.View.Property

namespace ViewMarkup

/-- Sets a property of a view. The view is given back whatever the answer. -/
abbrev Setter (V : Type) := V → PropertyValue → Except PropertyError Unit × V

/-- A setter for a part of a view. -/
def Setter.within {V W : Type} (get : V → W) (put : V → W → V) (set : Setter W) : Setter V :=
  fun view value =>
    let (answer, part) := set (get view) value
    (answer, put view part)

structure ViewClass (V : Type) where
  kind : String
  create : V
  setters : List (String × Setter V)

namespace ViewClass

variable {V W : Type}

/-- Puts a setter under a name, in place of the one that is there. -/
def setSetter (name : String) (set : Setter V) :
    List (String × Setter V) → List (String × Setter V)
  | [] => [(name, set)]
  | (n, s) :: rest =>
    if n = name then (n, set) :: rest else (n, s) :: setSetter name set rest

/-- A class without properties. -/
def ofKind (kind : String) (create : V) : ViewClass V := ⟨kind, create, []⟩

def withProperty (c : ViewClass V) (name : String) (set : Setter V) : ViewClass V :=
  { c with setters := setSetter name set c.setters }

def withProperties (c : ViewClass V) (setters : List (String × Setter V)) : ViewClass V :=
  setters.foldl (fun c s => c.withProperty s.1 s.2) c

def setter? (c : ViewClass V) (name : String) : Option (Setter V) := c.setters.lookup name

def hasProperty (c : ViewClass V) (name : String) : Bool := (c.setter? name).isSome

/-- The names of the properties, in order. -/
def properties (c : ViewClass V) : List String := sortNames (c.setters.map Prod.fst)

/-- Sets a property. There is no answer if there is none of the name. -/
def apply (c : ViewClass V) (view : V) (name : String) (value : PropertyValue) :
    Option (Except PropertyError Unit) × V :=
  match c.setter? name with
  | some set =>
    let (answer, view) := set view value
    (some answer, view)
  | none => (none, view)

/-- A setter of a narrow type of view, on a wider one. -/
def embedSetter (lift : W → V) (narrow? : V → Option W) (set : Setter W) : Setter V :=
  fun view value =>
    match narrow? view with
    | some w =>
      let (answer, w) := set w value
      (answer, lift w)
    | none => (.error .wrongViewType, view)

/-- A class of a narrow type of view, as a class of a wider one. -/
def embed (lift : W → V) (narrow? : V → Option W) (c : ViewClass W) : ViewClass V :=
  ⟨c.kind, lift c.create, c.setters.map fun s => (s.1, embedSetter lift narrow? s.2)⟩

/-- The class in one line. -/
def text (c : ViewClass V) : String :=
  "ViewClass \x7b kind: " ++ quoted c.kind ++ ", properties: [" ++
    String.intercalate ", " (c.properties.map quoted) ++ "] \x7d"

end ViewClass

/-- The classes, each of another kind. -/
structure ViewRegistry (V : Type) where
  classes : List (ViewClass V)

namespace ViewRegistry

variable {V W : Type}

def empty : ViewRegistry V := ⟨[]⟩

instance : Inhabited (ViewRegistry V) := ⟨empty⟩

def class? (registry : ViewRegistry V) (kind : String) : Option (ViewClass V) :=
  registry.classes.find? fun c => c.kind = kind

def contains (registry : ViewRegistry V) (kind : String) : Bool := (registry.class? kind).isSome

/-- Adds a class; the class it takes the place of is answered. -/
def register (registry : ViewRegistry V) (c : ViewClass V) :
    Option (ViewClass V) × ViewRegistry V :=
  (registry.class? c.kind, ⟨registry.classes.filter (fun d => d.kind ≠ c.kind) ++ [c]⟩)

def withClass (registry : ViewRegistry V) (c : ViewClass V) : ViewRegistry V :=
  (registry.register c).2

/-- The kinds, in order. -/
def kinds (registry : ViewRegistry V) : List String :=
  sortNames (registry.classes.map ViewClass.kind)

def size (registry : ViewRegistry V) : Nat := registry.classes.length

/-- The same classes for a wider type of view. -/
def embed (lift : W → V) (narrow? : V → Option W) (registry : ViewRegistry W) :
    ViewRegistry V := ⟨registry.classes.map (ViewClass.embed lift narrow?)⟩

end ViewRegistry

end ViewMarkup
