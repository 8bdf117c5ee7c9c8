/-
# Building views

Nodes are built in document order, a node before its children. A node's view is
attached to the tree first, then its id is declared, then its attributes are set
in their order, and then its children are built. The first thing that fails ends
the build with an error at its place.

Key definitions: `Builder`, `Build`, `Builder.setAttribute`, `Builder.node`,
`Builder.all`.
-/
import ViewMarkup.AttributeValue
import ViewMarkup.Binding.Graph
import ViewMarkup.Config
import ViewMarkup.Document.Place
import ViewMarkup.Text.Distance
import ViewMarkup.View.Class
import ViewMarkup.View.IdTable

namespace ViewMarkup

namespace AttributeValue

/-- What is set on the view. -/
def compose (value : AttributeValue) (data : DataSource) (root : String) :
    Except MarkupError PropertyValue :=
  match value with
  | literal v => .ok (.json v)
  | namedColor _ color => .ok (.color color)
  | hexColor _ color => .ok (.color color)
  | template t => (t.compose data root).map .text

end AttributeValue

namespace ViewClass

variable {V : Type}

/-- An attribute that views of the class do not have. -/
def unknownProperty (c : ViewClass V) (name keyPath : String) : MarkupError where
  fault := .unsupportedAttribute c.kind name
    (c.kind ++ " has no settable property '" ++ name ++ "'" ++
      didYouMean (similarNames c.properties name 2))
  keyPath

/-- Sets a property of a view, or says at its place why it cannot be set. The view
is given back as the setter has left it. -/
def set (c : ViewClass V) (view : V) (name : String) (value : PropertyValue) (keyPath : String) :
    Except MarkupError Unit × V :=
  match c.apply view name value with
  | (some (.ok ()), view) => (.ok (), view)
  | (some (.error e), view) => (.error ⟨.unsupportedAttribute c.kind name e.message, keyPath⟩, view)
  | (none, view) => (.error (c.unknownProperty name keyPath), view)

end ViewClass

/-- What a build draws on. -/
structure Builder (V : Type) where
  registry : ViewRegistry V
  config : Config
  data : DataSource

/-- What has been built. -/
structure Build (V : Type) where
  tree : ViewTree V
  ids : IdTable
  bindings : BindingGraph

namespace Build

variable {V : Type}

/-- Nothing but the root container. -/
def start (root : String) : Build V := ⟨.empty, .empty, .empty root⟩

/-- Declares an id, if there is one. -/
def declare (build : Build V) (id : Option String) (entry : IdEntry) :
    Except MarkupError (Build V) :=
  match id with
  | none => .ok build
  | some id =>
    match build.ids.declare id entry with
    | .ok ids => .ok { build with ids }
    | .error first => .error ⟨.duplicateId id first.keyPath, entry.keyPath⟩

/-- Binds the template of a value that was set, if there is one and it is
live. -/
def bind (build : Build V) (target : Handle) (name keyPath : String) (value : AttributeValue)
    (shown : PropertyValue) : Build V :=
  match value, shown with
  | .template t, .text composed =>
    { build with bindings := (build.bindings.register target name t composed keyPath).2 }
  | _, _ => build

end Build

namespace Builder

variable {V : Type} (b : Builder V)

/-- Sets one attribute of a view. That there is such a property is looked at
before its value. -/
def setAttribute (c : ViewClass V) (target : Handle) (place : NodePlace) (build : Build V)
    (entry : String × Json) : Except MarkupError (Build V) :=
  let (name, raw) := entry
  let keyPath := place.property name
  if c.hasProperty name then do
    let value ← located keyPath (AttributeValue.resolve raw b.config.palette)
    let shown ← located keyPath (value.compose b.data build.bindings.root)
    match build.tree.view? target with
    | none => return build.bind target name keyPath value shown
    | some view =>
      let (answer, view) := c.set view name shown keyPath
      answer
      return { build with tree := build.tree.setView target view }.bind target name keyPath value
        shown
  else .error (c.unknownProperty name keyPath)

/-- Builds the view of a node and what belongs to the node itself: the class of
its kind, the new view's handle and the build so far. -/
def own (kind : String) (id : Option String) (attributes : List (String × Json))
    (parent : Handle) (place : NodePlace) (build : Build V) :
    Except MarkupError (Handle × Build V) :=
  match b.registry.class? kind with
  | none =>
    .error ⟨.unknownKind kind (similarNames b.registry.kinds kind 2), place.text⟩
  | some c => do
    let (handle, tree) := build.tree.insert parent kind id c.create
    let build ← { build with tree }.declare id ⟨handle, parent, place.text⟩
    let build ← attributes.foldlM (b.setAttribute c handle place) build
    return (handle, build)

mutual

/-- Builds a node and all below it. -/
def node : Node → Handle → NodePlace → Build V → Except MarkupError (Build V)
  | .mk kind id attributes children, parent, place, build => do
    let (handle, build) ← b.own kind id attributes parent place build
    siblings children handle place 0 build
termination_by structural n => n

/-- Builds the nodes from the one at `index` on, all below the same node. -/
def siblings : List Node → Handle → NodePlace → Nat → Build V → Except MarkupError (Build V)
  | [], _, _, _, build => .ok build
  | n :: rest, parent, place, index, build => do
    let build ← node n parent (place ++ [index]) build
    siblings rest parent place (index + 1) build
termination_by structural ns => ns

end

/-- Builds the outermost nodes. -/
def all (nodes : List Node) : Except MarkupError (Build V) :=
  b.siblings nodes .root [] 0 (.start b.config.root)

end Builder

end ViewMarkup
