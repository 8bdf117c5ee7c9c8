/-
# Rendered documents

A document is rendered as a whole or not at all: its views are built, then its
constraint specs are resolved, in order. What comes of it stays in step with the
data: when a change is announced at a path, the live templates that follow the
path are composed anew, all of them against the same views, and then one after
the other shown by their views and recorded. A text that a view refuses is
reported and not recorded, whatever the view has made of it.

Key definitions: `render`, `Rendered`, `Rendered.invalidate`,
`Rendered.processPending`.
-/
import ViewMarkup.Build
import ViewMarkup.Constraint.Resolve
import ViewMarkup.Inbox

namespace ViewMarkup

structure Rendered (V : Type) where
  registry : ViewRegistry V
  tree : ViewTree V
  ids : IdTable
  constraints : List Descriptor
  bindings : BindingGraph
  inbox : Inbox := {}

/-- The descriptors of the specs from the one at `index` on. -/
def resolveAll (ids : IdTable) (spacing : Spacing) : Nat → List ConstraintSpec →
    Except MarkupError (List Descriptor)
  | _, [] => .ok []
  | index, spec :: rest => do
    let here ← located (constraintPlace index) (resolve spec ids spacing)
    let others ← resolveAll ids spacing (index + 1) rest
    return here ++ others

/-- Renders a document against data. -/
def render {V : Type} (registry : ViewRegistry V) (config : Config) (doc : Document)
    (data : DataSource) : Except MarkupError (Rendered V) := do
  let build ← Builder.all ⟨registry, config, data⟩ doc.layout
  let constraints ← resolveAll build.ids config.spacing 0 doc.constraints
  return {
    registry
    tree := build.tree
    ids := build.ids
    constraints
    bindings := build.bindings }

namespace Rendered

variable {V : Type}

/-- The place of a binding's property. -/
def placeOf (r : Rendered V) (binding : Nat) : String :=
  ((r.bindings.binding? binding).map Binding.keyPath).getD ""

/-- Shows the text of an update by its view. -/
def display (r : Rendered V) (update : BindingUpdate) : Except MarkupError Unit × Rendered V :=
  match r.tree.node? update.target with
  | none => (.ok (), r)
  | some node =>
    match r.registry.class? node.kind, node.view with
    | some c, some view =>
      let (answer, view) :=
        c.set view update.property (.text update.value) (r.placeOf update.binding)
      (answer, { r with tree := r.tree.setView update.target view })
    | _, _ => (.ok (), r)

/-- Takes up one recomposed binding: a text that is new is shown and then
recorded. -/
def refresh (r : Rendered V) (result : Except MarkupError BindingUpdate) :
    Except MarkupError BindingUpdate × Rendered V :=
  match result with
  | .error e => (.error e, r)
  | .ok update =>
    if update.changed then
      match r.display update with
      | (.error e, shown) => (.error e, shown)
      | (.ok (), shown) =>
        (.ok update, { shown with bindings := shown.bindings.commit update.binding update.value })
    else (.ok update, r)

/-- Takes up recomposed bindings, one after the other. -/
def refreshAll (r : Rendered V) : List (Except MarkupError BindingUpdate) →
    List (Except MarkupError BindingUpdate) × Rendered V
  | [] => ([], r)
  | result :: rest =>
    let (first, r) := r.refresh result
    let (others, r) := r.refreshAll rest
    (first :: others, r)

/-- Announces that the data has changed at a path. -/
def invalidate (r : Rendered V) (path : String) (data : DataSource) :
    List (Except MarkupError BindingUpdate) × Rendered V :=
  r.refreshAll (r.bindings.recompose path data)

/-- Announces changes at several paths, one after the other. -/
def invalidateAll (r : Rendered V) (data : DataSource) : List String →
    List (Except MarkupError BindingUpdate) × Rendered V
  | [] => ([], r)
  | path :: rest =>
    let (first, r) := r.invalidate path data
    let (others, r) := r.invalidateAll data rest
    (first ++ others, r)

/-- Leaves a path to be announced later. -/
def post (r : Rendered V) (path : String) : Bool × Rendered V :=
  let (taken, inbox) := r.inbox.post path
  (taken, { r with inbox })

/-- Announces the changes that were left. -/
def processPending (r : Rendered V) (data : DataSource) :
    List (Except MarkupError BindingUpdate) × Rendered V :=
  { r with inbox := r.inbox.emptied }.invalidateAll data r.inbox.distinct

/-- The tree and the constraints alone, and the closed inbox. -/
def parts (r : Rendered V) : ViewTree V × List Descriptor × Inbox :=
  (r.tree, r.constraints, r.inbox.closed)

/-- The view of an id. -/
def handle? (r : Rendered V) (id : String) : Option Handle := r.ids.handle? id

end Rendered

end ViewMarkup
