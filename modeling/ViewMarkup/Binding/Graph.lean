/-
# The binding graph

A live template is bound to a property of a view. The graph remembers the
bindings and, for each path that one of them follows, which ones do. A change at
a path concerns a binding if the binding's path and the changed one lie one at
or below the other; both are compared below the data object, segment by segment.

Recomposing a binding does not record the result: that is done by `commit`, once
whoever shows the value has accepted it.

Key definitions: `BindingGraph`, `BindingGraph.register`,
`BindingGraph.dependents`, `BindingGraph.recompose`, `BindingGraph.commit`,
`BindingGraph.invalidate`.
-/
import ViewMarkup.Template.Basic
import ViewMarkup.Text.Order
import ViewMarkup.View.Tree

namespace ViewMarkup

/-- A live template and the property it is shown by. -/
structure Binding where
  target : Handle
  property : String
  template : Template
  /-- Where the property is set in the document. -/
  keyPath : String
  /-- The text that was accepted last. -/
  composed : String
  deriving DecidableEq

/-- What became of a binding when it was recomposed. -/
structure BindingUpdate where
  binding : Nat
  target : Handle
  property : String
  value : String
  /-- Whether the value differs from the one accepted last. -/
  changed : Bool
  deriving DecidableEq

/-- Bindings by number, and for each followed path the numbers of its
bindings. -/
structure BindingGraph where
  root : String
  bindings : List Binding
  edges : List (List String × List Nat)

namespace BindingGraph

def empty (root : String) : BindingGraph := ⟨root, [], []⟩

def binding? (graph : BindingGraph) (id : Nat) : Option Binding := graph.bindings[id]?

def size (graph : BindingGraph) : Nat := graph.bindings.length

/-- Adds a binding to those of a path. -/
def addEdge (id : Nat) (path : List String) :
    List (List String × List Nat) → List (List String × List Nat)
  | [] => [(path, [id])]
  | (p, ids) :: rest =>
    if p = path then (p, if ids.contains id then ids else ids ++ [id]) :: rest
    else (p, ids) :: addEdge id path rest

/-- Binds a template, if it is live. -/
def register (graph : BindingGraph) (target : Handle) (property : String) (template : Template)
    (composed keyPath : String) : Option Nat × BindingGraph :=
  if template.isLive then
    let id := graph.size
    let edges := (template.livePaths.map (Path.relative · graph.root)).foldl
      (fun edges path => addEdge id path edges) graph.edges
    (some id, { graph with
      bindings := graph.bindings ++ [⟨target, property, template, keyPath, composed⟩]
      edges })
  else (none, graph)

/-- Whether one of two paths lies at or below the other. -/
def related (a b : List String) : Bool := a.isPrefixOf b || b.isPrefixOf a

/-- The bindings that follow a path related to this one, in the order of their
registration. -/
def dependentsOn (graph : BindingGraph) (path : List String) : List Nat :=
  (List.range graph.size).filter fun id =>
    graph.edges.any fun edge => related edge.1 path && edge.2.contains id

/-- The bindings that a change at a path concerns. -/
def dependents (graph : BindingGraph) (path : String) : Except MarkupError (List Nat) :=
  (Path.parse path).map fun p => graph.dependentsOn (p.relative graph.root)

/-- Composes one binding anew. An error is placed at the binding's property. -/
def recomposeOne (root : String) (data : DataSource) (id : Nat) (b : Binding) :
    Except MarkupError BindingUpdate :=
  match b.template.compose data root with
  | .ok value => .ok ⟨id, b.target, b.property, value, value ≠ b.composed⟩
  | .error e => .error (e.placedAt b.keyPath)

/-- Composes the bindings that a change at a path concerns, and keeps the graph
as it is. -/
def recompose (graph : BindingGraph) (path : String) (data : DataSource) :
    List (Except MarkupError BindingUpdate) :=
  match graph.dependents path with
  | .error e => [.error e]
  | .ok ids =>
    ids.filterMap fun id => (graph.binding? id).map (recomposeOne graph.root data id)

/-- Records the text of a binding. -/
def commit (graph : BindingGraph) (id : Nat) (value : String) : BindingGraph :=
  { graph with bindings := graph.bindings.modify id fun b => { b with composed := value } }

def commitUpdate (graph : BindingGraph) : Except MarkupError BindingUpdate → BindingGraph
  | .ok update => graph.commit update.binding update.value
  | .error _ => graph

/-- Composes the bindings that a change concerns, and records what composes. -/
def invalidate (graph : BindingGraph) (path : String) (data : DataSource) :
    List (Except MarkupError BindingUpdate) × BindingGraph :=
  let results := graph.recompose path data
  (results, results.foldl commitUpdate graph)

/-- The followed paths as keys, in order. -/
def paths (graph : BindingGraph) : List String :=
  sortNames (graph.edges.map fun edge => Path.joined edge.1)

end BindingGraph

end ViewMarkup
