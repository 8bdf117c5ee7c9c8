/-
# Documents

A document lists the outermost nodes of a view tree and the constraint specs
that lay them out.

Key definitions: `Document`, `Node`, `ConstraintSpec`, `Document.nodeCount`.
-/
import ViewMarkup.Json.Basic

namespace ViewMarkup

/-- A view to be built. Its attributes keep the order of the document. -/
inductive Node
  | mk (kind : String) (id : Option String) (attributes : List (String × Json))
      (children : List Node)
  deriving Inhabited

namespace Node

def kind : Node → String
  | mk kind _ _ _ => kind

def id : Node → Option String
  | mk _ id _ _ => id

def attributes : Node → List (String × Json)
  | mk _ _ attributes _ => attributes

def children : Node → List Node
  | mk _ _ _ children => children

mutual

/-- How many nodes there are, this one and all below it. -/
def count : Node → Nat
  | mk _ _ _ children => 1 + countAll children
termination_by structural n => n

def countAll : List Node → Nat
  | [] => 0
  | n :: rest => n.count + countAll rest
termination_by structural ns => ns

end

end Node

/-- A constraint in the visual format language, with its options and the numbers
its names stand for. -/
structure ConstraintSpec where
  format : String
  options : List String
  metrics : List (String × Double)
  deriving DecidableEq

structure Document where
  layout : List Node
  constraints : List ConstraintSpec
  deriving Inhabited

namespace Document

def nodeCount (doc : Document) : Nat := Node.countAll doc.layout

end Document

end ViewMarkup
