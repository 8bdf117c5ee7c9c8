/-
# The tree of views

Views are numbered as they are attached; number 0 is the container the
outermost views hang from. A view keeps its place for ever, and children keep
the order in which they were attached.

`walk` visits the tree with a stack, `outline` writes it down by recursion; both
take the number of nodes as a bound on their steps.

Key definitions: `ViewTree`, `ViewTree.insert`, `ViewTree.walk`,
`ViewTree.outline`.
-/

namespace ViewMarkup

/-- The number of a view in its tree. -/
structure Handle where
  index : Nat
  deriving DecidableEq

namespace Handle

def root : Handle := ⟨0⟩

def text (h : Handle) : String := "#" ++ toString h.index

end Handle

/-- A view and its place. The root container shows nothing itself. -/
structure ViewNode (V : Type) where
  kind : String
  id : Option String
  parent : Option Handle
  children : List Handle
  view : Option V

structure ViewTree (V : Type) where
  nodes : List (ViewNode V)

/-- The kind of the root container. -/
def rootKind : String := "@root"

namespace ViewTree

variable {V : Type}

/-- The root container alone. -/
def empty : ViewTree V := ⟨[⟨rootKind, none, none, [], none⟩]⟩

instance : Inhabited (ViewTree V) := ⟨empty⟩

/-- How many nodes there are, the root among them. -/
def size (tree : ViewTree V) : Nat := tree.nodes.length

def node? (tree : ViewTree V) (h : Handle) : Option (ViewNode V) := tree.nodes[h.index]?

def view? (tree : ViewTree V) (h : Handle) : Option V := (tree.node? h).bind ViewNode.view

def parent? (tree : ViewTree V) (h : Handle) : Option Handle := (tree.node? h).bind ViewNode.parent

def children (tree : ViewTree V) (h : Handle) : List Handle :=
  ((tree.node? h).map ViewNode.children).getD []

/-- Attaches a new view as the last child of `parent`. -/
def insert (tree : ViewTree V) (parent : Handle) (kind : String) (id : Option String) (view : V) :
    Handle × ViewTree V :=
  let h : Handle := ⟨tree.size⟩
  let nodes := tree.nodes.modify parent.index fun n => { n with children := n.children ++ [h] }
  (h, ⟨nodes ++ [⟨kind, id, some parent, [], some view⟩]⟩)

/-- Puts another state of a view in its place. -/
def setView (tree : ViewTree V) (h : Handle) (view : V) : ViewTree V :=
  ⟨tree.nodes.modify h.index fun n => { n with view := some view }⟩

/-- Takes handles off the stack and puts their children on it. -/
def walkFrom (tree : ViewTree V) : Nat → List Handle → List Handle
  | _, [] => []
  | 0, _ => []
  | fuel + 1, h :: stack => h :: walkFrom tree fuel (tree.children h ++ stack)

/-- All handles, parents before their children and children in order. -/
def walk (tree : ViewTree V) : List Handle := tree.walkFrom tree.size [.root]

def indent : Nat → String
  | 0 => ""
  | depth + 1 => "  " ++ indent depth

/-- One line for a node: its kind, and its id after a `#`. -/
def line (depth : Nat) (n : ViewNode V) : String :=
  indent depth ++ n.kind ++ ((n.id.map ("#" ++ ·)).getD "") ++ "\n"

/-- The lines of a node and all below it. -/
def outlineFrom (tree : ViewTree V) : Nat → Nat → Handle → String
  | 0, _, _ => ""
  | fuel + 1, depth, h =>
    match tree.node? h with
    | none => ""
    | some n => line depth n ++ String.join (n.children.map (outlineFrom tree fuel (depth + 1)))

/-- The tree as indented lines. -/
def outline (tree : ViewTree V) : String := tree.outlineFrom tree.size 0 .root

end ViewTree

end ViewMarkup
