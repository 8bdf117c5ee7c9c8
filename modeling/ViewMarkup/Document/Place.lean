/-
# Places in a document

A node is found by the indices that lead to it: first among the outermost nodes,
then among the children of each node on the way. Errors and ids name a place by
its key path.

Key definitions: `NodePlace`, `NodePlace.text`, `NodePlace.property`,
`constraintPlace`.
-/
import ViewMarkup.Document.Reading

namespace ViewMarkup

/-- The indices that lead to a node. -/
abbrev NodePlace := List Nat

def indexed (key : String) (index : Nat) : String := key ++ "[" ++ toString index ++ "]"

namespace NodePlace

/-- The key path of a node: `@layout[0].@subviews[2]` for the third child of the
first node. -/
def text : NodePlace → String
  | [] => Document.layoutKey
  | first :: rest =>
    rest.foldl (fun path index => path ++ "." ++ indexed Node.childrenKey index)
      (indexed Document.layoutKey first)

/-- The key path of an attribute of a node. -/
def property (place : NodePlace) (name : String) : String := place.text ++ "." ++ name

end NodePlace

/-- The key path of a constraint spec. -/
def constraintPlace (index : Nat) : String := indexed Document.constraintsKey index

end ViewMarkup
