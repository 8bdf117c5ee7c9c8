/-
# Declared ids

The ids of a document, each with the view that declared it first.

Key definitions: `IdTable`, `IdTable.declare`, `IdTable.ids`.
-/
import ViewMarkup.Text.Order
import ViewMarkup.View.Tree

namespace ViewMarkup

structure IdEntry where
  handle : Handle
  parent : Handle
  /-- Where the id was declared. -/
  keyPath : String
  deriving DecidableEq

/-- The entries in the order of their declaration. -/
structure IdTable where
  entries : List (String × IdEntry)

namespace IdTable

def empty : IdTable := ⟨[]⟩

instance : Inhabited IdTable := ⟨empty⟩

def entry? (table : IdTable) (id : String) : Option IdEntry := table.entries.lookup id

def handle? (table : IdTable) (id : String) : Option Handle :=
  (table.entry? id).map IdEntry.handle

def contains (table : IdTable) (id : String) : Bool := (table.entry? id).isSome

/-- Adds an id, or answers the entry that has it. -/
def declare (table : IdTable) (id : String) (entry : IdEntry) : Except IdEntry IdTable :=
  match table.entry? id with
  | some first => .error first
  | none => .ok ⟨table.entries ++ [(id, entry)]⟩

/-- The declared ids, in order. -/
def ids (table : IdTable) : List String := sortNames (table.entries.map Prod.fst)

def size (table : IdTable) : Nat := table.entries.length

end IdTable

end ViewMarkup
