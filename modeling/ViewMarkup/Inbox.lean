/-
# Queued changes

Whoever changes data may leave the path of the change for later. Paths are kept
in the order they came until they are taken out; a closed inbox takes no more.

Key definitions: `Inbox`, `Inbox.post`, `Inbox.distinct`.
-/

namespace ViewMarkup

structure Inbox where
  isOpen : Bool := true
  paths : List String := []

namespace Inbox

/-- Leaves a path; whether it was taken is answered. -/
def post (inbox : Inbox) (path : String) : Bool × Inbox :=
  if inbox.isOpen then (true, { inbox with paths := inbox.paths ++ [path] }) else (false, inbox)

def emptied (inbox : Inbox) : Inbox := { inbox with paths := [] }

def closed (inbox : Inbox) : Inbox := { inbox with isOpen := false }

/-- Adds a path unless it is there. -/
def addNew (paths : List String) (path : String) : List String :=
  if paths.contains path then paths else paths ++ [path]

/-- The paths left, each once, in the order of their first mention. -/
def distinct (inbox : Inbox) : List String := inbox.paths.foldl addNew []

end Inbox

end ViewMarkup
