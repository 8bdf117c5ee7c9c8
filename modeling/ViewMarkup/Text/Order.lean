/-
# Names in order

Names are listed by code point, which is also the order of their UTF-8 bytes.

Key definitions: `sortNames`, `distinctNames`.
-/

namespace ViewMarkup

/-- Puts an item before the first that comes after it. -/
def insertBy {α : Type} (before : α → α → Bool) (x : α) : List α → List α
  | [] => [x]
  | y :: ys => if before x y then x :: y :: ys else y :: insertBy before x ys

/-- Sorts by a key, items with equal keys in the order they came. -/
def sortByName {α : Type} (key : α → String) (items : List α) : List α :=
  items.foldr (insertBy fun x y => !decide (key y < key x)) []

def sortNames (names : List String) : List String := sortByName id names

/-- The list without neighbours that repeat the one before. -/
def dropRepeats {α : Type} [DecidableEq α] : List α → List α
  | [] => []
  | [x] => [x]
  | x :: y :: rest => if x = y then dropRepeats (y :: rest) else x :: dropRepeats (y :: rest)

/-- The names, each once, in order. -/
def distinctNames (names : List String) : List String := dropRepeats (sortNames names)

end ViewMarkup
