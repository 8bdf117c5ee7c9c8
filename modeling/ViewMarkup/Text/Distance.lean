/-
# Similar names

The edit distance of two texts, computed row by row, and the names close enough
to a mistyped one to be suggested in its place.

Key definitions: `editDistance`, `similarNames`.
-/
import ViewMarkup.Text.Order

namespace ViewMarkup

/-- One row of the table of distances from the row before: `left` is the entry
just written, and the entries above are taken two at a time. -/
def nextRow (c : Char) : List Char → List Nat → Nat → List Nat
  | d :: word, diagonal :: above :: row, left =>
    let entry := min (min (above + 1) (left + 1)) (diagonal + if c = d then 0 else 1)
    entry :: nextRow c word (above :: row) entry
  | _, _, _ => []

/-- The row for one more character of the first text. -/
def extendRow (word : List Char) (row : List Nat) (c : Char) : List Nat :=
  (row.headD 0 + 1) :: nextRow c word row (row.headD 0 + 1)

/-- The least number of insertions, deletions and substitutions that turn one
text into the other. -/
def editDistance (a b : String) : Nat :=
  (a.toList.foldl (extendRow b.toList) (List.range (b.toList.length + 1))).getLastD 0

/-- How many names are suggested at most. -/
def suggestionLimit : Nat := 3

/-- The candidates at distance 1 to `limit` from the target, closest first and
otherwise in their order. One that shares nothing with the target is left out,
and of equal neighbours only the first is kept. -/
def similarNames (candidates : List String) (target : String) (limit : Nat) : List String :=
  let scored := candidates.map fun name => (name, editDistance name target)
  let near := (List.range limit).flatMap fun d =>
    scored.filter fun s => s.2 = d + 1 && d + 1 < target.length
  ((dropRepeats near).map Prod.fst).take suggestionLimit

end ViewMarkup
