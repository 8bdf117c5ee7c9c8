/-
# Cells of a line

How many cells of a terminal line a character takes.

Key definitions: `cellWidth`.
-/
import ViewMarkup.Text.CharTable

namespace ViewMarkup

/-- Two cells for wide characters, none for those without a place of their own,
one for all others. -/
def cellWidth (c : Char) : Nat :=
  if c.toNat < 0xa0 then 1
  else if CharTable.holds CharTable.zeroWidth c then 0
  else if CharTable.holds CharTable.wide c then 2
  else 1

end ViewMarkup
