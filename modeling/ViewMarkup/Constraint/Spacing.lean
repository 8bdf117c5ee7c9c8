/-
# Default spacing

The gaps that a format leaves to its reader: one between siblings, one between
a view and the edge of its superview.

Key definitions: `Spacing`, `Spacing.between`.
-/
import ViewMarkup.Numeric.Binary

namespace ViewMarkup

structure Spacing where
  sibling : Double
  superview : Double

namespace Spacing

def standard : Spacing := ⟨8, 20⟩

instance : Inhabited Spacing := ⟨standard⟩

/-- The gap of a bare dash. -/
def between (spacing : Spacing) (touchesSuperview : Bool) : Double :=
  if touchesSuperview then spacing.superview else spacing.sibling

end Spacing

end ViewMarkup
