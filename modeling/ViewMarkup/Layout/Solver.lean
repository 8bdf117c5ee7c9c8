/-
# Constraints on frames, and what solves them

The unknowns of a layout are the left edge, the top edge, the width and the
height of each view, in the coordinates of the root. A constraint relates a
linear expression in them to zero; it is required or has a weight, by which its
violation counts. A solver takes constraints up one by one, refuses a required
one that cannot hold with those before it, and in the end gives the unknowns
values of the least weighted violation.

Key definitions: `Unknown`, `LinearConstraint`, `Strength`, `Solver`.
-/
import ViewMarkup.Format.Tree
import ViewMarkup.Layout.Linear
import ViewMarkup.View.Tree

namespace ViewMarkup

/-- What is unknown of a frame. -/
inductive FramePart
  | left
  | top
  | width
  | height
  deriving DecidableEq

structure Unknown where
  view : Handle
  part : FramePart
  deriving DecidableEq

/-- How much the violation of a constraint counts. -/
inductive Strength
  | required
  | strong
  | medium
  | weak
  deriving DecidableEq

/-- The weight of a constraint that need not hold. -/
def Strength.weight? : Strength → Option Rat
  | required => none
  | strong => some 1000000
  | medium => some 1000
  | weak => some 1

/-- `expression relation 0` -/
structure LinearConstraint where
  expression : Linear Unknown
  relation : Relation
  strength : Strength

namespace LinearConstraint

/-- Whether the constraint holds for these values. -/
def Holds (c : LinearConstraint) (values : Unknown → Rat) : Prop :=
  match c.relation with
  | .equal => c.expression.eval values = 0
  | .atLeast => 0 ≤ c.expression.eval values
  | .atMost => c.expression.eval values ≤ 0

end LinearConstraint

/-- A way to solve constraints. An unknown that the solution does not mention is
zero. -/
structure Solver (S : Type) where
  empty : S
  add : LinearConstraint → S → Option S
  solution : S → List (Unknown × Rat)

namespace Solver

variable {S : Type}

/-- The value of an unknown. -/
def valueIn (solution : List (Unknown × Rat)) (x : Unknown) : Rat := (solution.lookup x).getD 0

end Solver

end ViewMarkup
