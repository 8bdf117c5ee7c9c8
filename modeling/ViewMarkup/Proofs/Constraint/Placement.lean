/-
# What a descriptor says of frames

A placement gives every view and the superview a frame, all in the same
coordinates, which grow to the right and downwards. Lengths are rationals, and a
descriptor speaks of the exact values of its numbers; one whose numbers are not
finite holds of no placement.

Key definitions: `Placement`, `Placement.measure`, `Descriptor.Holds`.
Key theorems: `Descriptor.fixed_holds_iff`, `Descriptor.between_holds_iff`,
`Relation.mirrored_holds_iff`.
-/
import Mathlib.Tactic.Linarith
import ViewMarkup.Constraint.Descriptor

namespace ViewMarkup

structure Frame where
  x : Rat
  y : Rat
  width : Rat
  height : Rat

/-- Where an anchor of the frame is, or what it measures. Text runs from left to
right, and a view without text has its first baseline at the top and its last
one at the bottom. -/
def Frame.measure (frame : Frame) : Anchor → Rat
  | .left | .leading => frame.x
  | .right | .trailing => frame.x + frame.width
  | .top | .firstBaseline => frame.y
  | .bottom | .baseline | .lastBaseline => frame.y + frame.height
  | .width => frame.width
  | .height => frame.height
  | .centerX => frame.x + frame.width / 2
  | .centerY => frame.y + frame.height / 2

/-- The frames of the views, by their ids, and of the superview. -/
structure Placement where
  superview : Frame
  view : String → Frame

namespace Placement

variable (placement : Placement)

def frame : Item → Frame
  | .superview => placement.superview
  | .view id => placement.view id

def measure (item : Item) (anchor : Anchor) : Rat := (placement.frame item).measure anchor

end Placement

/-! ### Relations -/

namespace Relation

/-- The first length relates to the second one so. -/
def Holds : Relation → Rat → Rat → Prop
  | equal, a, b => a = b
  | atLeast, a, b => b ≤ a
  | atMost, a, b => a ≤ b

theorem mirrored_holds_iff (r : Relation) (a b : Rat) :
    r.mirrored.Holds a b ↔ r.Holds (-a) (-b) := by
  cases r with
  | equal => exact neg_inj.symm
  | atLeast => exact neg_le_neg_iff.symm
  | atMost => exact neg_le_neg_iff.symm

theorem holds_sub_iff (r : Relation) (a b c : Rat) : r.Holds (a - b) c ↔ r.Holds a (b + c) := by
  cases r with
  | equal => exact sub_eq_iff_eq_add'
  | atLeast => exact le_sub_iff_add_le'
  | atMost => exact sub_le_iff_le_add'

end Relation

/-! ### Numbers -/

namespace Binary

variable {f : FloatFormat}

theorem value?_neg (x : Binary f) : x.neg.value? = x.value?.map fun q => -q := by
  rcases x with _ | _ | ⟨negative, rank⟩
  · rfl
  · rfl
  · cases negative <;> simp [neg, value?, Finite.neg, Finite.value, Finite.units, Rat.neg_mkRat]

end Binary

/-! ### Descriptors -/

namespace Descriptor

/-- The placement satisfies the descriptor, whatever its priority. -/
def Holds (d : Descriptor) (placement : Placement) : Prop :=
  ∃ multiplier constant, d.multiplier.value? = some multiplier ∧ d.constant.value? = some constant ∧
    d.relation.Holds (placement.measure d.first d.firstAnchor)
      (match d.right? with
      | none => constant
      | some (item, anchor) => multiplier * placement.measure item anchor + constant)

variable {placement : Placement}

theorem withPriority_holds_iff {d : Descriptor} {p : Priority} :
    (d.withPriority p).Holds placement ↔ d.Holds placement := Iff.rfl

theorem value?_one : (1 : Double).value? = some 1 := by decide +kernel

theorem fixed_holds_iff {item : Item} {anchor : Anchor} {r : Relation} {x : Double} :
    (fixed item anchor r x).Holds placement ↔
      ∃ c, x.value? = some c ∧ r.Holds (placement.measure item anchor) c := by
  constructor
  · rintro ⟨_, c, -, hc, h⟩
    exact ⟨c, hc, h⟩
  · rintro ⟨c, hc, h⟩
    exact ⟨1, c, value?_one, hc, h⟩

theorem between_holds_iff {first second : Item} {a b : Anchor} {r : Relation} {x : Double} :
    (between first a r second b x).Holds placement ↔
      ∃ c, x.value? = some c ∧
        r.Holds (placement.measure first a) (placement.measure second b + c) := by
  constructor
  · rintro ⟨m, c, hm, hc, h⟩
    obtain rfl := Option.some.inj (value?_one.symm.trans hm)
    exact ⟨c, hc, by rw [← one_mul (placement.measure second b)]; exact h⟩
  · rintro ⟨c, hc, h⟩
    refine ⟨1, c, value?_one, hc, ?_⟩
    rw [← one_mul (placement.measure second b)] at h
    exact h

end Descriptor

end ViewMarkup
