/-
# What linear constraints say

Values for the unknowns give every view a frame. An anchor is a linear expression
whose value is what one measures of the frame, and a descriptor is a constraint
between two of them. So the constraint holds of the values iff the descriptor
holds of the frames.

Key definitions: `frameAt`.
Key theorems: `Linear.eval_add`, `Linear.eval_scale`, `Anchor.eval_expression`,
`Descriptor.constraint?_holds_iff`.
-/
import Mathlib.Algebra.BigOperators.Ring.List
import Mathlib.Tactic.Ring
import ViewMarkup.Layout.Frames
import ViewMarkup.Proofs.Constraint.Placement

namespace ViewMarkup

/-! ### Values -/

namespace Linear

variable {α : Type} (values : α → Rat)

/-- What the terms come to together. -/
def total (terms : List (α × Rat)) : Rat := (terms.map fun t => t.2 * values t.1).sum

theorem total_cons (t : α × Rat) (terms : List (α × Rat)) :
    total values (t :: terms) = t.2 * values t.1 + total values terms := List.sum_cons

theorem eval_eq (e : Linear α) : e.eval values = total values e.terms + e.constant := by
  obtain ⟨constant, terms⟩ := e
  induction terms with
  | nil => exact (zero_add constant).symm
  | cons t terms ih =>
    have hcons : eval values ⟨constant, t :: terms⟩ =
        t.2 * values t.1 + eval values ⟨constant, terms⟩ := rfl
    rw [hcons, ih, total_cons, add_assoc]

@[simp]
theorem eval_const (q : Rat) : (const q : Linear α).eval values = q := rfl

@[simp]
theorem eval_var (x : α) : (var x).eval values = values x := by
  rw [eval_eq]
  simp [var, total]

@[simp]
theorem eval_scale (k : Rat) (e : Linear α) : (e.scale k).eval values = k * e.eval values := by
  unfold scale
  split
  · next hk => rw [hk, eval_const, zero_mul]
  · have hterms : total values (e.terms.map fun t => (t.1, k * t.2)) =
        k * total values e.terms := by
      unfold total
      rw [List.map_map, ← List.sum_map_mul_left]
      simp only [Function.comp_def, mul_assoc]
    rw [eval_eq, eval_eq, hterms, mul_add]

@[simp]
theorem eval_neg (e : Linear α) : e.neg.eval values = -e.eval values := by
  rw [neg, eval_scale, neg_one_mul]

variable [DecidableEq α]

/-- A term that is merged with another, or dropped, leaves the value what it is. -/
theorem total_addTerm (x : α) (k : Rat) (terms : List (α × Rat)) :
    total values (addTerm x k terms) = total values terms + k * values x := by
  induction terms with
  | nil =>
    unfold addTerm
    split
    · next hk => rw [hk, zero_mul, add_zero]
    · rw [total_cons, add_comm]
  | cons t terms ih =>
    obtain ⟨y, q⟩ := t
    unfold addTerm
    rw [total_cons]
    split
    · next hy =>
      subst hy
      have hmerged : q * values y + total values terms + k * values y =
          (q + k) * values y + total values terms := by ring
      rw [hmerged]
      split
      · next hzero => rw [hzero, zero_mul, zero_add]
      · rw [total_cons]
    · rw [total_cons, ih, add_assoc]

@[simp]
theorem eval_add (e f : Linear α) : (e.add f).eval values = e.eval values + f.eval values := by
  have hterms : ∀ (added terms : List (α × Rat)),
      total values (added.foldl (fun terms t => addTerm t.1 t.2 terms) terms) =
        total values terms + total values added := by
    intro added
    induction added with
    | nil => exact fun terms => (add_zero _).symm
    | cons t added ih =>
      intro terms
      rw [List.foldl_cons, ih, total_addTerm, total_cons, add_assoc]
  rw [eval_eq, eval_eq, eval_eq, add, hterms]
  ring

@[simp]
theorem eval_sub (e f : Linear α) : (e.sub f).eval values = e.eval values - f.eval values := by
  rw [sub, eval_add, eval_neg, sub_eq_add_neg]

end Linear

/-! ### Anchors -/

/-- The frame that the values give to a view. -/
def frameAt (values : Unknown → Rat) (h : Handle) : Frame :=
  ⟨values ⟨h, .left⟩, values ⟨h, .top⟩, values ⟨h, .width⟩, values ⟨h, .height⟩⟩

variable {values : Unknown → Rat}

theorem Anchor.eval_expression (anchor : Anchor) (h : Handle) :
    (anchor.expression h).eval values = (frameAt values h).measure anchor := by
  cases anchor <;> simp [Anchor.expression, Frame.measure, frameAt, div_eq_inv_mul]

/-! ### Descriptors -/

theorem LinearConstraint.holds_iff {c : LinearConstraint} :
    c.Holds values ↔ c.relation.Holds (c.expression.eval values) 0 := by
  unfold LinearConstraint.Holds
  cases c.relation <;> exact Iff.rfl

namespace Descriptor

variable {d : Descriptor} {placement : Placement} {first : Handle}
  {second : Option (Handle × Anchor)} {c : LinearConstraint}

theorem holds_iff : d.Holds placement ↔ ∃ m constant, d.multiplier.value? = some m ∧
    d.constant.value? = some constant ∧ d.relation.Holds (placement.measure d.first d.firstAnchor)
      (d.right?.elim constant fun side => m * placement.measure side.1 side.2 + constant) := by
  unfold Holds
  cases d.right? <;> exact Iff.rfl

/-- The constraint says what the descriptor says, if the views that stand for its
items are where the placement has the items. -/
theorem constraint?_holds_iff {m : Rat} (hm : d.multiplier.value? = some m)
    (hc : d.constraint? first second = some c)
    (hfirst : placement.frame d.first = frameAt values first)
    (hsecond : d.right?.map (fun side => (placement.frame side.1, side.2)) =
      second.map fun side => (frameAt values side.1, side.2)) :
    c.Holds values ↔ d.Holds placement := by
  obtain ⟨right, hright, hc⟩ := Option.bind_eq_some_iff.1 hc
  cases hc
  obtain ⟨constant, hconstant, hright⟩ := Option.bind_eq_some_iff.1 hright
  have hmeasure : (d.firstAnchor.expression first).eval values =
      placement.measure d.first d.firstAnchor := by
    rw [Anchor.eval_expression, Placement.measure, hfirst]
  have heval : right.eval values = d.right?.elim constant
      fun side => m * placement.measure side.1 side.2 + constant := by
    cases hd : d.right? with
    | none =>
      rw [hd] at hsecond
      obtain rfl := Option.map_eq_none_iff.1 hsecond.symm
      cases hright
      rfl
    | some side =>
      obtain ⟨item, anchor⟩ := side
      rw [hd] at hsecond
      obtain ⟨⟨h, anchor'⟩, rfl, hside⟩ := Option.map_eq_some_iff.1 hsecond.symm
      obtain ⟨hframe, rfl⟩ := Prod.mk.inj hside
      obtain ⟨m', hm', hright⟩ := Option.bind_eq_some_iff.1 hright
      obtain rfl := Option.some.inj (hm.symm.trans hm')
      cases hright
      have hitem : (anchor'.expression h).eval values = placement.measure item anchor' := by
        rw [Anchor.eval_expression, Placement.measure, hframe]
      rw [Linear.eval_add, Linear.eval_scale, hitem, Linear.eval_const]
      rfl
  rw [LinearConstraint.holds_iff, Linear.eval_sub, Relation.holds_sub_iff, add_zero, hmeasure,
    heval, holds_iff]
  constructor
  · exact fun h => ⟨m, constant, hm, hconstant, h⟩
  · rintro ⟨m', constant', hm', hconstant', h⟩
    obtain rfl := Option.some.inj (hm.symm.trans hm')
    obtain rfl := Option.some.inj (hconstant.symm.trans hconstant')
    exact h

end Descriptor

end ViewMarkup
