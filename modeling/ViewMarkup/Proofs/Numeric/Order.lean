/-
# Numbers compare as their values do

Binary numbers are compared by their ranks. The magnitudes of a format grow
strictly with their ranks, within a binade and from one to the next, so finite
numbers compare as the rationals that they are. What lies between finite numbers
is finite.

Key definitions: `Finite.signedUnits`.
Key theorems: `FloatFormat.units_strictMono`, `Finite.value_le_iff`,
`Binary.le_iff_value`, `Binary.within_iff`.
-/
import Mathlib.Algebra.Order.Field.Basic
import Mathlib.Algebra.Order.Ring.Rat
import ViewMarkup.Numeric.Binary

namespace ViewMarkup

-- Powers are the core library's, as they are where ranks are defined.
attribute [local instance (high)] instPowNat

/-! ### Magnitudes -/

namespace FloatFormat

variable (f : FloatFormat)

/-- In the binade `e + 1` the magnitudes are `2 ^ e` units apart. -/
theorem units_binade {m : Nat} (hm : m < 2 ^ f.fraction) (e : Nat) :
    f.units (m + 2 ^ f.fraction * (e + 1)) = (2 ^ f.fraction + m) * 2 ^ e := by
  have hpos : 0 < 2 ^ f.fraction := Nat.two_pow_pos _
  have hlarge : ¬ m + 2 ^ f.fraction * (e + 1) < 2 ^ f.fraction := by
    rw [Nat.mul_succ]
    omega
  rw [units, if_neg hlarge, Nat.add_mul_mod_self_left, Nat.mod_eq_of_lt hm,
    Nat.add_mul_div_left _ _ hpos, Nat.div_eq_of_lt hm]
  congr 2
  omega

theorem units_lt_succ (rank : Nat) : f.units rank < f.units (rank + 1) := by
  have hpos : 0 < 2 ^ f.fraction := Nat.two_pow_pos _
  have hlast : f.units (2 ^ f.fraction) = 2 ^ f.fraction := by
    simpa using f.units_binade hpos 0
  obtain ⟨m, e, hm, rfl⟩ : ∃ m e, m < 2 ^ f.fraction ∧ rank = m + 2 ^ f.fraction * e :=
    ⟨rank % 2 ^ f.fraction, rank / 2 ^ f.fraction, Nat.mod_lt _ hpos,
      (Nat.mod_add_div _ _).symm⟩
  rcases Nat.lt_or_ge (m + 1) (2 ^ f.fraction) with hnext | hnext
  · cases e with
    | zero =>
      rw [Nat.mul_zero, Nat.add_zero, units, units, if_pos hm, if_pos hnext]
      exact Nat.lt_succ_self m
    | succ e =>
      rw [Nat.add_right_comm, units_binade f hm, units_binade f hnext]
      exact Nat.mul_lt_mul_of_pos_right (by omega) (Nat.two_pow_pos e)
  · -- the magnitude is the last one of its binade
    have hm' : m + 1 = 2 ^ f.fraction := by omega
    cases e with
    | zero =>
      rw [Nat.mul_zero, Nat.add_zero, hm', hlast, units, if_pos hm]
      exact hm
    | succ e =>
      have hrank : m + 2 ^ f.fraction * (e + 1) + 1 = 0 + 2 ^ f.fraction * (e + 1 + 1) := by
        rw [Nat.add_right_comm, hm', Nat.mul_succ _ (e + 1)]
        omega
      rw [hrank, units_binade f hm, units_binade f hpos, Nat.add_zero, Nat.pow_succ,
        Nat.mul_comm (2 ^ e), ← Nat.mul_assoc]
      exact Nat.mul_lt_mul_of_pos_right (by omega) (Nat.two_pow_pos e)

/-- **Magnitudes grow with their ranks.** -/
theorem units_strictMono : StrictMono f.units := strictMono_nat_of_lt_succ f.units_lt_succ

theorem units_zero : f.units 0 = 0 := by
  rw [units, if_pos (Nat.two_pow_pos _)]

end FloatFormat

/-! ### Finite numbers -/

namespace Finite

variable {f : FloatFormat}

/-- The number in units, with its sign. -/
def signedUnits (x : Finite f) : Int := if x.negative then -(x.units : Int) else x.units

theorem value_eq (x : Finite f) : x.value = x.signedUnits / ((2 ^ f.depth : Nat) : Rat) := by
  rw [value, Rat.mkRat_eq_div]
  rfl

theorem signedUnits_le_iff (x y : Finite f) :
    x.signedUnits ≤ y.signedUnits ↔ x.signedRank ≤ y.signedRank := by
  have hmono (a b : Nat) : f.units a ≤ f.units b ↔ a ≤ b := f.units_strictMono.le_iff_le
  have hxy : x.units ≤ y.units ↔ x.rank.val ≤ y.rank.val := hmono _ _
  have hyx : y.units ≤ x.units ↔ y.rank.val ≤ x.rank.val := hmono _ _
  have hzero (a : Nat) : f.units a ≤ 0 ↔ a ≤ 0 := by
    rw [← hmono a 0, f.units_zero]
  have hx : x.units ≤ 0 ↔ x.rank.val ≤ 0 := hzero _
  have hy : y.units ≤ 0 ↔ y.rank.val ≤ 0 := hzero _
  unfold signedUnits signedRank
  cases x.negative <;> cases y.negative <;>
    simp only [Bool.false_eq_true, if_true, if_false] <;> omega

/-- **Finite numbers compare as their values do.** -/
theorem value_le_iff (x y : Finite f) : x.value ≤ y.value ↔ x.signedRank ≤ y.signedRank := by
  have hpos : (0 : Rat) < ((2 ^ f.depth : Nat) : Rat) := by
    exact_mod_cast Nat.two_pow_pos f.depth
  rw [value_eq, value_eq, div_le_div_iff_of_pos_right hpos, Int.cast_le, signedUnits_le_iff]

end Finite

/-! ### Numbers -/

namespace Binary

variable {f : FloatFormat} {x y : Binary f} {p q : Rat}

theorem exists_of_value? (h : x.value? = some q) : ∃ z : Finite f, x = finite z ∧ z.value = q := by
  cases x with
  | finite z => exact ⟨z, rfl, Option.some.inj h⟩
  | nan => cases h
  | infinite negative => cases h

theorem le_iff_value (hx : x.value? = some p) (hy : y.value? = some q) :
    x.le y = true ↔ p ≤ q := by
  obtain ⟨x, rfl, rfl⟩ := exists_of_value? hx
  obtain ⟨y, rfl, rfl⟩ := exists_of_value? hy
  rw [Finite.value_le_iff]
  exact decide_eq_true_iff

theorem lt_iff_value (hx : x.value? = some p) (hy : y.value? = some q) :
    x.lt y = true ↔ p < q := by
  obtain ⟨x, rfl, rfl⟩ := exists_of_value? hx
  obtain ⟨y, rfl, rfl⟩ := exists_of_value? hy
  rw [← not_le, Finite.value_le_iff, not_le]
  exact decide_eq_true_iff

/-- A number is above one finite number and up to another exactly if its value
is. -/
theorem within_iff {low high : Binary f} (hlow : low.value? = some p) (hhigh : high.value? = some q) :
    (low.lt x && x.le high) = true ↔ ∃ v, x.value? = some v ∧ p < v ∧ v ≤ q := by
  have hvalue : ∀ {v}, x.value? = some v → ((low.lt x && x.le high) = true ↔ p < v ∧ v ≤ q) := by
    intro v hv
    rw [Bool.and_eq_true, lt_iff_value hlow hv, le_iff_value hv hhigh]
  constructor
  · intro h
    cases x with
    | finite z => exact ⟨z.value, rfl, (hvalue rfl).1 h⟩
    | nan =>
      rw [Bool.and_eq_true] at h
      obtain ⟨l, rfl, -⟩ := exists_of_value? hlow
      cases h.1
    | infinite negative =>
      -- what is infinite lies below or above all finite ranks
      rw [Bool.and_eq_true] at h
      obtain ⟨l, rfl, -⟩ := exists_of_value? hlow
      obtain ⟨u, rfl, -⟩ := exists_of_value? hhigh
      have hl := of_decide_eq_true h.1
      have hu := of_decide_eq_true h.2
      have := l.rank.isLt
      have := u.rank.isLt
      unfold Finite.signedRank at hl hu
      cases negative <;> cases l.negative <;> cases u.negative <;>
        simp only [Bool.false_eq_true, if_true, if_false] at hl hu <;> omega
  · rintro ⟨v, hv, hbounds⟩
    exact (hvalue hv).2 hbounds

end Binary

end ViewMarkup
