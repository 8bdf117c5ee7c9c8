/-
# Where numbers overflow

After the greatest magnitude of a format comes one that it does not have, and from
the middle between the two on a quotient is read as infinite. So is a decimal:
exponents so far out that the power of ten is left out make no difference to that.

Key definitions: `FloatFormat.overflow`, `Decimal.value`.
Key theorems: `Binary.isFinite_ofQuotient_iff`, `Binary.ofDecimal_eq`,
`Binary.isFinite_ofDecimal_iff`.
-/
import Mathlib.Tactic.NormNum
import ViewMarkup.Numeric.Decimal
import ViewMarkup.Proofs.Numeric.Nearest

namespace ViewMarkup

-- Powers are the core library's, as they are where ranks are defined.
attribute [local instance (high)] instPowNat

/-- The least quotient that is too large for the format. -/
def FloatFormat.overflow (f : FloatFormat) : Rat := f.midpoint (f.top - 1)

theorem FloatFormat.overflow_double : double.overflow = 2 ^ 1024 - 2 ^ 970 := by decide +kernel

theorem FloatFormat.midpoint_nonneg (f : FloatFormat) (rank : Nat) : 0 ≤ f.midpoint rank :=
  div_nonneg (add_nonneg (f.magnitude_nonneg rank) (f.magnitude_nonneg (rank + 1))) zero_le_two

namespace Decimal

/-- The decimal as a rational. -/
def value (d : Decimal) : Rat := (d.quotient.1 : Rat) / d.quotient.2

variable {d : Decimal}

theorem value_of_nonneg (h : 0 ≤ d.exponent) : d.value = d.digits * (10 ^ d.exponent.toNat : Nat) := by
  rw [value, quotient, if_pos h, Nat.cast_mul, Nat.cast_one, div_one]

theorem value_of_neg (h : d.exponent < 0) :
    d.value = d.digits / (10 ^ (-d.exponent).toNat : Nat) := by
  rw [value, quotient, if_neg (not_le.2 h)]

theorem value_of_digits_eq_zero (h : d.digits = 0) : d.value = 0 := by
  rcases le_or_gt 0 d.exponent with hexponent | hexponent
  · rw [value_of_nonneg hexponent, h, Nat.cast_zero, zero_mul]
  · rw [value_of_neg hexponent, h, Nat.cast_zero, zero_div]

theorem quotient_pos (d : Decimal) : 0 < d.quotient.2 := by
  unfold quotient
  split
  · exact Nat.one_pos
  · exact Nat.pow_pos (by decide)

/-- With an exponent as far down as this, the power of ten exceeds the digits by so
much that the value is next to nothing. -/
theorem value_lt_midpoint {f : FloatFormat}
    (h : (d.digits.log2 + f.depth + 2 : Int) ≤ -3 * d.exponent) : d.value < f.midpoint 0 := by
  have hneg : d.exponent < 0 := by omega
  have hbits : d.digits.log2 + 1 + (f.depth + 1) ≤ 3 * (-d.exponent).toNat := by omega
  have hlt : d.digits * (2 * 2 ^ f.depth) < 10 ^ (-d.exponent).toNat :=
    calc d.digits * (2 * 2 ^ f.depth) = d.digits * 2 ^ (f.depth + 1) := by
          rw [Nat.pow_succ, Nat.mul_comm 2]
      _ < 2 ^ (d.digits.log2 + 1) * 2 ^ (f.depth + 1) :=
          Nat.mul_lt_mul_of_pos_right Nat.lt_log2_self (Nat.two_pow_pos _)
      _ = 2 ^ (d.digits.log2 + 1 + (f.depth + 1)) := (Nat.pow_add 2 _ _).symm
      _ ≤ 2 ^ (3 * (-d.exponent).toNat) := Nat.pow_le_pow_right (by decide) hbits
      _ = 8 ^ (-d.exponent).toNat := Nat.pow_mul 2 3 _
      _ ≤ 10 ^ (-d.exponent).toNat := Nat.pow_le_pow_left (by decide) _
  have hone : 1 ≤ f.units 0 + f.units (0 + 1) :=
    Nat.le_add_left_of_le (Nat.lt_of_le_of_lt (Nat.zero_le _) (f.units_lt_succ 0))
  have hpower : 0 < 10 ^ (-d.exponent).toNat := Nat.pow_pos (by decide)
  have hunit : 0 < 2 * 2 ^ f.depth := Nat.mul_pos (by decide) (Nat.two_pow_pos _)
  rw [value_of_neg hneg, f.midpoint_eq,
    div_lt_div_iff₀ (Nat.cast_pos.2 hpower) (Nat.cast_pos.2 hunit)]
  exact_mod_cast lt_of_lt_of_le hlt (Nat.le_mul_of_pos_left _ hone)

end Decimal

namespace Binary

variable (negative : Bool)

theorem isFinite_neg {f : FloatFormat} (x : Binary f) : x.neg.isFinite = x.isFinite := by
  cases x <;> rfl

theorem isFinite_of_value? {f : FloatFormat} {x : Binary f} {q : Rat} (h : x.value? = some q) :
    x.isFinite = true := by
  obtain ⟨z, rfl, -⟩ := exists_of_value? h
  rfl

/-- A quotient is read as finite exactly below the overflow. -/
theorem isFinite_ofQuotient_iff {f : FloatFormat} (hfraction : 0 < f.fraction)
    (hbinades : 0 < f.binades) {num den : Nat} (hden : 0 < den) :
    (ofQuotient f negative num den).isFinite = true ↔ (num : Rat) / den < f.overflow := by
  have htop : 0 < f.top := Nat.mul_pos hbinades (Nat.two_pow_pos _)
  have hodd : (f.top - 1) % 2 = 1 := by
    have heven : f.top % 2 = 0 := by
      rw [FloatFormat.top, ← Nat.sub_add_cancel hfraction, Nat.pow_succ, ← Nat.mul_assoc,
        Nat.mul_mod_left]
    omega
  have hfinite : (ofQuotient f negative num den).isFinite = true ↔ f.nearest num den < f.top := by
    unfold ofQuotient
    split <;> simp [isFinite, *]
  -- a rank is finite if it is not above the last one
  have hlast : f.nearest num den < f.top ↔ ¬ f.top - 1 < f.nearest num den := by omega
  have hcut : f.top - 1 < f.nearest num den ↔ f.overflow ≤ (num : Rat) / den := by
    rw [f.lt_nearest_iff hfraction hden, FloatFormat.overflow, le_iff_lt_or_eq]
    exact ⟨fun h => h.2.imp_right And.left, fun h => ⟨by omega, h.imp_right fun heq => ⟨heq, hodd⟩⟩⟩
  rw [hfinite, hlast, hcut, not_le]

theorem ofQuotient_of_overflow {f : FloatFormat} (hfraction : 0 < f.fraction)
    (hbinades : 0 < f.binades) {num den : Nat} (hden : 0 < den)
    (h : f.overflow ≤ (num : Rat) / den) : ofQuotient f negative num den = infinite negative := by
  have hinfinite := mt (isFinite_ofQuotient_iff negative hfraction hbinades hden).1 (not_lt.2 h)
  unfold ofQuotient at hinfinite ⊢
  split
  · rename_i hfinite
    rw [dif_pos hfinite] at hinfinite
    exact absurd rfl hinfinite
  · rfl

/-- The number read depends on the rank of the quotient alone. -/
theorem ofQuotient_of_nearest {f : FloatFormat} {num den num' den' : Nat}
    (h : f.nearest num den = f.nearest num' den') :
    ofQuotient f negative num den = ofQuotient f negative num' den' := by
  simp only [ofQuotient, h]

/-- What is up to the first midpoint is read as zero. -/
theorem ofQuotient_of_le_midpoint {f : FloatFormat} (hfraction : 0 < f.fraction) {num den : Nat}
    (hden : 0 < den) (h : (num : Rat) / den ≤ f.midpoint 0) :
    ofQuotient f negative num den = ofQuotient f negative 0 1 := by
  have hzero : ∀ {num den : Nat}, 0 < den → (num : Rat) / den ≤ f.midpoint 0 →
      f.nearest num den = 0 := by
    intro num den hden h
    refine Nat.eq_zero_of_not_pos fun hpos => ?_
    rcases ((f.lt_nearest_iff hfraction hden).1 hpos).2 with hlt | ⟨-, hodd⟩
    · exact absurd hlt (not_lt.2 h)
    · cases hodd
  refine ofQuotient_of_nearest negative ((hzero hden h).trans (hzero Nat.one_pos ?_).symm)
  rw [Nat.cast_zero, zero_div]
  exact f.midpoint_nonneg 0

/-- A decimal is read as its quotient is: the answers for exponents far out are the
ones that the power of ten would give. -/
theorem ofDecimal_eq (d : Decimal) :
    ofDecimal .double negative d = ofQuotient .double negative d.quotient.1 d.quotient.2 := by
  unfold ofDecimal
  split
  · rename_i hdigits
    refine (ofQuotient_of_le_midpoint negative (by decide) d.quotient_pos ?_).symm
    exact (Decimal.value_of_digits_eq_zero hdigits).trans_le (FloatFormat.midpoint_nonneg _ 0)
  · rename_i hdigits
    split
    · rename_i hfar
      have hpower : FloatFormat.double.overflow ≤ (10 ^ FloatFormat.double.binades : Nat) := by
        decide +kernel
      have hnonneg : 0 ≤ d.exponent := (Int.natCast_nonneg _).trans hfar
      have hle : 10 ^ FloatFormat.double.binades ≤ d.digits * 10 ^ d.exponent.toNat :=
        calc 10 ^ FloatFormat.double.binades ≤ 10 ^ d.exponent.toNat :=
              Nat.pow_le_pow_right (by decide) ((Int.le_toNat hnonneg).2 hfar)
          _ ≤ d.digits * 10 ^ d.exponent.toNat :=
              Nat.le_mul_of_pos_left _ (Nat.pos_of_ne_zero hdigits)
      have hoverflow : FloatFormat.double.overflow ≤ d.value := by
        rw [Decimal.value_of_nonneg hnonneg, ← Nat.cast_mul]
        exact hpower.trans (Nat.cast_le.2 hle)
      exact (ofQuotient_of_overflow negative (by decide) (by decide) d.quotient_pos hoverflow).symm
    · split
      · rename_i hfar
        refine (ofQuotient_of_le_midpoint negative (by decide) d.quotient_pos ?_).symm
        exact (Decimal.value_lt_midpoint hfar).le
      · rfl

/-- **A decimal is read as finite exactly below the overflow.** -/
theorem isFinite_ofDecimal_iff (d : Decimal) :
    (ofDecimal .double negative d).isFinite = true ↔ d.value < FloatFormat.double.overflow := by
  rw [ofDecimal_eq, isFinite_ofQuotient_iff negative (by decide) (by decide) d.quotient_pos]
  rfl

end Binary

end ViewMarkup
