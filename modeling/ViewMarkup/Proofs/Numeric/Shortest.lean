/-
# The shortest decimal reads back

A double is written as a decimal that is read as this double again. What is read
depends on the value of a decimal alone, so that zeros can be moved between its
digits and its exponent; and a magnitude is nearest to itself, so that its whole
expansion reads back where no shorter decimal is found.

Key theorems: `FloatFormat.nearest_magnitude`, `Binary.ofDecimal_of_value_eq`,
`Finite.ofDecimal_shortest`.
-/
import ViewMarkup.Proofs.Numeric.Overflow

namespace ViewMarkup

-- Powers are the core library's, as they are where ranks are defined.
attribute [local instance (high)] instPowNat

/-! ### Values of decimals -/

namespace Decimal

theorem value_eq (d : Decimal) : d.value = d.digits * (10 : Rat) ^ d.exponent := by
  rcases le_or_gt 0 d.exponent with hexponent | hexponent
  · obtain ⟨n, hn⟩ := Int.eq_ofNat_of_zero_le hexponent
    rw [value_of_nonneg hexponent, hn, Int.toNat_natCast, zpow_natCast, Nat.cast_pow]
    rfl
  · obtain ⟨n, hn⟩ := Int.eq_ofNat_of_zero_le (Int.neg_nonneg.2 hexponent.le)
    have hexponent' : d.exponent = -(n : Int) := by omega
    rw [value_of_neg hexponent, hn, Int.toNat_natCast, hexponent', zpow_neg, zpow_natCast,
      div_eq_mul_inv, Nat.cast_pow]
    rfl

/-- A zero at the end of the digits is a power of ten. -/
theorem value_trimmed : ∀ (fuel : Nat) (d : Decimal), (d.trimmed fuel).value = d.value
  | 0, _ => rfl
  | fuel + 1, d => by
    rw [trimmed]
    split
    · rename_i hzero
      have hdigits : (d.digits : Rat) = (d.digits / 10 : Nat) * 10 := by
        exact_mod_cast (Nat.div_mul_cancel (Nat.dvd_of_mod_eq_zero hzero.2)).symm
      rw [value_trimmed fuel, value_eq, value_eq d, hdigits, zpow_add_one₀ (by norm_num)]
      ring
    · rfl

end Decimal

/-! ### What is read -/

namespace FloatFormat

variable (f : FloatFormat)

theorem magnitude_lt_midpoint (rank : Nat) : f.magnitude rank < f.midpoint rank :=
  left_lt_add_div_two.2 (f.magnitude_strictMono (Nat.lt_succ_self rank))

theorem midpoint_lt_magnitude (rank : Nat) : f.midpoint rank < f.magnitude (rank + 1) :=
  add_div_two_lt_right.2 (f.magnitude_strictMono (Nat.lt_succ_self rank))

variable {f} {num den num' den' : Nat} (hfraction : 0 < f.fraction) (hden : 0 < den)
include hfraction hden

/-- A magnitude of the format is nearest to itself. -/
theorem nearest_magnitude {rank : Nat} (hrank : rank < f.top)
    (h : (num : Rat) / den = f.magnitude rank) : f.nearest num den = rank := by
  refine eq_of_forall_lt_iff fun k => ?_
  rw [f.lt_nearest_iff hfraction hden, h]
  constructor
  · rintro ⟨-, hmiddle⟩
    refine lt_of_not_ge fun hle => ?_
    have hmagnitude := f.magnitude_strictMono.monotone hle
    have hmidpoint := f.magnitude_lt_midpoint k
    rcases hmiddle with h | ⟨h, -⟩ <;> linarith
  · intro hlt
    have hnext := f.magnitude_strictMono.monotone (Nat.succ_le_of_lt hlt)
    exact ⟨hlt.trans hrank, .inl ((f.midpoint_lt_magnitude k).trans_le hnext)⟩

theorem nearest_congr (hden' : 0 < den') (h : (num : Rat) / den = (num' : Rat) / den') :
    f.nearest num den = f.nearest num' den' :=
  eq_of_forall_lt_iff fun k => by
    rw [f.lt_nearest_iff hfraction hden, f.lt_nearest_iff hfraction hden', h]

end FloatFormat

namespace Binary

/-- **What is read depends on the value alone.** -/
theorem ofDecimal_of_value_eq (negative : Bool) {d d' : Decimal} (h : d.value = d'.value) :
    ofDecimal .double negative d = ofDecimal .double negative d' := by
  rw [ofDecimal_eq, ofDecimal_eq]
  exact ofQuotient_of_nearest negative
    (FloatFormat.nearest_congr (by decide) d.quotient_pos d'.quotient_pos h)

/-- A decimal that is a double is read as this double. -/
theorem ofDecimal_of_value_magnitude (x : FiniteDouble) {d : Decimal}
    (h : d.value = FloatFormat.double.magnitude x.rank) :
    ofDecimal .double x.negative d = .finite x := by
  have hnearest : FloatFormat.double.nearest d.quotient.1 d.quotient.2 = x.rank :=
    FloatFormat.nearest_magnitude (by decide) d.quotient_pos x.rank.isLt h
  rw [ofDecimal_eq, ofQuotient]
  simp only [hnearest, x.rank.isLt, dite_true]

theorem ofDecimal_of_isZero {x : FiniteDouble} (hx : x.isZero = true) {d : Decimal}
    (hdigits : d.digits = 0) : ofDecimal .double x.negative d = .finite x := by
  have hrank : x.rank.val = 0 := eq_of_beq hx
  refine ofDecimal_of_value_magnitude x ?_
  rw [Decimal.value_of_digits_eq_zero hdigits, hrank, FloatFormat.magnitude_zero]

end Binary

/-! ### Decimals of a number -/

namespace Finite

theorem value_expansion {f : FloatFormat} (x : Finite f) :
    x.expansion.value = f.magnitude x.rank := by
  have hten : (10 : Rat) ^ f.depth = 2 ^ f.depth * 5 ^ f.depth := by
    rw [← mul_pow]
    norm_num
  have hfive : (5 : Rat) ^ f.depth ≠ 0 := pow_ne_zero _ (by norm_num)
  rw [Decimal.value_eq, expansion, FloatFormat.magnitude, zpow_neg, zpow_natCast, hten, units]
  push_cast
  rw [← div_eq_mul_inv, mul_div_mul_right _ _ hfive]

theorem ofDecimal_of_decimalAt? {f : FloatFormat} {x : Finite f} {tie : TieRule} {exponent : Int}
    {d : Decimal} (h : x.decimalAt? tie exponent = some d) :
    Binary.ofDecimal f x.negative d = .finite x := by
  unfold decimalAt? at h
  split at h
  extract_lets high up first second at h
  split at h
  · rename_i hback
    cases h
    exact of_decide_eq_true hback
  · split at h
    · rename_i hback
      cases h
      exact of_decide_eq_true hback
    · cases h

variable (tie : TieRule) (x : FiniteDouble)

/-- **The shortest decimal reads back as the number.** -/
theorem ofDecimal_shortest : Binary.ofDecimal .double x.negative (x.shortest tie) = .finite x := by
  unfold shortest
  dsimp only
  rw [Binary.ofDecimal_of_value_eq _ (Decimal.value_trimmed _ _)]
  cases hfound : (List.range 17).findSome? fun (n : Nat) =>
      x.decimalAt? tie (leadingExponent x.units (2 ^ FloatFormat.double.depth) - n) with
  | none => exact Binary.ofDecimal_of_value_magnitude x x.value_expansion
  | some d =>
    obtain ⟨n, -, hd⟩ := List.exists_of_findSome?_eq_some hfound
    exact ofDecimal_of_decimalAt? hd

end Finite

end ViewMarkup
