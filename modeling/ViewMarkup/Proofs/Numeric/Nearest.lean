/-
# The number nearest to a quotient

Between two neighbouring magnitudes there is one midpoint. A quotient above it is
read as the higher one, a quotient below it as the lower one, and the midpoint
itself as the one of even rank. So the rank that a quotient is given is told by
the midpoints below it, the number read is the nearest one, and what lies above
the last midpoint is infinite.

Key definitions: `FloatFormat.magnitude`, `FloatFormat.midpoint`,
`Finite.IsNearest`.
Key theorems: `lt_roundEven_iff`, `FloatFormat.lt_nearest_iff`,
`Binary.isNearest_of_ofQuotient`.
-/
import Mathlib.Tactic.Linarith
import Mathlib.Tactic.Positivity
import Mathlib.Tactic.FieldSimp
import Mathlib.Tactic.Ring
import ViewMarkup.Proofs.Numeric.Order

namespace ViewMarkup

-- Powers are the core library's, as they are where ranks are defined.
attribute [local instance (high)] instPowNat

/-! ### Whole numbers -/

/-- A quotient is rounded above `k` if it lies beyond the middle between `k` and
the next number, or in the middle and `k` is odd. -/
theorem lt_roundEven_iff {a b k : Nat} (hb : 0 < b) :
    k < roundEven a b ↔ (2 * k + 1) * b < 2 * a ∨ (2 * k + 1) * b = 2 * a ∧ k % 2 = 1 := by
  have hrest : a % b < b := Nat.mod_lt a hb
  have hsplit : b * (a / b) + a % b = a := Nat.div_add_mod a b
  have hmiddle : (2 * k + 1) * b = 2 * (b * k) + b := by ring
  unfold roundEven
  generalize a / b = q at *
  generalize a % b = r at *
  rcases Nat.lt_trichotomy k q with hlt | rfl | hgt
  · have hstep : b * (k + 1) ≤ b * q := Nat.mul_le_mul_left b hlt
    rw [Nat.mul_succ] at hstep
    split_ifs <;> omega
  · split_ifs <;> omega
  · have hstep : b * (q + 1) ≤ b * k := Nat.mul_le_mul_left b hgt
    rw [Nat.mul_succ] at hstep
    split_ifs <;> omega

section

variable {a b q : Rat} (hab : a < b)
include hab

theorem dist_of_middle_le (h : a + b ≤ 2 * q) :
    |q - b| ≤ |q - a| ∧ (|q - a| = |q - b| → a + b = 2 * q) := by
  have ha : |q - a| = q - a := abs_of_nonneg (by linarith)
  rw [ha]
  refine ⟨abs_le.2 ⟨by linarith, by linarith⟩, fun heq => ?_⟩
  rcases abs_choice (q - b) with hb | hb <;> rw [hb] at heq <;> linarith

theorem dist_of_le_middle (h : 2 * q ≤ a + b) :
    |q - a| ≤ |q - b| ∧ (|q - b| = |q - a| → a + b = 2 * q) := by
  have hb : |q - b| = b - q := by
    rw [abs_sub_comm]
    exact abs_of_nonneg (by linarith)
  rw [hb]
  refine ⟨abs_le.2 ⟨by linarith, by linarith⟩, fun heq => ?_⟩
  rcases abs_choice (q - a) with ha | ha <;> rw [ha] at heq <;> linarith

end

namespace FloatFormat

variable (f : FloatFormat)

/-! ### Ranks -/

/-- Past `shift` binades the magnitudes of two binades are `2 ^ shift` units
apart, and so are those of the first binade. -/
theorem units_shifted {k shift : Nat} (hlow : 2 ^ f.fraction ≤ k ∨ shift = 0)
    (hhigh : k ≤ 2 * 2 ^ f.fraction) :
    f.units (k + shift * 2 ^ f.fraction) = k * 2 ^ shift := by
  have hpos : 0 < 2 ^ f.fraction := Nat.two_pow_pos _
  rcases Nat.lt_or_ge k (2 ^ f.fraction) with hsmall | hlarge
  · obtain rfl : shift = 0 := hlow.resolve_left (Nat.not_le.2 hsmall)
    rw [Nat.zero_mul, Nat.add_zero, units, if_pos hsmall, Nat.pow_zero, Nat.mul_one]
  · rcases Nat.lt_or_eq_of_le hhigh with hin | rfl
    · have hrank : k + shift * 2 ^ f.fraction =
          (k - 2 ^ f.fraction) + 2 ^ f.fraction * (shift + 1) := by
        rw [Nat.mul_succ, Nat.mul_comm]
        omega
      rw [hrank, f.units_binade (by omega)]
      congr 1
      omega
    · have hrank : 2 * 2 ^ f.fraction + shift * 2 ^ f.fraction =
          0 + 2 ^ f.fraction * (shift + 1 + 1) := by ring
      rw [hrank, f.units_binade hpos, Nat.pow_succ]
      ring

/-- The rank that a quotient of this many units is given, with no bound above. -/
def roundRank (scaled den : Nat) : Nat :=
  let shift := (scaled / den).log2 - f.fraction
  roundEven scaled (den * 2 ^ shift) + shift * 2 ^ f.fraction

theorem nearest_eq (num den : Nat) :
    f.nearest num den = min f.top (f.roundRank (num * 2 ^ f.depth) den) := rfl

section

variable {f} {scaled den shift : Nat}

/-- The quotient has at least `fraction` bits before its `shift` last ones, unless
there are none of these, and at most one more. -/
theorem scaled_bounds (hden : 0 < den) (hshift : shift = (scaled / den).log2 - f.fraction) :
    (shift ≠ 0 → 2 ^ f.fraction * 2 ^ shift * den ≤ scaled) ∧
      scaled < 2 * 2 ^ f.fraction * 2 ^ shift * den := by
  have hupper : scaled / den < 2 ^ (f.fraction + shift + 1) :=
    Nat.lt_of_lt_of_le Nat.lt_log2_self (Nat.pow_le_pow_right (by decide) (by omega))
  constructor
  · intro hne
    have hq : scaled / den ≠ 0 := by
      intro hzero
      rw [hzero] at hshift
      exact hne (by simpa using hshift)
    have hlog : (scaled / den).log2 = f.fraction + shift := by omega
    have hlower : 2 ^ (f.fraction + shift) ≤ scaled / den := hlog ▸ Nat.log2_self_le hq
    rw [← Nat.pow_add]
    exact (Nat.le_div_iff_mul_le hden).1 hlower
  · have hpow : 2 ^ (f.fraction + shift + 1) = 2 * 2 ^ f.fraction * 2 ^ shift := by
      rw [Nat.pow_succ, Nat.pow_add]
      ring
    rw [← hpow]
    exact (Nat.div_lt_iff_lt_mul hden).1 hupper

theorem units_le_units {a b : Nat} (h : a ≤ b) : f.units a ≤ f.units b := f.units_strictMono.monotone h

/-- A rank below the binades of the quotient, if there are such: the quotient is
rounded above it. -/
theorem below_roundRank {rank : Nat} (hden : 0 < den)
    (hlow : 2 ^ f.fraction * 2 ^ shift * den ≤ scaled)
    (hrank : rank < 2 ^ f.fraction + shift * 2 ^ f.fraction) :
    rank < roundEven scaled (den * 2 ^ shift) + shift * 2 ^ f.fraction ∧
      (f.units rank + f.units (rank + 1)) * den < 2 * scaled := by
  have hwidth : 0 < 2 ^ f.fraction := Nat.two_pow_pos _
  have hb : 0 < den * 2 ^ shift := Nat.mul_pos hden (Nat.two_pow_pos _)
  constructor
  · have hround : 2 ^ f.fraction - 1 < roundEven scaled (den * 2 ^ shift) := by
      have hproduct : 2 ^ f.fraction * 2 ^ shift * den = 2 ^ f.fraction * (den * 2 ^ shift) := by
        ring
      have hmiddle : (2 * (2 ^ f.fraction - 1) + 1) * (den * 2 ^ shift) <
          2 * 2 ^ f.fraction * (den * 2 ^ shift) := Nat.mul_lt_mul_of_pos_right (by omega) hb
      refine (lt_roundEven_iff hb).2 (.inl ?_)
      rw [Nat.mul_assoc] at hmiddle
      omega
    omega
  · have hfirst : f.units (2 ^ f.fraction + shift * 2 ^ f.fraction) = 2 ^ f.fraction * 2 ^ shift :=
      f.units_shifted (.inl le_rfl) (by omega)
    have hnext : f.units (rank + 1) * den ≤ scaled :=
      le_trans (Nat.mul_le_mul_right den (hfirst ▸ units_le_units hrank)) hlow
    have hself : f.units rank * den < f.units (rank + 1) * den :=
      Nat.mul_lt_mul_of_pos_right (f.units_lt_succ rank) hden
    rw [Nat.add_mul]
    omega

/-- A rank above the binades of the quotient: the quotient is not rounded above
it. -/
theorem roundRank_below {rank : Nat} (hden : 0 < den)
    (hhigh : scaled < 2 * 2 ^ f.fraction * 2 ^ shift * den)
    (hrank : 2 * 2 ^ f.fraction + shift * 2 ^ f.fraction ≤ rank) :
    roundEven scaled (den * 2 ^ shift) + shift * 2 ^ f.fraction ≤ rank ∧
      2 * scaled < (f.units rank + f.units (rank + 1)) * den := by
  have hb : 0 < den * 2 ^ shift := Nat.mul_pos hden (Nat.two_pow_pos _)
  constructor
  · have hround : ¬ 2 * 2 ^ f.fraction < roundEven scaled (den * 2 ^ shift) := by
      have hproduct : 2 * 2 ^ f.fraction * 2 ^ shift * den =
          2 * 2 ^ f.fraction * (den * 2 ^ shift) := by ring
      have hmiddle : (2 * (2 * 2 ^ f.fraction) + 1) * (den * 2 ^ shift) =
          2 * (2 * 2 ^ f.fraction * (den * 2 ^ shift)) + den * 2 ^ shift := by ring
      rw [lt_roundEven_iff hb]
      omega
    omega
  · have hlast : f.units (2 * 2 ^ f.fraction + shift * 2 ^ f.fraction) =
        2 * 2 ^ f.fraction * 2 ^ shift := f.units_shifted (.inl (by omega)) le_rfl
    have hself : scaled < f.units rank * den :=
      lt_of_lt_of_le hhigh (Nat.mul_le_mul_right den (hlast ▸ units_le_units hrank))
    have hnext : f.units rank * den ≤ f.units (rank + 1) * den :=
      Nat.mul_le_mul_right den (f.units_lt_succ rank).le
    rw [Nat.add_mul]
    omega

/-- The rank is above another one if the quotient is above the middle between the
magnitude of that rank and the next one, or in the middle and the rank is odd. -/
theorem lt_roundRank_iff (hfraction : 0 < f.fraction) (hden : 0 < den) {rank : Nat} :
    rank < f.roundRank scaled den ↔ (f.units rank + f.units (rank + 1)) * den < 2 * scaled ∨
      (f.units rank + f.units (rank + 1)) * den = 2 * scaled ∧ rank % 2 = 1 := by
  obtain ⟨shift, hshift⟩ : ∃ shift, shift = (scaled / den).log2 - f.fraction := ⟨_, rfl⟩
  obtain ⟨hlow, hhigh⟩ := scaled_bounds hden hshift
  have hb : 0 < den * 2 ^ shift := Nat.mul_pos hden (Nat.two_pow_pos _)
  rw [roundRank, ← hshift]
  by_cases hbelow : shift ≠ 0 ∧ rank < 2 ^ f.fraction + shift * 2 ^ f.fraction
  · obtain ⟨hround, hmiddle⟩ := below_roundRank hden (hlow hbelow.1) hbelow.2
    exact iff_of_true hround (.inl hmiddle)
  · rcases Nat.lt_or_ge rank (2 * 2 ^ f.fraction + shift * 2 ^ f.fraction) with hin | habove
    · obtain ⟨k, rfl⟩ : ∃ k, rank = k + shift * 2 ^ f.fraction := by
        refine ⟨rank - shift * 2 ^ f.fraction, ?_⟩
        by_cases hzero : shift = 0
        · simp [hzero]
        · omega
      have hk : 2 ^ f.fraction ≤ k ∨ shift = 0 := by omega
      have hnext : 2 ^ f.fraction ≤ k + 1 ∨ shift = 0 := by omega
      have heven : (k + shift * 2 ^ f.fraction) % 2 = k % 2 := by
        rw [← Nat.sub_add_cancel hfraction, Nat.pow_succ, ← Nat.mul_assoc, Nat.add_mul_mod_self_right]
      have hunits : (f.units (k + shift * 2 ^ f.fraction) +
          f.units (k + shift * 2 ^ f.fraction + 1)) * den = (2 * k + 1) * (den * 2 ^ shift) := by
        rw [Nat.add_right_comm, f.units_shifted hk (by omega), f.units_shifted hnext (by omega)]
        ring
      rw [hunits, heven, ← lt_roundEven_iff hb]
      omega
    · obtain ⟨hround, hmiddle⟩ := roundRank_below hden hhigh habove
      refine iff_of_false (Nat.not_lt.2 hround) ?_
      omega

end

/-! ### Midpoints -/

/-- The magnitude of a rank. -/
def magnitude (rank : Nat) : Rat := f.units rank / (2 ^ f.depth : Nat)

/-- What lies in the middle between a magnitude and the next one. -/
def midpoint (rank : Nat) : Rat := (f.magnitude rank + f.magnitude (rank + 1)) / 2

theorem midpoint_eq (rank : Nat) : f.midpoint rank =
    ((f.units rank + f.units (rank + 1) : Nat) : Rat) / ((2 * 2 ^ f.depth : Nat) : Rat) := by
  rw [midpoint, magnitude, magnitude, ← add_div, div_div, mul_comm, Nat.cast_add, Nat.cast_mul]
  rfl

theorem magnitude_strictMono : StrictMono f.magnitude := fun a b h => by
  have hpos : (0 : Rat) < ((2 ^ f.depth : Nat) : Rat) := by exact_mod_cast Nat.two_pow_pos f.depth
  exact div_lt_div_of_pos_right (Nat.cast_lt.2 (f.units_strictMono h)) hpos

/-- **Quotients are cut at the midpoints.** A quotient is read above a rank exactly
if it lies above the midpoint over it, or is the midpoint and the rank is odd. -/
theorem lt_nearest_iff (hfraction : 0 < f.fraction) {num den : Nat} (hden : 0 < den) {rank : Nat} :
    rank < f.nearest num den ↔ rank < f.top ∧ (f.midpoint rank < (num : Rat) / den ∨
      f.midpoint rank = (num : Rat) / den ∧ rank % 2 = 1) := by
  have hunit : 0 < 2 * 2 ^ f.depth := Nat.mul_pos (by decide) (Nat.two_pow_pos _)
  have hunit' : (0 : Rat) < ((2 * 2 ^ f.depth : Nat) : Rat) := Nat.cast_pos.2 hunit
  have hden' : (0 : Rat) < den := Nat.cast_pos.2 hden
  have hscale : 2 * (num * 2 ^ f.depth) = num * (2 * 2 ^ f.depth) := by ring
  rw [nearest_eq, lt_min_iff, lt_roundRank_iff hfraction hden, midpoint_eq,
    div_lt_div_iff₀ hunit' hden', div_eq_div_iff hunit'.ne' hden'.ne', hscale]
  norm_cast

theorem magnitude_zero : f.magnitude 0 = 0 := by
  rw [magnitude, f.units_zero, Nat.cast_zero, zero_div]

theorem magnitude_nonneg (rank : Nat) : 0 ≤ f.magnitude rank := by
  rw [← f.magnitude_zero]
  exact f.magnitude_strictMono.monotone (Nat.zero_le rank)

section

variable {f} {num den : Nat} (hfraction : 0 < f.fraction) (hden : 0 < den)
  (htop : f.nearest num den < f.top)
include hfraction hden htop

/-- The quotient is nearer to the magnitude it is given than to any other one; in a
tie the rank is even. -/
theorem nearest_dist (k : Nat) :
    |(num : Rat) / den - f.magnitude (f.nearest num den)| ≤ |(num : Rat) / den - f.magnitude k| ∧
      (|(num : Rat) / den - f.magnitude k| = |(num : Rat) / den - f.magnitude (f.nearest num den)| →
        k ≠ f.nearest num den → f.nearest num den % 2 = 0) := by
  have hcut : ∀ rank, rank < f.nearest num den ↔ rank < f.top ∧
      (f.midpoint rank < (num : Rat) / den ∨ f.midpoint rank = (num : Rat) / den ∧ rank % 2 = 1) :=
    fun rank => lt_nearest_iff f hfraction hden
  generalize f.nearest num den = r at *
  generalize (num : Rat) / den = q at *
  rcases Nat.lt_trichotomy k r with hlt | rfl | hgt
  · obtain ⟨j, rfl⟩ : ∃ j, r = j + 1 := ⟨r - 1, by omega⟩
    have hle : f.magnitude k ≤ f.magnitude j := f.magnitude_strictMono.monotone (by omega)
    have hmiddle := ((hcut j).1 (Nat.lt_succ_self j)).2
    rw [midpoint] at hmiddle
    have hside : f.magnitude k + f.magnitude (j + 1) ≤ 2 * q := by
      rcases hmiddle with h | ⟨h, -⟩ <;> linarith
    obtain ⟨hdist, htie⟩ := dist_of_middle_le (f.magnitude_strictMono hlt) hside
    refine ⟨hdist, fun heq _ => ?_⟩
    have hmiddle' := htie heq
    rcases hmiddle with h | ⟨-, hodd⟩
    · linarith
    · omega
  · exact ⟨le_rfl, fun _ hne => absurd rfl hne⟩
  · have hle : f.magnitude (r + 1) ≤ f.magnitude k := f.magnitude_strictMono.monotone hgt
    have hmiddle : ¬ (f.midpoint r < q ∨ f.midpoint r = q ∧ r % 2 = 1) := fun h =>
      lt_irrefl r ((hcut r).2 ⟨htop, h⟩)
    rw [midpoint, not_or, not_lt] at hmiddle
    obtain ⟨hdist, htie⟩ := dist_of_le_middle (f.magnitude_strictMono hgt)
      (show 2 * q ≤ f.magnitude r + f.magnitude k by linarith)
    refine ⟨hdist, fun heq _ => ?_⟩
    have hmiddle' := htie heq
    have hodd : ¬ r % 2 = 1 := fun hodd => hmiddle.2 ⟨by linarith, hodd⟩
    omega

end

end FloatFormat

namespace Finite

variable {f : FloatFormat}

theorem value_eq_magnitude (x : Finite f) :
    x.value = if x.negative then -f.magnitude x.rank else f.magnitude x.rank := by
  rw [value_eq, signedUnits, FloatFormat.magnitude, units]
  cases x.negative
  · rfl
  · simp only [if_true, Int.cast_neg, Int.cast_natCast, neg_div]

/-- No other number of the format is nearer to the rational, and where another one
is as near, the rank is even. -/
structure IsNearest (y : Finite f) (q : Rat) : Prop where
  le : ∀ z : Finite f, |q - y.value| ≤ |q - z.value|
  even : ∀ z : Finite f, |q - z.value| = |q - y.value| → z.value ≠ y.value → y.rank.val % 2 = 0

end Finite

/-- A negative number is no nearer to a quotient than zero is. -/
theorem Finite.exists_magnitude {f : FloatFormat} (z : Finite f) {q : Rat} (hq : 0 ≤ q) :
    ∃ k, |q - f.magnitude k| ≤ |q - z.value| ∧
      (|q - z.value| = |q - f.magnitude k| → z.value = f.magnitude k) := by
  have hmagnitude := f.magnitude_nonneg z.rank
  rw [value_eq_magnitude]
  cases z.negative with
  | false => exact ⟨z.rank, le_rfl, fun _ => rfl⟩
  | true =>
    refine ⟨0, ?_⟩
    rw [if_pos rfl, f.magnitude_zero, sub_zero, sub_neg_eq_add, abs_of_nonneg hq,
      abs_of_nonneg (by linarith)]
    exact ⟨by linarith, fun heq => by linarith⟩

/-- **What is read is nearest.** A quotient that is read as a finite number is read
as the nearest one. -/
theorem Binary.isNearest_of_ofQuotient {f : FloatFormat} (hfraction : 0 < f.fraction)
    {num den : Nat} (hden : 0 < den) {y : Finite f}
    (h : ofQuotient f false num den = .finite y) : y.IsNearest ((num : Rat) / den) := by
  unfold ofQuotient at h
  split at h
  · rename_i htop
    cases h
    have hdist := FloatFormat.nearest_dist hfraction hden htop
    have hquotient : (0 : Rat) ≤ (num : Rat) / den := by positivity
    have hvalue : Finite.value ⟨false, ⟨f.nearest num den, htop⟩⟩ =
        f.magnitude (f.nearest num den) := Finite.value_eq_magnitude _
    constructor
    · intro z
      obtain ⟨k, hk, -⟩ := z.exists_magnitude hquotient
      rw [hvalue]
      exact (hdist k).1.trans hk
    · intro z heq hne
      rw [hvalue] at heq hne
      obtain ⟨k, hk, hsame⟩ := z.exists_magnitude hquotient
      have htie := le_antisymm (hk.trans_eq heq) (hdist k).1
      refine (hdist k).2 htie fun hrank => hne ?_
      rw [hsame (heq.trans htie.symm), hrank]
  · cases h

end ViewMarkup
