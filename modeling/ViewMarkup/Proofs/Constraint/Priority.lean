/-
# Priorities that are narrowed

A priority is written as a number of double precision, and held to its bounds as
such; it is kept in single precision. The nearest single number of one that is
above 0 and not above 1000 is not above 1000 either. But it is 0 for the numbers
up to half the least single number, and 1000 for those that lie no further below
1000 than half a step. In between a priority keeps its class: what is written as
optional stays optional, and every other priority is kept above 0.

Key definitions: `Priority.KeepsClass`.
Key theorems: `Binary.convert_of_pos`, `Priority.convert_eq`,
`SpecContext.priority_keeps_class_iff`.
-/
import ViewMarkup.Layout.Frames
import ViewMarkup.Proofs.Constraint.Accepted
import ViewMarkup.Proofs.Numeric.Nearest

namespace ViewMarkup

-- Powers are the core library's, as they are where ranks are defined.
attribute [local instance (high)] instPowNat

/-! ### Narrowing -/

namespace Binary

/-- A positive number is narrowed as the quotient that it is. -/
theorem convert_of_pos {f : FloatFormat} {x : Binary f} {v : Rat} (g : FloatFormat)
    (hv : x.value? = some v) (hpos : 0 < v) :
    ∃ num den : Nat, 0 < den ∧ v = (num : Rat) / den ∧ x.convert g = ofQuotient g false num den := by
  obtain ⟨z, rfl, rfl⟩ := exists_of_value? hv
  have hvalue := z.value_eq_magnitude
  cases hnegative : z.negative with
  | true =>
    rw [hnegative, if_pos rfl] at hvalue
    exact absurd (hvalue ▸ hpos) (not_lt.2 (neg_nonpos.2 (f.magnitude_nonneg _)))
  | false =>
    rw [hnegative] at hvalue
    refine ⟨z.units, 2 ^ f.depth, Nat.two_pow_pos _, hvalue, ?_⟩
    rw [convert, hnegative]

end Binary

namespace Priority

/-- The rank of 1000 among the single numbers. -/
def requiredRank : Nat := 1148846080

/-- The priority is above 0 and not above 1000, and required exactly if it was
written as 1000. -/
structure KeepsClass (p : Priority) (v : Rat) : Prop where
  within : ∃ q, p.value? = some q ∧ 0 < q ∧ q ≤ 1000
  required : p.isRequired = true ↔ v = 1000

theorem required_value? : required.value? = some 1000 := by decide +kernel

theorem magnitude_requiredRank : FloatFormat.single.magnitude requiredRank = 1000 := by
  decide +kernel

theorem midpoint_zero : FloatFormat.single.midpoint 0 = 1 / 2 ^ 150 := by decide +kernel

theorem midpoint_before : FloatFormat.single.midpoint (requiredRank - 1) = 1000 - 1 / 2 ^ 15 := by
  decide +kernel

theorem midpoint_after : FloatFormat.single.midpoint requiredRank = 1000 + 1 / 2 ^ 15 := by
  decide +kernel

/-- What is required is solved as such, and what is not is not. -/
theorem strength_eq_required_iff {p : Priority} : p.strength = .required ↔ p.isRequired = true := by
  unfold strength
  split_ifs with h <;> simp [h]

variable {x : Double} {v : Rat}

/-- A number up to 1000 is narrowed to a finite one, the rank of which is told by
the midpoints below it. -/
theorem convert_eq (hv : x.value? = some v) (hpos : 0 < v) (hle : v ≤ 1000) :
    ∃ y : Finite .single, x.convert .single = .finite y ∧ y.IsNearest v ∧
      y.value = FloatFormat.single.magnitude y.rank ∧
      ∀ rank, rank < y.rank.val ↔ rank < FloatFormat.single.top ∧
        (FloatFormat.single.midpoint rank < v ∨
          FloatFormat.single.midpoint rank = v ∧ rank % 2 = 1) := by
  obtain ⟨num, den, hden, rfl, hconvert⟩ := x.convert_of_pos .single hv hpos
  have hcut : ∀ rank, rank < FloatFormat.single.nearest num den ↔ rank < FloatFormat.single.top ∧
      (FloatFormat.single.midpoint rank < (num : Rat) / den ∨
        FloatFormat.single.midpoint rank = (num : Rat) / den ∧ rank % 2 = 1) := fun rank =>
    FloatFormat.lt_nearest_iff _ (by decide) hden
  have htop : FloatFormat.single.nearest num den < FloatFormat.single.top := by
    have hle' : ¬ requiredRank < FloatFormat.single.nearest num den := by
      rw [hcut, midpoint_after]
      rintro ⟨-, h | ⟨h, -⟩⟩ <;> linarith
    exact lt_of_le_of_lt (not_lt.1 hle') (by decide)
  have hfinite : Binary.ofQuotient .single false num den = .finite ⟨false, ⟨_, htop⟩⟩ :=
    dif_pos htop
  exact ⟨_, hconvert.trans hfinite, Binary.isNearest_of_ofQuotient (by decide) hden hfinite,
    Finite.value_eq_magnitude _, hcut⟩

section

variable {y : Finite .single} (hvalue : y.value = FloatFormat.single.magnitude y.rank)
  (hcut : ∀ rank, rank < y.rank.val ↔ rank < FloatFormat.single.top ∧
    (FloatFormat.single.midpoint rank < v ∨ FloatFormat.single.midpoint rank = v ∧ rank % 2 = 1))
include hvalue hcut

theorem value_le_of_cut (hle : v ≤ 1000) : y.value ≤ 1000 := by
  have hrank : ¬ requiredRank < y.rank.val := by
    rw [hcut, midpoint_after]
    rintro ⟨-, h | ⟨h, -⟩⟩ <;> linarith
  rw [hvalue, ← magnitude_requiredRank]
  exact FloatFormat.single.magnitude_strictMono.monotone (not_lt.1 hrank)

/-- Half the least single number is narrowed to 0, as all below it. -/
theorem value_pos_iff_of_cut : 0 < y.value ↔ 1 / 2 ^ 150 < v := by
  rw [hvalue, ← FloatFormat.single.magnitude_zero,
    FloatFormat.single.magnitude_strictMono.lt_iff_lt, hcut, midpoint_zero]
  constructor
  · rintro ⟨-, h | ⟨-, hodd⟩⟩
    · exact h
    · cases hodd
  · exact fun h => ⟨by decide, .inl h⟩

/-- From half a step below 1000 on a number is narrowed to 1000. -/
theorem isRequired_iff_of_cut : Priority.isRequired (.finite y) = true ↔ 1000 - 1 / 2 ^ 15 ≤ v := by
  have hrank : requiredRank ≤ y.rank.val ↔ requiredRank - 1 < y.rank.val := by
    rw [← Nat.succ_le_iff]
    rfl
  have hle : 1000 ≤ y.value ↔ requiredRank ≤ y.rank.val := by
    rw [hvalue, ← magnitude_requiredRank, FloatFormat.single.magnitude_strictMono.le_iff_le]
  rw [isRequired, Binary.le_iff_value required_value? rfl, hle, hrank, hcut, midpoint_before]
  constructor
  · rintro ⟨-, h | ⟨h, -⟩⟩
    · exact h.le
    · exact h.le
  · intro h
    rcases h.lt_or_eq with h | h
    · exact ⟨by decide, .inl h⟩
    · exact ⟨by decide, .inr ⟨h, by decide⟩⟩

theorem keepsClass_iff_of_cut (hle : v ≤ 1000) :
    KeepsClass (.finite y) v ↔ 1 / 2 ^ 150 < v ∧ (v < 1000 - 1 / 2 ^ 15 ∨ v = 1000) := by
  have hpos := value_pos_iff_of_cut hvalue hcut
  have hrequired := isRequired_iff_of_cut hvalue hcut
  constructor
  · rintro ⟨⟨q, hq, hbounds⟩, hkept⟩
    obtain rfl := Option.some.inj hq
    refine ⟨hpos.1 hbounds.1, ?_⟩
    rcases lt_or_ge v (1000 - 1 / 2 ^ 15) with hlt | hge
    · exact .inl hlt
    · exact .inr (hkept.1 (hrequired.2 hge))
  · rintro ⟨hlow, hhigh⟩
    refine ⟨⟨y.value, rfl, hpos.2 hlow, value_le_of_cut hvalue hcut hle⟩, ?_⟩
    rw [hrequired]
    constructor
    · intro h
      exact hhigh.resolve_left (not_lt.2 h)
    · rintro rfl
      norm_num

end

end Priority

/-- A descriptor is written without a mark for its priority exactly if it is
required. -/
theorem Descriptor.text_withPriority_iff (d : Descriptor) (p : Priority) :
    (d.withPriority p).text = (d.withPriority .required).text ↔ p.isRequired = true := by
  have htext (q : Priority) : (d.withPriority q).text =
      (d.first.text ++ "." ++ d.firstAnchor.text ++ " " ++ d.relation.text ++ " " ++ d.rightText) ++
        if q.isRequired then "" else " @" ++ Binary.text q := rfl
  have hrequired : Priority.isRequired .required = true := by decide +kernel
  rw [htext, htext, if_pos hrequired, String.append_right_inj]
  split_ifs with h <;> simp [h]

/-- **Priorities keep their class but at the ends.** What a priority that is
accepted stands for, a number or a metric, is above 0 and not above 1000, and the
priority is the single number nearest to it, which is not above 1000. It is above
0 and required for 1000 alone, exactly if the number is above `2 ^ -150` and either
1000 or more than `2 ^ -15` below it. Up to the one it is narrowed to 0, and from
the other on it is required: solved as such, and written without a mark. -/
theorem SpecContext.priority_keeps_class_iff {ctx : SpecContext} {operand : Located Operand}
    {p : Priority} (h : ctx.priority (some operand) = .ok p) :
    ∃ (x : Double) (v : Rat) (y : Finite .single),
      ctx.lexicon.number? operand.value = some x ∧ x.value? = some v ∧ 0 < v ∧ v ≤ 1000 ∧
      p = .finite y ∧ y.IsNearest v ∧ 0 ≤ y.value ∧ y.value ≤ 1000 ∧
      (p.KeepsClass v ↔ 1 / 2 ^ 150 < v ∧ (v < 1000 - 1 / 2 ^ 15 ∨ v = 1000)) ∧
      (y.value = 0 ↔ v ≤ 1 / 2 ^ 150) ∧
      (p.isRequired = true ↔ 1000 - 1 / 2 ^ 15 ≤ v) ∧
      (p.strength = .required ↔ p.isRequired = true) ∧
      ∀ d : Descriptor,
        (d.withPriority p).text = (d.withPriority .required).text ↔ p.isRequired = true := by
  obtain ⟨x, hx, hlow, hhigh, rfl⟩ := isPriority_of_priority h
  obtain ⟨v, hv, hpos, hle⟩ := (isPriority_iff x).1 (by rw [hlow, hhigh]; rfl)
  obtain ⟨y, hy, hnearest, hvalue, hcut⟩ := Priority.convert_eq hv hpos hle
  have hnonneg : 0 ≤ y.value := hvalue ▸ FloatFormat.single.magnitude_nonneg _
  rw [hy]
  refine ⟨x, v, y, hx, hv, hpos, hle, rfl, hnearest, hnonneg,
    Priority.value_le_of_cut hvalue hcut hle, Priority.keepsClass_iff_of_cut hvalue hcut hle, ?_,
    Priority.isRequired_iff_of_cut hvalue hcut, Priority.strength_eq_required_iff,
    fun d => d.text_withPriority_iff _⟩
  rw [← not_lt, ← Priority.value_pos_iff_of_cut hvalue hcut, not_lt]
  exact ⟨fun h => h.le, fun h => le_antisymm h hnonneg⟩

/-! ### Priorities at the ends and between them -/

/-- One view with the id `a`. -/
def oneId : IdTable := ⟨[("a", ⟨⟨1⟩, .root, "@layout[0]"⟩)]⟩

/-- A width that is written as optional. -/
def tightSpec : ConstraintSpec where
  format := "[a(10@999.99999999)]"
  options := []
  metrics := [("high", 750), ("faint", .ofDecimal .double false ⟨1, -50⟩)]

/-- The number that is written there. -/
def almostRequired : Double := Token.numberValue "999.99999999".toList

theorem high_keeps_class : ∃ p : Priority,
    SpecContext.priority ⟨tightSpec, oneId, .standard⟩ (some ⟨.name "high", ⟨6, 10⟩⟩) = .ok p ∧
      p.KeepsClass 750 := by
  have hpriority : SpecContext.priority ⟨tightSpec, oneId, .standard⟩
      (some ⟨.name "high", ⟨6, 10⟩⟩) = .ok 750 := by decide +kernel
  obtain ⟨x, v, y, hx, hv, -, -, -, -, -, -, hkeeps, -⟩ :=
    SpecContext.priority_keeps_class_iff hpriority
  have hx750 : Lexicon.number? (SpecContext.lexicon ⟨tightSpec, oneId, .standard⟩)
      (.name "high") = some 750 := by decide +kernel
  obtain rfl := Option.some.inj (hx750.symm.trans hx)
  have hv750 : Binary.value? (750 : Double) = some 750 := by decide +kernel
  obtain rfl := Option.some.inj (hv750.symm.trans hv)
  exact ⟨750, hpriority, hkeeps.2 ⟨by norm_num, .inl (by norm_num)⟩⟩

/-- A priority below 1000 is kept as 1000, so that the width has to hold; and a
metric above 0 is kept as 0. -/
theorem tightSpec_loses_class :
    (∃ v p d, almostRequired.value? = some v ∧ v < 1000 ∧
      SpecContext.priority ⟨tightSpec, oneId, .standard⟩
        (some ⟨.number almostRequired, ⟨6, 18⟩⟩) = .ok p ∧ ¬ p.KeepsClass v ∧
      resolve tightSpec oneId .standard = .ok [d] ∧ d.priority = p ∧ p.strength = .required ∧
      d.text = "a.width == 10") ∧
    ∃ x v p, SpecContext.metric? ⟨tightSpec, oneId, .standard⟩ "faint" = some x ∧
      x.value? = some v ∧ 0 < v ∧
      SpecContext.priority ⟨tightSpec, oneId, .standard⟩ (some ⟨.name "faint", ⟨6, 11⟩⟩) = .ok p ∧
      ¬ p.KeepsClass v := by
  constructor
  · have hvalue : almostRequired.value?.map (fun v => decide (v < 1000)) = some true := by
      decide +kernel
    have hpriority : SpecContext.priority ⟨tightSpec, oneId, .standard⟩
        (some ⟨.number almostRequired, ⟨6, 18⟩⟩) = .ok .required := by decide +kernel
    have hrun : ((resolve tightSpec oneId .standard).map
        (List.map fun d => (d.priority, d.text))).toOption =
          some [(Priority.required, "a.width == 10")] := by decide +kernel
    have hrequired : Priority.isRequired .required = true := by decide +kernel
    obtain ⟨v, hv, hlt⟩ := Option.map_eq_some_iff.1 hvalue
    obtain ⟨ds, hds, hfound⟩ := map_eq_ok_iff.1 (toOption_eq_some_iff.1 hrun)
    obtain ⟨d, rest, rfl, hd, hrest⟩ := List.map_eq_cons_iff.1 hfound
    obtain rfl := List.map_eq_nil_iff.1 hrest
    obtain ⟨hdp, hdt⟩ := Prod.mk.inj hd
    have hlt := of_decide_eq_true hlt
    exact ⟨v, .required, d, hv, hlt, hpriority, fun h => hlt.ne (h.required.1 hrequired), hds, hdp,
      Priority.strength_eq_required_iff.2 hrequired, hdt⟩
  · have hmetric : (SpecContext.metric? ⟨tightSpec, oneId, .standard⟩ "faint").map
        (fun x => x.value?.map fun v => decide (0 < v)) = some (some true) := by decide +kernel
    have hpriority : SpecContext.priority ⟨tightSpec, oneId, .standard⟩
        (some ⟨.name "faint", ⟨6, 11⟩⟩) = .ok 0 := by decide +kernel
    have hzero : Binary.value? (0 : Single) = some 0 := by decide +kernel
    obtain ⟨x, hx, hvalue⟩ := Option.map_eq_some_iff.1 hmetric
    obtain ⟨v, hv, hpos⟩ := Option.map_eq_some_iff.1 hvalue
    refine ⟨x, v, 0, hx, hv, of_decide_eq_true hpos, hpriority, fun h => ?_⟩
    obtain ⟨q, hq, habove, -⟩ := h.within
    obtain rfl := Option.some.inj (hzero.symm.trans hq)
    exact lt_irrefl 0 habove

end ViewMarkup
