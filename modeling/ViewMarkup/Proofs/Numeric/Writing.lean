/-
# Numbers read as they are written

Whatever the style, the text of a double spells a decimal that is read as this
double, sign included. A style that keeps a point writes nothing that reads as a
whole number.

Key definitions: `Decimal.HasSpelling`, `signed`.
Key theorems: `NumberStyle.write_hasSpelling`, `double?_signed`, `double?_int`,
`NumberStyle.double?_writeFinite`, `NumberStyle.integer?_writeFinite`.
-/
import ViewMarkup.Proofs.Numeric.Digits
import ViewMarkup.Proofs.Numeric.Shortest

namespace ViewMarkup

-- Powers are the core library's, as they are where ranks are defined.
attribute [local instance (high)] instPowNat

/-! ### Decimals -/

namespace Decimal

/-- The characters spell a decimal of the same value. -/
def HasSpelling (d : Decimal) (cs : List Char) : Prop :=
  ∃ d' : Decimal, d'.Spells cs ∧ d'.value = d.value

/-- Zeros after the digits are made up for by the exponent. -/
theorem value_of_shift {d d' : Decimal} {n : Nat} (hdigits : d'.digits = d.digits * 10 ^ n)
    (hexponent : d'.exponent + n = d.exponent) : d'.value = d.value := by
  rw [value_eq, value_eq d, hdigits, ← hexponent, zpow_add₀ (by norm_num), zpow_natCast,
    Nat.cast_mul, Nat.cast_pow]
  push_cast
  ring

variable {d : Decimal} {rest : List Char} {e : Int} (before after : Nat)

/-- The digits of a decimal with zeros around them. -/
def padded (d : Decimal) : List Char :=
  List.replicate before '0' ++ (Nat.toDigits 10 d.digits ++ List.replicate after '0')

theorem isDigit_of_mem_padded : ∀ c ∈ d.padded before after, c.isDigit = true := by
  have hzeros {n : Nat} : ∀ c ∈ List.replicate n '0', c.isDigit = true := by
    intro c hc
    obtain rfl := List.eq_of_mem_replicate hc
    rfl
  exact List.forall_mem_append.2
    ⟨hzeros, List.forall_mem_append.2 ⟨isDigit_of_mem_toDigits, hzeros⟩⟩

/-- Zeros in front count for nothing, zeros at the end for powers of ten. -/
theorem digitsValue_padded : digitsValue (d.padded before after) = d.digits * 10 ^ after := by
  rw [padded, digitsValue_zeros_append, digitsValue_append_zeros, digitsValue_toDigits]

theorem hasSpelling_whole (he : exponent? rest = some e) (hexponent : e + after = d.exponent) :
    d.HasSpelling (d.padded before after ++ rest) := by
  have hne : d.padded before after ≠ [] := by simp [padded, Nat.toDigits_ne_nil]
  have hvalue := digitsValue_padded (d := d) before after
  exact ⟨_, .whole hne (isDigit_of_mem_padded before after) he, value_of_shift hvalue hexponent⟩

/-- The exponent makes up for the digits after the point. -/
theorem hasSpelling_point {whole fraction : List Char} (hne : whole ≠ [])
    (hsplit : whole ++ fraction = d.padded before after) (he : exponent? rest = some e)
    (hexponent : e - fraction.length + after = d.exponent) :
    d.HasSpelling (whole ++ '.' :: (fraction ++ rest)) := by
  have hvalue := digitsValue_padded (d := d) before after
  have hdigits := isDigit_of_mem_padded (d := d) before after
  rw [← hsplit] at hvalue hdigits
  obtain ⟨hwhole, hfraction⟩ := List.forall_mem_append.1 hdigits
  exact ⟨_, .point hne hwhole hfraction he, value_of_shift hvalue hexponent⟩

theorem hasSpelling_fraction {whole fraction : List Char} (hne : whole ≠ [])
    (hsplit : whole ++ fraction = d.padded before after)
    (hexponent : (after : Int) - fraction.length = d.exponent) :
    d.HasSpelling (whole ++ '.' :: fraction) := by
  have hspelling : d.HasSpelling (whole ++ '.' :: (fraction ++ [])) :=
    hasSpelling_point before after hne hsplit rfl (by omega)
  rwa [List.append_nil] at hspelling

/-! ### The forms in which a decimal is written

As a whole number, with zeros after the digits; with a point among the digits or in
front of them; and with an exponent. -/

/-- The exponent of the leading digit. -/
def lead (d : Decimal) : Int := d.exponent + (Nat.toDigits 10 d.digits).length - 1

theorem padded_zero (d : Decimal) : d.padded 0 0 = Nat.toDigits 10 d.digits := List.append_nil _

theorem take_digits_ne_nil (d : Decimal) (n : Nat) :
    (Nat.toDigits 10 d.digits).take (n + 1) ≠ [] := fun h =>
  Nat.toDigits_ne_nil ((List.take_eq_nil_iff.1 h).resolve_left (Nat.succ_ne_zero n))

theorem hasSpelling_integral (h : 0 ≤ d.exponent) :
    d.HasSpelling (Nat.toDigits 10 d.digits ++ List.replicate d.exponent.toNat '0') := by
  have hspelling : d.HasSpelling (d.padded 0 d.exponent.toNat ++ []) :=
    hasSpelling_whole 0 d.exponent.toNat rfl (by omega)
  rwa [List.append_nil] at hspelling

theorem hasSpelling_integral_point (h : 0 ≤ d.exponent) :
    d.HasSpelling (Nat.toDigits 10 d.digits ++ List.replicate d.exponent.toNat '0' ++ ['.', '0']) := by
  refine hasSpelling_fraction 0 (d.exponent.toNat + 1) ?_ ?_ ?_
  · simp [Nat.toDigits_ne_nil]
  · rw [padded, List.replicate_succ', List.append_assoc]
    rfl
  · rw [List.length_singleton]
    omega

theorem hasSpelling_inside (h : ¬ 0 ≤ d.exponent) (hlead : 0 ≤ d.lead) :
    d.HasSpelling ((Nat.toDigits 10 d.digits).take (d.lead.toNat + 1) ++
      '.' :: (Nat.toDigits 10 d.digits).drop (d.lead.toNat + 1)) := by
  refine hasSpelling_fraction 0 0 (d.take_digits_ne_nil _) ?_ ?_
  · rw [List.take_append_drop, padded_zero]
  · unfold lead at *
    rw [List.length_drop]
    omega

theorem hasSpelling_below (hlead : ¬ 0 ≤ d.lead) :
    d.HasSpelling ('0' :: '.' :: (List.replicate (-d.lead - 1).toNat '0' ++
      Nat.toDigits 10 d.digits)) := by
  have hzero : ['0'] ≠ [] := List.cons_ne_nil _ _
  refine hasSpelling_fraction ((-d.lead - 1).toNat + 1) 0 hzero ?_ ?_
  · rw [padded, List.replicate_succ, List.replicate_zero, List.append_nil]
    rfl
  · unfold lead at *
    rw [List.length_append, List.length_replicate]
    omega

theorem hasSpelling_scientific (he : exponent? rest = some d.lead) :
    d.HasSpelling ((Nat.toDigits 10 d.digits).take 1 ++
      (if (Nat.toDigits 10 d.digits).length = 1 then []
        else '.' :: (Nat.toDigits 10 d.digits).drop 1) ++ rest) := by
  have hpositive : 0 < (Nat.toDigits 10 d.digits).length := Nat.length_toDigits_pos
  split
  · rename_i hone
    have hspelling : d.HasSpelling (d.padded 0 0 ++ rest) :=
      hasSpelling_whole 0 0 he (by unfold lead; omega)
    rwa [padded_zero, ← List.take_of_length_le hone.le, ← List.append_nil (List.take ..)] at hspelling
  · rw [List.append_assoc, List.cons_append]
    refine hasSpelling_point 0 0 (d.take_digits_ne_nil 0) ?_ he ?_
    · rw [List.take_append_drop, padded_zero]
    · unfold lead
      rw [List.length_drop]
      omega

end Decimal

theorem exponent?_text (lead : Int) : ∃ cs,
    (if 0 ≤ lead then "e+" ++ toString lead.natAbs else "e-" ++ toString lead.natAbs : String) =
      String.ofList ('e' :: cs) ∧ exponent? ('e' :: cs) = some lead := by
  rw [Nat.toString_eq_ofList_toDigits]
  split
  · refine ⟨'+' :: Nat.toDigits 10 lead.natAbs, (String.ofList_append ..).symm, ?_⟩
    exact (exponent?_plus lead.natAbs).trans (congrArg some (by omega))
  · refine ⟨'-' :: Nat.toDigits 10 lead.natAbs, (String.ofList_append ..).symm, ?_⟩
    exact (exponent?_minus lead.natAbs).trans (congrArg some (by omega))

namespace NumberStyle

/-- **What is written for a decimal spells one of the same value**, in a style that
keeps a point not by digits alone. -/
theorem write_hasSpelling (style : NumberStyle) (d : Decimal) :
    d.HasSpelling (style.write d).toList ∧
      (style.keepsPoint = true → ∃ c ∈ (style.write d).toList, c.isDigit = false) := by
  have hlead : d.exponent + (Nat.toDigits 10 d.digits).length - 1 = d.lead := rfl
  simp only [write, hlead]
  split
  · split
    · rename_i hexponent
      rw [String.toList_append, String.toList_ofList]
      cases style.keepsPoint with
      | true => exact ⟨d.hasSpelling_integral_point hexponent, fun _ => ⟨'.', by simp, rfl⟩⟩
      | false =>
        have hspelling := d.hasSpelling_integral hexponent
        simpa using hspelling
    · rename_i hexponent
      split
      · rename_i hpositive
        simp only [String.toList_append, String.toList_ofList, List.append_assoc]
        exact ⟨d.hasSpelling_inside hexponent hpositive, fun _ => ⟨'.', by simp, rfl⟩⟩
      · rename_i hnegative
        simp only [String.toList_append, String.toList_ofList]
        exact ⟨d.hasSpelling_below hnegative, fun _ => ⟨'.', by simp, rfl⟩⟩
  · obtain ⟨cs, htext, hexponent⟩ := exponent?_text d.lead
    rw [htext, String.toList_append, String.toList_append, String.toList_ofList, String.toList_ofList]
    refine ⟨?_, fun _ => ⟨'e', by simp, rfl⟩⟩
    have hspelling := d.hasSpelling_scientific hexponent
    split at hspelling <;> simpa [*] using hspelling

end NumberStyle

/-! ### Signs -/

/-- A minus in front of what is negative. -/
def signed (negative : Bool) (cs : List Char) : List Char := if negative then '-' :: cs else cs

section

variable {d : Decimal} {cs : List Char} (h : d.Spells cs) (negative : Bool)
include h

theorem spanSign_signed : spanSign (signed negative cs) = (negative, cs) := by
  cases negative with
  | true => rfl
  | false =>
    obtain ⟨c, rest, rfl, hc⟩ := h.first
    have hminus : c ≠ '-' := by rintro rfl; cases hc
    have hplus : c ≠ '+' := by rintro rfl; cases hc
    simp [signed, spanSign, hminus, hplus]

/-- No word starts as a number does. -/
theorem signed_ne_word {word : List Char} (hword : word.head?.all Char.isAlpha = true) :
    signed negative cs ≠ word := by
  rintro rfl
  cases negative with
  | true => cases hword
  | false =>
    obtain ⟨c, rest, rfl, hc⟩ := h.first
    exact absurd hc (Bool.eq_false_iff.1 (not_isDigit_of_isAlpha hword))

theorem trimText_signed :
    trimText (String.ofList (signed negative cs)) = String.ofList (signed negative cs) := by
  have hblank : ∀ c ∈ signed negative cs, isBlank c = false := by
    cases negative with
    | true => exact List.forall_mem_cons.2 ⟨by decide, h.not_isBlank⟩
    | false => exact h.not_isBlank
  rw [trimText, String.toList_ofList, trim_eq_self hblank]

/-- **A number is read as its sign and its decimal.** -/
theorem double?_signed :
    double? (String.ofList (signed negative cs)) = some (.ofDecimal .double negative d) := by
  -- the first digit stays in the lower case
  have hword : ∀ word : String, word.toList.head?.all Char.isAlpha = true →
      String.ofList (cs.map Char.toLower) ≠ word := by
    rintro word halpha rfl
    obtain ⟨c, rest, rfl, hc⟩ := h.first
    rw [String.toList_ofList, List.map_cons, toLower_of_isDigit hc] at halpha
    exact absurd hc (Bool.eq_false_iff.1 (not_isDigit_of_isAlpha halpha))
  simp only [double?, String.toList_ofList, spanSign_signed h, h.decimal?_eq]
  simp [hword "inf" rfl, hword "infinity" rfl, hword "nan" rfl]

theorem integer?_signed : integer? (String.ofList (signed negative cs)) =
    if cs.all Char.isDigit && fitsInt64 (if negative then -(digitsValue cs : Int) else digitsValue cs)
      then some (if negative then -(digitsValue cs : Int) else digitsValue cs) else none := by
  obtain ⟨c, rest, rfl, -⟩ := h.first
  simp [integer?, spanSign_signed h]

end

/-! ### Numbers -/

/-- The decimal of a whole number, which its digits spell. -/
theorem Decimal.spells_natAbs (n : Int) : Spells ⟨n.natAbs, 0⟩ (Nat.toDigits 10 n.natAbs) := by
  have hspells := Spells.of_digits (Nat.toDigits_ne_nil (n := n.natAbs)) isDigit_of_mem_toDigits
  rwa [digitsValue_toDigits] at hspells

theorem toString_int (n : Int) :
    toString n = String.ofList (signed (n < 0) (Nat.toDigits 10 n.natAbs)) := by
  rw [Int.toString_eq_repr, Int.repr_eq_if]
  by_cases hn : 0 ≤ n
  · have habs : n.toNat = n.natAbs := by omega
    rw [if_pos hn, habs, Nat.repr_eq_ofList_toDigits, decide_eq_false (not_lt.2 hn)]
    rfl
  · have habs : (-n).toNat = n.natAbs := by omega
    rw [if_neg hn, habs, Nat.repr_eq_ofList_toDigits, decide_eq_true (not_le.1 hn)]
    exact (String.ofList_append ..).symm

theorem double?_int (n : Int) : double? (toString n) = some (.ofInt .double n) := by
  rw [toString_int, double?_signed (Decimal.spells_natAbs n), Binary.ofDecimal_eq]
  simp [Decimal.quotient, Binary.ofInt]

theorem integer?_int (n : Int) : integer? (toString n) = if fitsInt64 n then some n else none := by
  have hall : (Nat.toDigits 10 n.natAbs).all Char.isDigit = true :=
    List.all_eq_true.2 isDigit_of_mem_toDigits
  have hvalue : (if decide (n < 0) = true then -(n.natAbs : Int) else n.natAbs) = n := by
    split
    · rename_i hn
      have hn := of_decide_eq_true hn
      omega
    · rename_i hn
      have hn := of_decide_eq_false (Bool.eq_false_iff.2 hn)
      omega
  rw [toString_int, integer?_signed (Decimal.spells_natAbs n), digitsValue_toDigits, hvalue, hall,
    Bool.true_and]

namespace NumberStyle

variable (style : NumberStyle) (x : FiniteDouble)

theorem zero_hasSpelling :
    Decimal.HasSpelling ⟨0, 0⟩ (if style.keepsPoint then "0.0" else "0").toList ∧
      (style.keepsPoint = true →
        ∃ c ∈ (if style.keepsPoint then "0.0" else "0").toList, c.isDigit = false) := by
  cases style.keepsPoint with
  | true =>
    exact ⟨Decimal.hasSpelling_integral_point (d := ⟨0, 0⟩) le_rfl, fun _ => ⟨'.', by decide, rfl⟩⟩
  | false => exact ⟨Decimal.hasSpelling_integral (d := ⟨0, 0⟩) le_rfl, fun h => nomatch h⟩

/-- The text of a double is a sign and a spelling of a decimal that is read as this
double, in a style that keeps a point not by digits alone. -/
theorem writeFinite_spells : ∃ (d : Decimal) (cs : List Char), d.Spells cs ∧
    style.writeFinite x = String.ofList (signed x.negative cs) ∧
    Binary.ofDecimal .double x.negative d = .finite x ∧
    (style.keepsPoint = true → ∃ c ∈ cs, c.isDigit = false) := by
  have hsigned (text : String) : (if x.negative = true then "-" else "") ++ text =
      String.ofList (signed x.negative text.toList) := by
    refine String.toList_inj.1 ?_
    cases x.negative <;> simp [signed]
  unfold writeFinite
  rw [hsigned]
  split
  · rename_i hzero
    obtain ⟨⟨d, hspells, hvalue⟩, hpoint⟩ := style.zero_hasSpelling
    refine ⟨d, _, hspells, rfl, ?_, hpoint⟩
    rw [Binary.ofDecimal_of_value_eq _ hvalue, Binary.ofDecimal_of_isZero hzero rfl]
  · rename_i hnonzero
    obtain ⟨⟨d, hspells, hvalue⟩, hpoint⟩ := style.write_hasSpelling (x.shortest style.tie)
    refine ⟨d, _, hspells, rfl, ?_, hpoint⟩
    rw [Binary.ofDecimal_of_value_eq _ hvalue, Finite.ofDecimal_shortest]

/-- **A double is read as it is written.** -/
theorem double?_writeFinite : double? (style.writeFinite x) = some (.finite x) := by
  obtain ⟨d, cs, hspells, htext, hback, -⟩ := style.writeFinite_spells x
  rw [htext, double?_signed hspells, hback]

/-- What keeps a point is no whole number. -/
theorem integer?_writeFinite (h : style.keepsPoint = true) :
    integer? (style.writeFinite x) = none := by
  obtain ⟨d, cs, hspells, htext, -, hpoint⟩ := style.writeFinite_spells x
  have hall : cs.all Char.isDigit = false := by
    obtain ⟨c, hc, hdigit⟩ := hpoint h
    exact List.all_eq_false.2 ⟨c, hc, Bool.eq_false_iff.1 hdigit⟩
  rw [htext, integer?_signed hspells, hall]
  rfl

end NumberStyle

end ViewMarkup
