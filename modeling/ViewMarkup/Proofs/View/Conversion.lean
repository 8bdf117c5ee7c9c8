/-
# A value and the text inserted for it

A number or a truth value reaches a property as it stands, or as the text that a
template inserts for it. Read as a number or as a whole number both give the same.
Read as a truth value they do too, but for 0 and 1: these are truth values as they
stand, and not as text.

Key definitions: `Json.isScalar`, `Json.ReadsAlike`.
Key theorems: `Json.Number.exists_spells`, `PropertyValue.number?_text`,
`PropertyValue.wholeNumber?_text`, `PropertyValue.bool?_text`,
`Json.scalar_reads_alike_iff`.
-/
import ViewMarkup.Proofs.Numeric.Writing
import ViewMarkup.View.Property

namespace ViewMarkup

namespace Json

/-- A number or a truth value. -/
def isScalar : Json → Bool
  | bool _ | number _ => true
  | _ => false

/-- The value as it stands and the text inserted for it are read as the same, or
both are refused. -/
def ReadsAlike {α : Type} (v : Json) (read : PropertyValue → Except PropertyError α) : Prop :=
  (read (.json v)).toOption = (read (.text v.inserted)).toOption

/-! ### Texts of numbers -/

theorem inserted_number (n : Number) : (number n).inserted = n.text := by
  rw [inserted, text]
  all_goals simp

namespace Number

variable (n : Number)

/-- The text of a number is a sign and a spelling of a decimal. -/
theorem exists_spells : ∃ (negative : Bool) (d : Decimal) (cs : List Char),
    d.Spells cs ∧ n.text = String.ofList (signed negative cs) := by
  cases n with
  | integer n => exact ⟨_, _, _, Decimal.spells_natAbs n, toString_int n⟩
  | float x =>
    obtain ⟨d, cs, hspells, htext, -⟩ := style.writeFinite_spells x
    exact ⟨_, d, cs, hspells, htext⟩

theorem trimText_text : trimText n.text = n.text := by
  obtain ⟨negative, d, cs, hspells, htext⟩ := n.exists_spells
  rw [htext, trimText_signed hspells]

theorem text_ne_word (word : String) (hword : word.toList.head?.all Char.isAlpha = true) :
    n.text ≠ word := by
  obtain ⟨negative, d, cs, hspells, htext⟩ := n.exists_spells
  rintro rfl
  rw [htext, String.toList_ofList] at hword
  exact signed_ne_word hspells negative hword rfl

theorem double?_text : double? n.text = some n.toDouble := by
  cases n with
  | integer n => exact double?_int n
  | float x => exact style.double?_writeFinite x

theorem integer?_text : integer? n.text = n.toInteger? := by
  cases n with
  | integer n => exact integer?_int n
  | float x => exact style.integer?_writeFinite x rfl

end Number

end Json

/-! ### Conversions -/

namespace PropertyValue

theorem toOption_expect {α : Type} (value : PropertyValue) (expected : String) (o : Option α) :
    (value.expect expected o).toOption = o := by
  cases o <;> rfl

variable (n : Json.Number)

/-- **A number is the same number as text.** -/
theorem number?_text : (text n.text).number? = (json (.number n)).number? := by
  rw [number?, number?, n.trimText_text, n.double?_text]

theorem wholeNumber?_text : (text n.text).wholeNumber? = (json (.number n)).wholeNumber? := by
  rw [wholeNumber?, wholeNumber?, n.trimText_text, n.integer?_text]

/-- The text of a number is no truth value. -/
theorem bool?_text : (text n.text).bool? = none := by
  simp [bool?, n.trimText_text, n.text_ne_word "true" rfl, n.text_ne_word "YES" rfl,
    n.text_ne_word "false" rfl, n.text_ne_word "NO" rfl]

/-- As it stands, a number is no truth value either, but for two of them. -/
theorem bool?_number_eq_none_iff :
    (json (.number n)).bool? = none ↔ n ≠ .integer 0 ∧ n ≠ .integer 1 := by
  cases n with
  | float x => simp [bool?, Json.Number.toInteger?]
  | integer i =>
    have hzero : fitsInt64 0 = true := by decide
    have hone : fitsInt64 1 = true := by decide
    simp only [bool?, Json.Number.toInteger?, ne_eq, Json.Number.integer.injEq]
    by_cases hi0 : i = 0
    · simp [hi0, hzero]
    · by_cases hi1 : i = 1
      · simp [hi1, hone]
      · split <;> simp_all

/-- The word for a truth value is that truth value, and no number. -/
theorem text_bool (b : Bool) : (text (Json.bool b).inserted).bool? = some b ∧
    (text (Json.bool b).inserted).number? = none ∧
    (text (Json.bool b).inserted).wholeNumber? = none := by
  cases b <;> decide +kernel

end PropertyValue

/-! ### Scalars -/

open PropertyValue

variable {v : Json}

/-- **A scalar is read like the text inserted for it**, as a number and as a whole
number always, as a truth value unless it is the number 0 or the number 1. Nothing
is lost in the text: it is read as the number or as the truth value that it is of. -/
theorem Json.scalar_reads_alike_iff (h : v.isScalar = true) :
    v.ReadsAlike asDouble ∧ v.ReadsAlike asInteger ∧
      (v.ReadsAlike asBool ↔ v ≠ .number (.integer 0) ∧ v ≠ .number (.integer 1)) ∧
      (∀ n, v = .number n → (PropertyValue.text v.inserted).asDouble = .ok n.toDouble) ∧
      ∀ b, v = .bool b → (PropertyValue.text v.inserted).asBool = .ok b := by
  simp only [ReadsAlike, asDouble, asInteger, asBool, toOption_expect]
  cases v with
  | number n =>
    rw [inserted_number, number?_text, wholeNumber?_text, bool?_text]
    refine ⟨rfl, rfl, by simpa using bool?_number_eq_none_iff n, ?_, nofun⟩
    rintro m ⟨⟩
    rfl
  | bool b =>
    obtain ⟨hbool, hnumber, hwhole⟩ := text_bool b
    rw [hbool, hnumber, hwhole]
    refine ⟨rfl, rfl, iff_of_true rfl ⟨nofun, nofun⟩, nofun, ?_⟩
    rintro c ⟨⟩
    rfl
  | _ => cases h

/-- The double a half. -/
def Json.half : Json := .number (.float ⟨false, 4602678819172646912, by decide⟩)

/-- A half is read alike from its text, as a truth value not at all. -/
theorem Json.half_reads_alike : half.isScalar = true ∧ half.inserted = "0.5" ∧
    half.ReadsAlike asDouble ∧ half.ReadsAlike asInteger ∧ half.ReadsAlike asBool := by
  obtain ⟨hdouble, hinteger, hbool, -⟩ := scalar_reads_alike_iff (v := half) rfl
  exact ⟨rfl, by decide +kernel, hdouble, hinteger, hbool.2 ⟨by simp [half], by simp [half]⟩⟩

/-- The number 1 is true as it stands and refused as text. -/
theorem Json.one_reads_apart : isScalar (.number (.integer 1)) = true ∧
    (PropertyValue.json (.number (.integer 1))).asBool = .ok true ∧
    (PropertyValue.text (inserted (.number (.integer 1)))).asBool =
      .error (.typeMismatch "a boolean" "text \"1\"") ∧
    ¬ ReadsAlike (.number (.integer 1)) asBool := by
  have hjson : (PropertyValue.json (.number (.integer 1))).asBool = .ok true := by decide +kernel
  have htext : (PropertyValue.text (inserted (.number (.integer 1)))).asBool =
      .error (.typeMismatch "a boolean" "text \"1\"") := by decide +kernel
  refine ⟨rfl, hjson, htext, fun halike => ?_⟩
  rw [ReadsAlike, hjson, htext] at halike
  cases halike

end ViewMarkup
