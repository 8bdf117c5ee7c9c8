/-
# How decimals are spelled

A decimal is spelled by digits, a point with the digits of the fraction after it,
and an exponent, the last two where there are such. What is read is what is spelled,
and a spelling starts with a digit and has no white space in it.

Key definitions: `Decimal.Spells`.
Key theorems: `digitsValue_toDigits`, `spanDigits_append`, `Decimal.Spells.decimal?_eq`.
-/
import Mathlib.Data.List.TakeWhile
import ViewMarkup.Numeric.Reading
import ViewMarkup.Proofs.Text.Blank

namespace ViewMarkup

-- Powers are the core library's, whatever else is in scope.
attribute [local instance (high)] instPowNat

/-! ### The value of digits -/

theorem digitsValue_eq_ofDigitChars (cs : List Char) : digitsValue cs = Nat.ofDigitChars 10 cs 0 := by
  simp only [digitsValue, Nat.mul_comm _ 10]
  rfl

theorem digitsValue_toDigits (n : Nat) : digitsValue (Nat.toDigits 10 n) = n := by
  rw [digitsValue_eq_ofDigitChars, Nat.ofDigitChars_ten_toDigits]

theorem digitsValue_append_zeros (cs : List Char) (n : Nat) :
    digitsValue (cs ++ List.replicate n '0') = digitsValue cs * 10 ^ n := by
  rw [digitsValue_eq_ofDigitChars, Nat.ofDigitChars_append, Nat.ofDigitChars_replicate_zero,
    ← digitsValue_eq_ofDigitChars, Nat.mul_comm]

theorem digitsValue_zeros_append (n : Nat) (cs : List Char) :
    digitsValue (List.replicate n '0' ++ cs) = digitsValue cs := by
  rw [digitsValue_eq_ofDigitChars, Nat.ofDigitChars_append, Nat.ofDigitChars_replicate_zero,
    Nat.mul_zero, ← digitsValue_eq_ofDigitChars]

theorem isDigit_of_mem_toDigits {n : Nat} : ∀ c ∈ Nat.toDigits 10 n, c.isDigit = true :=
  fun _ hc => Nat.isDigit_of_mem_toDigits (by decide) (by decide) hc

/-! ### The parts of a spelling -/

variable {digits fraction rest cs : List Char} {e : Int}

theorem spanDigits_append (hdigits : ∀ c ∈ digits, c.isDigit = true)
    (hrest : ∀ c ∈ rest.head?, c.isDigit = false) : spanDigits (digits ++ rest) = (digits, rest) := by
  have hnone : rest.takeWhile Char.isDigit = [] ∧ rest.dropWhile Char.isDigit = rest := by
    cases rest with
    | nil => exact ⟨rfl, rfl⟩
    | cons c rest =>
      have hc : ¬ c.isDigit = true := Bool.eq_false_iff.1 (hrest c rfl)
      exact ⟨List.takeWhile_cons_of_neg hc, List.dropWhile_cons_of_neg hc⟩
  rw [spanDigits, List.takeWhile_append_of_pos hdigits, List.dropWhile_append_of_pos hdigits,
    hnone.1, hnone.2, List.append_nil]

theorem spanSign_cases (cs : List Char) :
    cs = (spanSign cs).2 ∨ cs = '-' :: (spanSign cs).2 ∨ cs = '+' :: (spanSign cs).2 := by
  unfold spanSign
  split
  · exact .inr (.inl rfl)
  · exact .inr (.inr rfl)
  · exact .inl rfl

/-- An exponent that is not left out is a letter and digits, with a sign between
them or none. -/
theorem exponent?_cons {c : Char} (h : exponent? (c :: cs) = some e) :
    (c = 'e' ∨ c = 'E') ∧ ∀ d ∈ (spanSign cs).2, d.isDigit = true := by
  simp only [exponent?] at h
  split at h
  · rename_i hcs
    simp only [Bool.and_eq_true, Bool.or_eq_true, decide_eq_true_eq, List.all_eq_true] at hcs
    exact ⟨hcs.1.1, hcs.2⟩
  · cases h

theorem head?_of_exponent? (h : exponent? rest = some e) :
    ∀ c ∈ rest.head?, c.isDigit = false ∧ c ≠ '.' := by
  intro c hc
  cases rest with
  | nil => cases hc
  | cons d rest =>
    obtain rfl := Option.some.inj hc
    rcases (exponent?_cons h).1 with rfl | rfl <;> decide

theorem not_isBlank_of_exponent? (h : exponent? rest = some e) :
    ∀ c ∈ rest, isBlank c = false := by
  cases rest with
  | nil => exact fun c hc => nomatch hc
  | cons d rest =>
    obtain ⟨hd, hdigits⟩ := exponent?_cons h
    have hblank : ∀ c ∈ (spanSign rest).2, isBlank c = false :=
      fun c hc => not_isBlank_of_isDigit (hdigits c hc)
    refine List.forall_mem_cons.2 ⟨by rcases hd with rfl | rfl <;> decide, ?_⟩
    rcases spanSign_cases rest with hrest | hrest | hrest <;> rw [hrest]
    · exact hblank
    · exact List.forall_mem_cons.2 ⟨by decide, hblank⟩
    · exact List.forall_mem_cons.2 ⟨by decide, hblank⟩

theorem exponent?_plus (n : Nat) : exponent? ('e' :: '+' :: Nat.toDigits 10 n) = some n := by
  have hall : (Nat.toDigits 10 n).all Char.isDigit = true :=
    List.all_eq_true.2 isDigit_of_mem_toDigits
  simp [exponent?, spanSign, hall, digitsValue_toDigits, Nat.toDigits_ne_nil]

theorem exponent?_minus (n : Nat) : exponent? ('e' :: '-' :: Nat.toDigits 10 n) = some (-(n : Int)) := by
  have hall : (Nat.toDigits 10 n).all Char.isDigit = true :=
    List.all_eq_true.2 isDigit_of_mem_toDigits
  simp [exponent?, spanSign, hall, digitsValue_toDigits, Nat.toDigits_ne_nil]

/-! ### Spellings -/

/-- The characters spell the decimal: digits with or without a point among them,
and an exponent unless it is left out. -/
inductive Decimal.Spells : Decimal → List Char → Prop
  | whole {digits rest : List Char} {e : Int} (hne : digits ≠ [])
    (hdigits : ∀ c ∈ digits, c.isDigit = true) (he : exponent? rest = some e) :
    Spells ⟨digitsValue digits, e⟩ (digits ++ rest)
  | point {digits fraction rest : List Char} {e : Int} (hne : digits ≠ [])
    (hdigits : ∀ c ∈ digits, c.isDigit = true) (hfraction : ∀ c ∈ fraction, c.isDigit = true)
    (he : exponent? rest = some e) :
    Spells ⟨digitsValue (digits ++ fraction), e - fraction.length⟩
      (digits ++ '.' :: (fraction ++ rest))

namespace Decimal.Spells

variable {d : Decimal}

/-- **What is spelled is read.** -/
theorem decimal?_eq (h : d.Spells cs) : decimal? cs = some d := by
  cases h with
  | @whole digits rest e hne hdigits he =>
    have hhead := head?_of_exponent? he
    have hspan := spanDigits_append hdigits fun c hc => (hhead c hc).1
    have hempty : digits.isEmpty = false := List.isEmpty_eq_false_iff.2 hne
    unfold decimal?
    rw [hspan]
    cases rest with
    | nil => simp [hempty, he]
    | cons c rest =>
      have hc : c ≠ '.' := (hhead c rfl).2
      simp [hempty, he, hc]
  | @point digits fraction rest e hne hdigits hfraction he =>
    have hspan : spanDigits (digits ++ '.' :: (fraction ++ rest)) = (digits, '.' :: (fraction ++ rest)) :=
      spanDigits_append hdigits fun c hc => by
        obtain rfl := Option.some.inj hc
        rfl
    have hspan' := spanDigits_append hfraction fun c hc => (head?_of_exponent? he c hc).1
    have hempty : digits.isEmpty = false := List.isEmpty_eq_false_iff.2 hne
    simp [decimal?, hspan, hspan', hempty, he]

theorem first (h : d.Spells cs) : ∃ c rest, cs = c :: rest ∧ c.isDigit = true := by
  have hfirst {digits rest : List Char} (hne : digits ≠ [])
      (hdigits : ∀ c ∈ digits, c.isDigit = true) :
      ∃ c rest', digits ++ rest = c :: rest' ∧ c.isDigit = true := by
    obtain ⟨c, digits, rfl⟩ := List.exists_cons_of_ne_nil hne
    exact ⟨c, digits ++ rest, rfl, hdigits c List.mem_cons_self⟩
  cases h with
  | whole hne hdigits he => exact hfirst hne hdigits
  | point hne hdigits hfraction he => exact hfirst hne hdigits

theorem not_isBlank (h : d.Spells cs) : ∀ c ∈ cs, isBlank c = false := by
  cases h with
  | whole hne hdigits he =>
    exact List.forall_mem_append.2
      ⟨fun c hc => not_isBlank_of_isDigit (hdigits c hc), not_isBlank_of_exponent? he⟩
  | point hne hdigits hfraction he =>
    refine List.forall_mem_append.2 ⟨fun c hc => not_isBlank_of_isDigit (hdigits c hc), ?_⟩
    refine List.forall_mem_cons.2 ⟨by decide, List.forall_mem_append.2 ⟨?_, ?_⟩⟩
    · exact fun c hc => not_isBlank_of_isDigit (hfraction c hc)
    · exact not_isBlank_of_exponent? he

/-- Digits alone spell a whole number. -/
theorem of_digits (hne : digits ≠ []) (hdigits : ∀ c ∈ digits, c.isDigit = true) :
    Spells ⟨digitsValue digits, 0⟩ digits := by
  have hspells : Spells ⟨digitsValue digits, 0⟩ (digits ++ []) := whole hne hdigits rfl
  rwa [List.append_nil] at hspells

theorem of_fraction (hne : digits ≠ []) (hdigits : ∀ c ∈ digits, c.isDigit = true)
    (hfraction : ∀ c ∈ fraction, c.isDigit = true) :
    Spells ⟨digitsValue (digits ++ fraction), -fraction.length⟩ (digits ++ '.' :: fraction) := by
  have hspells : Spells ⟨digitsValue (digits ++ fraction), 0 - fraction.length⟩
      (digits ++ '.' :: (fraction ++ [])) := point hne hdigits hfraction rfl
  rwa [List.append_nil, Int.zero_sub] at hspells

end Decimal.Spells

end ViewMarkup
