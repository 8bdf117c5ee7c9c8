/-
# Letters and digits of ASCII

Where they stand among the characters, by their code points.

Key theorems: `toNat_of_isDigit`, `toNat_of_isAlpha`, `toNat_of_isAlphanum`,
`not_isDigit_of_isAlpha`, `toLower_of_isDigit`.
-/

namespace ViewMarkup

variable {c : Char}

theorem toNat_of_isDigit (h : c.isDigit = true) : 48 ≤ c.toNat ∧ c.toNat ≤ 57 :=
  (Bool.and_eq_true_iff.1 h).imp of_decide_eq_true of_decide_eq_true

theorem toNat_of_isAlpha (h : c.isAlpha = true) :
    (65 ≤ c.toNat ∧ c.toNat ≤ 90) ∨ 97 ≤ c.toNat ∧ c.toNat ≤ 122 := by
  rcases Bool.or_eq_true_iff.1 h with hupper | hlower
  · exact Or.inl (of_decide_eq_true hupper)
  · exact Or.inr ((Bool.and_eq_true_iff.1 hlower).imp of_decide_eq_true of_decide_eq_true)

theorem toNat_of_isAlphanum (h : c.isAlphanum = true) : 48 ≤ c.toNat ∧ c.toNat ≤ 122 := by
  rcases Bool.or_eq_true_iff.1 h with halpha | hdigit
  · have hbounds := toNat_of_isAlpha halpha
    omega
  · have hbounds := toNat_of_isDigit hdigit
    omega

theorem not_isDigit_of_isAlpha (h : c.isAlpha = true) : c.isDigit = false := by
  refine Bool.eq_false_iff.2 fun hdigit => ?_
  have halpha := toNat_of_isAlpha h
  have hbounds := toNat_of_isDigit hdigit
  omega

theorem toLower_of_isDigit (h : c.isDigit = true) : c.toLower = c := by
  refine dif_neg fun hupper => ?_
  have hbounds := toNat_of_isDigit h
  have hletter : 65 ≤ c.toNat := hupper.1
  omega

end ViewMarkup
