/-
# Trimming

Letters and digits are no white space, what has none is left alone by trimming, and
trimming twice is trimming once.

Key theorems: `not_isBlank_of_isAlphanum`, `trim_eq_self`, `trim_trim`.
-/
import Mathlib.Data.List.DropRight
import ViewMarkup.Proofs.Text.Ascii
import ViewMarkup.Text.Blank

namespace ViewMarkup

theorem not_isBlank_of_isAlphanum {c : Char} (h : c.isAlphanum = true) : isBlank c = false := by
  have hbounds := toNat_of_isAlphanum h
  simp only [isBlank, Bool.or_eq_false_iff, Bool.and_eq_false_imp, decide_eq_true_eq,
    decide_eq_false_iff_not, not_le, beq_eq_false_iff_ne, ne_eq]
  omega

theorem not_isBlank_of_isDigit {c : Char} (h : c.isDigit = true) : isBlank c = false :=
  not_isBlank_of_isAlphanum (Bool.or_eq_true_iff.2 (.inr h))

theorem trim_eq_self {cs : List Char} (h : ∀ c ∈ cs, isBlank c = false) : trim cs = cs := by
  have hdrop : ∀ {ds : List Char}, (∀ c ∈ ds, isBlank c = false) → ds.dropWhile isBlank = ds := by
    intro ds hds
    cases ds with
    | nil => rfl
    | cons d ds =>
      rw [List.dropWhile_cons_of_neg]
      rw [hds d List.mem_cons_self]
      exact Bool.false_ne_true
  rw [trim, trimEnd, trimStart, hdrop h, hdrop fun c hc => h c (List.mem_reverse.1 hc),
    List.reverse_reverse]

/-- What is trimmed starts with no blank. -/
theorem trimStart_trim (cs : List Char) : trimStart (trim cs) = trim cs := by
  refine List.dropWhile_eq_self_iff.2 fun hlength => ?_
  have hstart : trim cs <+: trimStart cs := List.rdropWhile_prefix isBlank _
  have hfirst := List.dropWhile_get_zero_not isBlank cs (hlength.trans_le hstart.length_le)
  rwa [hstart.getElem hlength]

theorem trim_trim (cs : List Char) : trim (trim cs) = trim cs := by
  have hstop : trimEnd (trim cs) = trim cs := List.rdropWhile_idempotent isBlank (trimStart cs)
  rw [trim, trimStart_trim, hstop]

end ViewMarkup
