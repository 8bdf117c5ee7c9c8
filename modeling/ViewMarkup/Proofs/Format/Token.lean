/-
# How tokens are spelled

A sign is always written the same, a name stands for its own text, and a number
for the double nearest to its digits. What is taken at the front of a text
spells the token it is taken for.

Key definitions: `IsDigits`, `Token.Spells`.
Key theorems: `Token.number_spells`, `Token.front?_spells`.
-/
import ViewMarkup.Format.Token
import ViewMarkup.Proofs.Numeric.Digits
import ViewMarkup.Proofs.Text.Span

namespace ViewMarkup

/-! ### Spellings -/

/-- Decimal digits, at least one. -/
def IsDigits (cs : List Char) : Prop := cs ≠ [] ∧ ∀ c ∈ cs, c.isDigit = true

namespace Token

/-- What stands for a token that is always written the same. -/
def sign? : Token → Option String
  | horizontal => some "H:"
  | vertical => some "V:"
  | pipe => some "|"
  | dash => some "-"
  | bracketOpen => some "["
  | bracketClose => some "]"
  | parenOpen => some "("
  | parenClose => some ")"
  | comma => some ","
  | priorityMark => some "@"
  | equal => some "=="
  | atLeast => some ">="
  | atMost => some "<="
  | name _ | number _ => none

/-- The characters spell the token. -/
inductive Spells : Token → List Char → Prop
  | sign {t : Token} {text : String} (h : t.sign? = some text) : Spells t text.toList
  | name {c : Char} {cs : List Char} (hc : isNameStart c = true)
    (hcs : ∀ d ∈ cs, isNameChar d = true) : Spells (.name (String.ofList (c :: cs))) (c :: cs)
  | whole {digits : List Char} (h : IsDigits digits) :
    Spells (.number (.ofDecimal .double false ⟨digitsValue digits, 0⟩)) digits
  | decimal {digits fraction : List Char} (h : IsDigits digits) (hf : IsDigits fraction) :
    Spells (.number (.ofDecimal .double false ⟨digitsValue (digits ++ fraction), -fraction.length⟩))
      (digits ++ '.' :: fraction)

theorem isNameChar_of_isNameStart {c : Char} (h : isNameStart c = true) : isNameChar c = true := by
  rw [isNameStart, Bool.or_eq_true] at h
  rw [isNameChar, Char.isAlphanum, Bool.or_eq_true, Bool.or_eq_true]
  exact h.imp_left Or.inl

theorem isNameChar_of_isDigit {c : Char} (h : c.isDigit = true) : isNameChar c = true := by
  rw [isNameChar, Char.isAlphanum, h, Bool.or_true, Bool.true_or]

theorem toNat_le_of_isNameChar {c : Char} (h : isNameChar c = true) : c.toNat ≤ 127 := by
  rw [isNameChar, Bool.or_eq_true, decide_eq_true_iff] at h
  rcases h with h | rfl
  · exact (toNat_of_isAlphanum h).2.trans (by decide)
  · decide

theorem toNat_le_of_isBlank {c : Char} (h : isBlank c = true) : c.toNat ≤ 127 := by
  simp only [isBlank, Bool.or_eq_true, decide_eq_true_iff] at h
  rcases h with ((rfl | rfl) | rfl) | rfl <;> decide

theorem Spells.ascii {t : Token} {cs : List Char} (h : t.Spells cs) : ∀ c ∈ cs, c.toNat ≤ 127 := by
  have hdigit {c : Char} (hc : c.isDigit = true) : c.toNat ≤ 127 :=
    toNat_le_of_isNameChar (isNameChar_of_isDigit hc)
  cases h with
  | @sign _ text h =>
    have hall : text.toList.all (fun c => decide (c.toNat ≤ 127)) = true := by
      cases t <;> cases h <;> decide
    exact fun c hc => of_decide_eq_true (List.all_eq_true.1 hall c hc)
  | name hc hcs =>
    exact List.forall_mem_cons.2 ⟨toNat_le_of_isNameChar (isNameChar_of_isNameStart hc),
      fun d hd => toNat_le_of_isNameChar (hcs d hd)⟩
  | whole h => exact fun c hc => hdigit (h.2 c hc)
  | decimal h hf =>
    refine List.forall_mem_append.2 ⟨fun c hc => hdigit (h.2 c hc), ?_⟩
    exact List.forall_mem_cons.2 ⟨by decide, fun c hc => hdigit (hf.2 c hc)⟩

/-! ### Numbers -/

theorem numberValue_whole {digits : List Char} (h : IsDigits digits) :
    numberValue digits = .ofDecimal .double false ⟨digitsValue digits, 0⟩ := by
  rw [numberValue, (Decimal.Spells.of_digits h.1 h.2).decimal?_eq]

theorem numberValue_decimal {digits fraction : List Char} (h : IsDigits digits)
    (hf : IsDigits fraction) : numberValue (digits ++ '.' :: fraction) =
      .ofDecimal .double false ⟨digitsValue (digits ++ fraction), -fraction.length⟩ := by
  rw [numberValue, (Decimal.Spells.of_fraction h.1 h.2 hf.2).decimal?_eq]

/-- What follows the first digit of a number is a run of digits, and a point with
another run after it if there is one. -/
theorem numberTail_cases (cs : List Char) :
    ∃ ds, (∀ d ∈ ds, d.isDigit = true) ∧
      ((∃ rest, cs = ds ++ rest ∧ numberTail cs = ds.length) ∨
        ∃ fs rest, IsDigits fs ∧ cs = (ds ++ '.' :: fs) ++ rest ∧
          numberTail cs = (ds ++ '.' :: fs).length) := by
  obtain ⟨ds, rest, hcs, hds, htake⟩ : ∃ ds rest, cs = ds ++ rest ∧
      (∀ d ∈ ds, d.isDigit = true) ∧ cs.takeWhile Char.isDigit = ds :=
    ⟨_, cs.dropWhile Char.isDigit, List.takeWhile_append_dropWhile.symm,
      fun d => List.mem_takeWhile_imp, rfl⟩
  have hdrop : cs.drop ds.length = rest := by
    rw [hcs, List.drop_left]
  refine ⟨ds, hds, ?_⟩
  unfold numberTail
  simp only [htake, hdrop]
  split
  · rename_i more
    have hmore : more = more.takeWhile Char.isDigit ++ more.dropWhile Char.isDigit :=
      List.takeWhile_append_dropWhile.symm
    split
    · exact .inl ⟨_, hcs, rfl⟩
    · rename_i hzero
      refine .inr ⟨more.takeWhile Char.isDigit, more.dropWhile Char.isDigit, ⟨?_, ?_⟩, ?_, ?_⟩
      · exact fun hnil => hzero (by rw [hnil, List.length_nil])
      · exact fun d => List.mem_takeWhile_imp
      · rw [List.append_assoc, List.cons_append, ← hmore]
        exact hcs
      · rw [List.length_append, List.length_cons, Nat.add_assoc, Nat.add_comm 1]
  · exact .inl ⟨_, hcs, rfl⟩

theorem number_spells {c : Char} (hc : c.isDigit = true) (cs : List Char) :
    Spells (.number (numberValue (c :: cs.take (numberTail cs)))) (c :: cs.take (numberTail cs)) ∧
      numberTail cs ≤ cs.length := by
  obtain ⟨ds, hds, ⟨rest, rfl, hlength⟩ | ⟨fs, rest, hfs, rfl, hlength⟩⟩ := numberTail_cases cs
  all_goals
    have hwhole : IsDigits (c :: ds) := ⟨List.cons_ne_nil _ _, List.forall_mem_cons.2 ⟨hc, hds⟩⟩
    rw [hlength, List.take_left]
    refine ⟨?_, (List.prefix_append _ _).length_le⟩
  · rw [numberValue_whole hwhole]
    exact .whole hwhole
  · rw [← List.cons_append, numberValue_decimal hwhole hfs]
    exact .decimal hwhole hfs

/-! ### The front of a text -/

theorem Spells.of_sign {t : Token} {cs : List Char} (h : t.sign? = some (String.ofList cs)) :
    Spells t cs := by
  have h := Spells.sign h
  rwa [String.toList_ofList] at h

/-- A sign of two characters. -/
theorem sign_spells {t : Token} {c d : Char} {cs : List Char} (hd : cs.head? = some d)
    (ht : t.sign? = some (String.ofList [c, d])) :
    Spells t (c :: cs.take 1) ∧ 1 ≤ cs.length := by
  obtain ⟨rest, rfl⟩ := List.head?_eq_some_iff.1 hd
  exact ⟨.of_sign ht, Nat.succ_le_succ (Nat.zero_le _)⟩

theorem front?_spells {c : Char} {cs : List Char} {t : Token} {more : Nat}
    (h : front? c cs = some (t, more)) : Spells t (c :: cs.take more) ∧ more ≤ cs.length := by
  have hpair {t t' : Token} {c d : Char} (ht : t.sign? = some (String.ofList [c, d]))
      (h : (if cs.head? = some d then some (t, 1) else none) = some (t', more)) :
      Spells t' (c :: cs.take more) ∧ more ≤ cs.length := by
    rcases ite_eq_iff.1 h with ⟨hd, heq⟩ | ⟨-, h⟩
    · cases heq
      exact sign_spells hd ht
    · cases h
  unfold front? at h
  iterate 8
    rcases ite_eq_iff.1 h with ⟨rfl, heq⟩ | ⟨-, h⟩
    · cases heq
      exact ⟨.of_sign rfl, Nat.zero_le _⟩
  iterate 3
    rcases ite_eq_iff.1 h with ⟨rfl, heq⟩ | ⟨-, h⟩
    · exact hpair rfl heq
  rcases ite_eq_iff.1 h with ⟨hdigit, heq⟩ | ⟨-, h⟩
  · cases heq
    exact number_spells hdigit cs
  iterate 2
    rcases ite_eq_iff.1 h with ⟨hc, heq⟩ | ⟨-, h⟩
    · rw [Bool.and_eq_true, decide_eq_true_iff, decide_eq_true_iff] at hc
      obtain ⟨rfl, hd⟩ := hc
      cases heq
      exact sign_spells hd rfl
  rcases ite_eq_iff.1 h with ⟨hstart, heq⟩ | ⟨-, h⟩
  · cases heq
    have htake : cs.take (cs.takeWhile isNameChar).length = cs.takeWhile isNameChar :=
      (List.prefix_iff_eq_take.1 (List.takeWhile_prefix _)).symm
    rw [htake]
    exact ⟨.name hstart fun d => List.mem_takeWhile_imp, (List.takeWhile_prefix _).length_le⟩
  · cases h

end Token

end ViewMarkup
