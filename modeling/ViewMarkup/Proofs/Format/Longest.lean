/-
# The longest token

What spells a token spells no other one, and holds no blank. Among the tokens
that a text starts with, `front?` takes the longest, and it takes none only if
the text starts with none.

Key definitions: `Token.Longest`.
Key theorems: `Spells.unique`, `Spells.no_blank`, `front?_eq_none_iff`,
`front?_eq_some_iff`.
-/
import ViewMarkup.Proofs.Format.Token

namespace ViewMarkup

namespace Token

/-- The part spells the token, and no longer part of the text from there on
spells a token. -/
structure Longest (t : Token) (part rest : List Char) : Prop where
  spells : t.Spells part
  length_le : ∀ {t' : Token} {part' : List Char}, t'.Spells part' → part' <+: part ++ rest →
    part'.length ≤ part.length

/-! ### What is taken at the front -/

theorem front?_sign {t : Token} {text : String} (h : t.sign? = some text) :
    ∃ c cs, text.toList = c :: cs ∧ ∀ rest, front? c (cs ++ rest) = some (t, cs.length) := by
  cases t <;> cases h <;> exact ⟨_, _, rfl, fun rest => rfl⟩

/-- The characters that signs start with, but for those that are letters too. -/
def marks : List Char := ['|', '-', '[', ']', '(', ')', ',', '@', '=', '>', '<']

theorem front?_of_not_mark {c : Char} (h : c ∉ marks) (cs : List Char) :
    front? c cs =
      if c.isDigit then
        some (number (numberValue (c :: cs.take (numberTail cs))), numberTail cs)
      else if c = 'H' && cs.head? = some ':' then some (horizontal, 1)
      else if c = 'V' && cs.head? = some ':' then some (vertical, 1)
      else if isNameStart c then
        some (name (String.ofList (c :: cs.takeWhile isNameChar)),
          (cs.takeWhile isNameChar).length)
      else none := by
  simp only [marks, List.mem_cons, List.not_mem_nil, or_false, not_or] at h
  simp only [front?, h, if_false]

theorem not_mark_of_isDigit {c : Char} (h : c.isDigit = true) : c ∉ marks := by
  intro hmem
  have hall : marks.all (fun m => !m.isDigit) = true := by decide
  have hc := List.all_eq_true.1 hall c hmem
  rw [h] at hc
  cases hc

theorem not_mark_of_isNameStart {c : Char} (h : isNameStart c = true) : c ∉ marks := by
  intro hmem
  have hall : marks.all (fun m => !isNameStart m) = true := by decide
  have hc := List.all_eq_true.1 hall c hmem
  rw [h] at hc
  cases hc

theorem not_isDigit_of_isNameStart {c : Char} (h : isNameStart c = true) : c.isDigit = false := by
  rw [isNameStart, Bool.or_eq_true, decide_eq_true_iff] at h
  rcases h with h | rfl
  · exact not_isDigit_of_isAlpha h
  · decide

theorem le_numberTail_of_digits {ds : List Char} (h : ∀ d ∈ ds, d.isDigit = true)
    (rest : List Char) : ds.length ≤ numberTail (ds ++ rest) := by
  have htake : ds.length ≤ ((ds ++ rest).takeWhile Char.isDigit).length := by
    rw [List.takeWhile_append_of_pos h, List.length_append]
    exact Nat.le_add_right _ _
  unfold numberTail
  simp only
  split
  · split <;> omega
  · exact htake

theorem le_numberTail_of_decimal {ds fs : List Char} (h : ∀ d ∈ ds, d.isDigit = true)
    (hf : IsDigits fs) (rest : List Char) :
    (ds ++ '.' :: fs).length ≤ numberTail (ds ++ '.' :: fs ++ rest) := by
  have htake : (ds ++ '.' :: (fs ++ rest)).takeWhile Char.isDigit = ds := by
    rw [List.takeWhile_append_of_pos h, List.takeWhile_cons_of_neg (by decide), List.append_nil]
  have hfraction : fs.length ≤ ((fs ++ rest).takeWhile Char.isDigit).length := by
    rw [List.takeWhile_append_of_pos hf.2, List.length_append]
    exact Nat.le_add_right _ _
  have hpos : 0 < fs.length := List.length_pos_iff.2 hf.1
  rw [List.append_assoc, List.cons_append]
  simp only [numberTail, htake, List.drop_left, List.length_append, List.length_cons]
  split <;> omega

theorem front?_digit {c : Char} (hc : c.isDigit = true) (cs : List Char) :
    front? c cs =
      some (number (numberValue (c :: cs.take (numberTail cs))), numberTail cs) := by
  rw [front?_of_not_mark (not_mark_of_isDigit hc), if_pos hc]

/-- Of a text that starts with the spelling of a token, at least that much is
taken as a token; if nothing follows the spelling, it is the token itself. -/
theorem Spells.front?_append {t : Token} {c : Char} {cs : List Char} (h : t.Spells (c :: cs))
    (rest : List Char) :
    ∃ t' more, front? c (cs ++ rest) = some (t', more) ∧ cs.length ≤ more ∧
      (rest = [] → t' = t) := by
  generalize hpart : c :: cs = part at h
  cases h with
  | sign h =>
    obtain ⟨d, ds, htext, hfront⟩ := front?_sign h
    obtain ⟨rfl, rfl⟩ := List.cons.inj (hpart.trans htext)
    exact ⟨_, _, hfront rest, le_rfl, fun _ => rfl⟩
  | name hc hcs =>
    obtain ⟨rfl, rfl⟩ := List.cons.inj hpart
    -- a colon belongs to no name, so it can only follow the whole of this one
    have hcolon : (cs ++ rest).head? = some ':' → cs = [] ∧ rest ≠ [] := by
      intro hhead
      cases cs with
      | nil => exact ⟨rfl, fun hrest => by rw [hrest] at hhead; cases hhead⟩
      | cons d ds =>
        obtain rfl := Option.some.inj hhead
        exact absurd (hcs ':' List.mem_cons_self) (by decide)
    rw [front?_of_not_mark (not_mark_of_isNameStart hc),
      if_neg (by rw [not_isDigit_of_isNameStart hc]; exact Bool.false_ne_true)]
    split
    · rename_i hh
      obtain ⟨rfl, hrest⟩ := hcolon (of_decide_eq_true (Bool.and_eq_true_iff.1 hh).2)
      exact ⟨_, _, rfl, Nat.zero_le _, fun hnil => absurd hnil hrest⟩
    split
    · rename_i hv
      obtain ⟨rfl, hrest⟩ := hcolon (of_decide_eq_true (Bool.and_eq_true_iff.1 hv).2)
      exact ⟨_, _, rfl, Nat.zero_le _, fun hnil => absurd hnil hrest⟩
    refine ⟨_, _, rfl, ?_, ?_⟩
    · rw [List.takeWhile_append_of_pos hcs, List.length_append]
      exact Nat.le_add_right _ _
    · rintro rfl
      rw [List.append_nil, List.takeWhile_eq_self_iff.2 hcs]
  | whole h =>
    subst hpart
    obtain ⟨hc, hcs⟩ := List.forall_mem_cons.1 h.2
    refine ⟨_, _, front?_digit hc _, le_numberTail_of_digits hcs rest, ?_⟩
    rintro rfl
    rw [List.append_nil, List.take_of_length_le (by simpa using le_numberTail_of_digits hcs []),
      numberValue_whole h]
  | @decimal digits fraction h hf =>
    obtain ⟨d, ds, rfl⟩ := List.exists_cons_of_ne_nil h.1
    rw [List.cons_append] at hpart
    obtain ⟨rfl, rfl⟩ := List.cons.inj hpart
    obtain ⟨hc, hds⟩ := List.forall_mem_cons.1 h.2
    refine ⟨_, _, front?_digit hc _, le_numberTail_of_decimal hds hf rest, ?_⟩
    rintro rfl
    rw [List.append_nil, List.take_of_length_le (by simpa using le_numberTail_of_decimal hds hf []),
      ← List.cons_append, numberValue_decimal h hf]

/-! ### The longest token -/

theorem Spells.ne_nil {t : Token} {part : List Char} (h : t.Spells part) : part ≠ [] := by
  cases h with
  | sign h =>
    obtain ⟨c, cs, htext, -⟩ := front?_sign h
    rw [htext]
    exact List.cons_ne_nil _ _
  | name hc hcs => exact List.cons_ne_nil _ _
  | whole h => exact h.1
  | decimal h hf => exact List.append_ne_nil_of_left_ne_nil h.1 _

/-- A text spells one token at most. -/
theorem Spells.unique {t t' : Token} {part : List Char} (h : t.Spells part)
    (h' : t'.Spells part) : t = t' := by
  obtain ⟨c, cs, rfl⟩ := List.exists_cons_of_ne_nil h.ne_nil
  obtain ⟨u, more, hfront, -, hu⟩ := h.front?_append []
  obtain ⟨u', more', hfront', -, hu'⟩ := h'.front?_append []
  rw [hfront] at hfront'
  cases hfront'
  exact (hu rfl).symm.trans (hu' rfl)

theorem not_isBlank_of_isNameChar {c : Char} (h : isNameChar c = true) : isBlank c = false := by
  refine Bool.eq_false_iff.2 fun hblank => ?_
  simp only [isBlank, Bool.or_eq_true, decide_eq_true_iff] at hblank
  rcases hblank with ((rfl | rfl) | rfl) | rfl <;> cases h

theorem not_isBlank_of_isDigit {c : Char} (h : c.isDigit = true) : isBlank c = false :=
  not_isBlank_of_isNameChar (isNameChar_of_isDigit h)

theorem Spells.no_blank {t : Token} {part : List Char} (h : t.Spells part) :
    ∀ c ∈ part, isBlank c = false := by
  cases h with
  | @sign _ text h =>
    have hall : text.toList.all (fun c => !isBlank c) = true := by
      cases t <;> cases h <;> decide
    exact fun c hc => by simpa using List.all_eq_true.1 hall c hc
  | name hc hcs =>
    exact List.forall_mem_cons.2 ⟨not_isBlank_of_isNameChar (isNameChar_of_isNameStart hc),
      fun d hd => not_isBlank_of_isNameChar (hcs d hd)⟩
  | whole h => exact fun c hc => not_isBlank_of_isDigit (h.2 c hc)
  | decimal h hf =>
    refine List.forall_mem_append.2 ⟨fun c hc => not_isBlank_of_isDigit (h.2 c hc), ?_⟩
    exact List.forall_mem_cons.2 ⟨by decide, fun c hc => not_isBlank_of_isDigit (hf.2 c hc)⟩

theorem Spells.le_front? {t : Token} {part : List Char} {c : Char} {cs : List Char}
    (h : t.Spells part) (hstarts : part <+: c :: cs) :
    ∃ t' more, front? c cs = some (t', more) ∧ part.length ≤ more + 1 := by
  obtain ⟨rest, hrest⟩ := hstarts
  obtain ⟨d, ds, rfl⟩ := List.exists_cons_of_ne_nil h.ne_nil
  obtain ⟨rfl, rfl⟩ := List.cons.inj hrest
  obtain ⟨t', more, hfront, hmore, -⟩ := h.front?_append rest
  exact ⟨t', more, hfront, Nat.succ_le_succ hmore⟩

theorem front?_eq_none_iff {c : Char} {cs : List Char} :
    front? c cs = none ↔ ∀ t part, Spells t part → ¬ part <+: c :: cs := by
  constructor
  · intro hnone t part hspells hstarts
    obtain ⟨t', more, hsome, -⟩ := hspells.le_front? hstarts
    rw [hnone] at hsome
    cases hsome
  · intro h
    refine Option.eq_none_iff_forall_not_mem.2 fun p hp => ?_
    obtain ⟨hspells, -⟩ := front?_spells hp
    exact h _ _ hspells ((List.prefix_cons_inj c).2 (List.take_prefix _ _))

theorem front?_longest {c : Char} {cs : List Char} {t : Token} {more : Nat}
    (h : front? c cs = some (t, more)) : Longest t (c :: cs.take more) (cs.drop more) := by
  obtain ⟨hspells, hmore⟩ := front?_spells h
  refine ⟨hspells, fun {t' part'} hspells' hstarts => ?_⟩
  rw [List.cons_append, List.take_append_drop] at hstarts
  obtain ⟨u, n, hfront, hlength⟩ := hspells'.le_front? hstarts
  rw [h] at hfront
  cases hfront
  rwa [List.length_cons, List.length_take_of_le hmore]

theorem Longest.front? {c : Char} {cs rest : List Char} {t : Token}
    (h : Longest t (c :: cs) rest) : Token.front? c (cs ++ rest) = some (t, cs.length) := by
  obtain ⟨t', more, hfront, hmore, -⟩ := h.spells.front?_append rest
  have hlongest := front?_longest hfront
  have hle : more ≤ cs.length := by
    obtain ⟨hspells, hbound⟩ := front?_spells hfront
    have hle := h.length_le hspells ((List.prefix_cons_inj c).2 (List.take_prefix _ _))
    rw [List.length_cons, List.length_take_of_le hbound] at hle
    exact Nat.le_of_succ_le_succ hle
  obtain rfl := Nat.le_antisymm hmore hle
  have hspells := hlongest.spells
  rw [List.take_left] at hspells
  rw [hfront, hspells.unique h.spells]

end Token
end ViewMarkup
