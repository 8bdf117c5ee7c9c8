/-
# How paths are spelled

A text spells a path if, apart from white space around it, it is the path's
segments with points between them, at least one, each an index or a name. These
are exactly the texts that are read as paths, and the path read is the one
spelled. No segment holds a point, so joined segments can be taken apart again:
different segments are joined to different texts, and one list of segments
starts another exactly if its joined text ends where the other's does or goes on
with a point there.

Key definitions: `Path.IsIndex`, `Path.IsName`, `Path.Spells`,
`Template.PathsValid`.
Key theorems: `Path.parse_eq_ok_iff`, `Path.joined_injective`,
`Path.prefix_iff_joined`, `Template.parse_valid`.
-/
import Mathlib.Data.List.Basic
import ViewMarkup.Outcome
import ViewMarkup.Proofs.Text.Ascii
import ViewMarkup.Template.Basic

namespace ViewMarkup

/-! ### Parts between separators -/

theorem splitAt_eq_splitOn (separator : Char) :
    ∀ cs : List Char, splitAt separator cs = cs.splitOn separator
  | [] => rfl
  | c :: cs => by
    rw [splitAt, splitAt_eq_splitOn separator cs, List.splitOn, List.splitOn,
      List.splitOnP_cons_eq_if_modifyHead]
    cases hparts : cs.splitOnP (· == separator) with
    | nil => exact absurd hparts (List.splitOnP_ne_nil _ cs)
    | cons part parts =>
      by_cases hc : c = separator
      · simp [hc]
      · simp [hc]

namespace Path

/-! ### Segments -/

/-- Decimal digits, at least one. -/
def IsIndex (segment : String) : Prop := segment ≠ "" ∧ ∀ c ∈ segment.toList, c.isDigit = true

/-- A letter or an underscore, and then letters, digits and underscores, all of
ASCII. -/
def IsName (segment : String) : Prop :=
  ∃ c cs, segment.toList = c :: cs ∧ (c.isAlpha = true ∨ c = '_') ∧
    ∀ d ∈ cs, d.isAlphanum = true ∨ d = '_'

/-- What may stand between the points of a path. -/
def IsValid (segment : String) : Prop := IsIndex segment ∨ IsName segment

theorem isSegment_iff {segment : String} : isSegment segment.toList = true ↔ IsValid segment := by
  unfold IsValid IsIndex IsName
  cases hcs : segment.toList with
  | nil =>
    have hempty : segment = "" := String.toList_inj.1 hcs
    simp [isSegment, hempty]
  | cons c cs =>
    have hne : segment ≠ "" := fun h => by rw [h] at hcs; cases hcs
    rw [isSegment]
    by_cases hc : c.isDigit = true
    · have hname : ¬ (c.isAlpha = true ∨ c = '_') := by
        rintro (h | rfl)
        · rw [not_isDigit_of_isAlpha h] at hc
          cases hc
        · cases hc
      simp only [hc, if_true, List.all_eq_true, List.forall_mem_cons, true_and, hne, ne_eq,
        not_false_eq_true, List.cons.injEq]
      constructor
      · exact Or.inl
      · rintro (h | ⟨c', cs', ⟨rfl, rfl⟩, h, -⟩)
        · exact h
        · exact absurd h hname
    · simp only [hc, Bool.false_eq_true, if_false, Bool.and_eq_true, Bool.or_eq_true,
        decide_eq_true_eq, List.all_eq_true, List.forall_mem_cons, false_and, and_false, false_or,
        List.cons.injEq]
      constructor
      · exact fun h => ⟨c, cs, ⟨rfl, rfl⟩, h⟩
      · rintro ⟨c', cs', ⟨rfl, rfl⟩, h⟩
        exact h

theorem IsValid.ne_empty {segment : String} (h : IsValid segment) : segment.toList ≠ [] := by
  rcases h with ⟨hne, -⟩ | ⟨c, cs, hcs, -⟩
  · exact fun hnil => hne (String.toList_inj.1 hnil)
  · rw [hcs]
    exact List.cons_ne_nil c cs

/-- A letter, a digit or an underscore, of ASCII. -/
def IsWordChar (c : Char) : Prop := c.isAlphanum = true ∨ c = '_'

instance (c : Char) : Decidable (IsWordChar c) :=
  inferInstanceAs (Decidable (c.isAlphanum = true ∨ c = '_'))

theorem IsValid.isWordChar {segment : String} (h : IsValid segment) :
    ∀ c ∈ segment.toList, IsWordChar c := by
  rcases h with ⟨-, hdigits⟩ | ⟨c, cs, hcs, hc, htail⟩
  · intro c hc
    refine Or.inl ?_
    rw [Char.isAlphanum, hdigits c hc, Bool.or_true]
  · rw [hcs]
    refine List.forall_mem_cons.2 ⟨hc.imp_left fun halpha => ?_, htail⟩
    rw [Char.isAlphanum, halpha, Bool.true_or]

theorem IsValid.no_point {segment : String} (h : IsValid segment) : '.' ∉ segment.toList :=
  fun hpoint => absurd (h.isWordChar '.' hpoint) (by decide)

/-! ### Joined segments -/

theorem toList_joined (segments : List String) :
    (joined segments).toList = ['.'].intercalate (segments.map String.toList) :=
  String.toList_intercalate

theorem splitOn_joined {segments : List String} (hne : segments ≠ [])
    (h : ∀ s ∈ segments, IsValid s) :
    (joined segments).toList.splitOn '.' = segments.map String.toList := by
  rw [toList_joined, List.splitOn_intercalate]
  · intro cs hcs
    obtain ⟨s, hs, rfl⟩ := List.mem_map.1 hcs
    exact (h s hs).no_point
  · exact fun hnil => hne (List.map_eq_nil_iff.1 hnil)

/-- Joined segments are made of word characters and points. -/
theorem isWordChar_of_mem_joined : ∀ {segments : List String}, (∀ s ∈ segments, IsValid s) →
    ∀ c ∈ (joined segments).toList, IsWordChar c ∨ c = '.'
  | [], _, c, hc => absurd hc List.not_mem_nil
  | [s], h, c, hc => by
    rw [joined, String.intercalate_singleton] at hc
    exact Or.inl ((h s List.mem_cons_self).isWordChar c hc)
  | s :: t :: rest, h, c, hc => by
    obtain ⟨hs, hrest⟩ := List.forall_mem_cons.1 h
    rw [joined, String.intercalate_cons_cons, String.toList_append, String.toList_append,
      List.mem_append, List.mem_append] at hc
    rcases hc with (hc | hc) | hc
    · exact Or.inl (hs.isWordChar c hc)
    · exact Or.inr (List.mem_singleton.1 hc)
    · exact isWordChar_of_mem_joined hrest c hc

theorem joined_ne_empty {segments : List String} (hne : segments ≠ [])
    (h : ∀ s ∈ segments, IsValid s) : joined segments ≠ "" := by
  intro hempty
  have hsplit := splitOn_joined hne h
  rw [hempty] at hsplit
  cases segments with
  | nil => exact hne rfl
  | cons s rest =>
    have hs : s.toList = [] := (List.cons.inj hsplit).1.symm
    exact (h s List.mem_cons_self).ne_empty hs

theorem map_toList_injective : Function.Injective (List.map String.toList) :=
  List.map_injective_iff.2 fun _ _ h => String.toList_inj.1 h

/-- Different segments are joined to different texts. -/
theorem joined_injective {a b : List String} (ha : ∀ s ∈ a, IsValid s) (hb : ∀ s ∈ b, IsValid s)
    (h : joined a = joined b) : a = b := by
  by_cases hanil : a = []
  · subst hanil
    by_contra hbnil
    exact joined_ne_empty (Ne.symm hbnil) hb h.symm
  · by_cases hbnil : b = []
    · subst hbnil
      exact absurd h (joined_ne_empty hanil ha)
    · apply map_toList_injective
      rw [← splitOn_joined hanil ha, ← splitOn_joined hbnil hb, h]

/-- Segments start other ones exactly if their joined text is the same or goes on
with a point. -/
theorem prefix_iff_joined {a b : List String} (ha : ∀ s ∈ a, IsValid s) (hb : ∀ s ∈ b, IsValid s)
    (hne : a ≠ []) :
    a <+: b ↔ joined b = joined a ∨ (joined a).toList ++ ['.'] <+: (joined b).toList := by
  constructor
  · rintro ⟨c, rfl⟩
    by_cases hc : c = []
    · left
      rw [hc, List.append_nil]
    · right
      have happend : joined (a ++ c) = joined a ++ "." ++ joined c :=
        String.intercalate_append_of_ne_nil hne hc
      exact ⟨(joined c).toList, by simp [happend]⟩
  · rintro (h | ⟨rest, hrest⟩)
    · obtain rfl := joined_injective hb ha h
      exact List.prefix_rfl
    · have hbne : b ≠ [] := by
        rintro rfl
        simp [joined] at hrest
      have hsplit := splitOn_joined hbne hb
      -- the point ends the last segment of `a`, so what is joined up to it is `a`
      rw [← hrest, List.append_assoc, List.singleton_append, List.splitOn,
        List.splitOnP_append_cons _ _ (by simp)] at hsplit
      change (joined a).toList.splitOn '.' ++ _ = _ at hsplit
      rw [splitOn_joined hne ha] at hsplit
      obtain ⟨a', c, rfl, ha', -⟩ := List.map_eq_append_iff.1 hsplit.symm
      rw [← map_toList_injective ha']
      exact List.prefix_append a' c

/-! ### Texts that spell paths -/

/-- The text is the segments with points between them, apart from white space
around it. -/
structure Spells (text : String) (segments : List String) : Prop where
  nonempty : segments ≠ []
  valid : ∀ s ∈ segments, IsValid s
  trimmed : trimText text = joined segments

theorem Spells.inj {text : String} {a b : List String} (ha : Spells text a) (hb : Spells text b) :
    a = b := joined_injective ha.valid hb.valid (ha.trimmed.symm.trans hb.trimmed)

theorem spells_of_parse {text : String} {p : Path} (h : parse text = .ok p) :
    Spells text p.segments := by
  simp only [parse] at h
  split at h
  · cases h
  · split at h
    · cases h
    · rename_i hparts
      cases h
      rw [splitAt_eq_splitOn] at hparts ⊢
      refine ⟨fun hnil => ?_, fun s hs => ?_, ?_⟩
      · exact List.splitOnP_ne_nil _ _ (List.map_eq_nil_iff.1 hnil)
      · obtain ⟨part, hpart, rfl⟩ := List.mem_map.1 hs
        have hseg := List.find?_eq_none.1 hparts part hpart
        rw [← isSegment_iff, String.toList_ofList]
        simpa using hseg
      · apply String.toList_inj.1
        rw [trimText, toList_joined, List.map_map]
        simp [Function.comp_def, List.intercalate_splitOn]

theorem parse_of_spells {text : String} {p : Path} (h : Spells text p.segments) :
    parse text = .ok p := by
  have htrim : trim text.toList = (joined p.segments).toList := by
    rw [← h.trimmed, trimText, String.toList_ofList]
  have hne : trim text.toList ≠ [] := fun hnil =>
    joined_ne_empty h.nonempty h.valid (String.toList_inj.1 (htrim.symm.trans hnil))
  have hsplit : splitAt '.' (trim text.toList) = p.segments.map String.toList := by
    rw [htrim, splitAt_eq_splitOn, splitOn_joined h.nonempty h.valid]
  have hvalid : (p.segments.map String.toList).find? (fun part => !isSegment part) = none := by
    rw [List.find?_eq_none]
    intro part hpart
    obtain ⟨s, hs, rfl⟩ := List.mem_map.1 hpart
    simp [isSegment_iff.2 (h.valid s hs)]
  simp only [parse, hsplit, hvalid, List.isEmpty_iff, hne, if_false]
  simp [Function.comp_def]

/-- A text is read as a path exactly if it spells it. -/
theorem parse_eq_ok_iff {text : String} {p : Path} :
    parse text = .ok p ↔ Spells text p.segments :=
  ⟨spells_of_parse, parse_of_spells⟩

/-- A text is refused exactly if it spells no path. -/
theorem parse_eq_error_iff {text : String} :
    (∃ e, parse text = .error e) ↔ ¬ ∃ segments, Spells text segments := by
  constructor
  · rintro ⟨e, he⟩ ⟨segments, h⟩
    rw [parse_of_spells (p := ⟨segments⟩) h] at he
    cases he
  · intro h
    cases hparse : parse text with
    | error e => exact ⟨e, rfl⟩
    | ok p => exact absurd ⟨p.segments, spells_of_parse hparse⟩ h

theorem relative_valid {p : Path} (h : ∀ s ∈ p.segments, IsValid s) (root : String) :
    ∀ s ∈ p.relative root, IsValid s := by
  intro s hs
  unfold relative at hs
  split at hs
  · rename_i first rest hsegments
    rw [hsegments] at h
    split at hs
    · exact h s (List.mem_cons_of_mem _ hs)
    · exact h s hs
  · exact absurd hs List.not_mem_nil

end Path

/-! ### Paths in templates -/

/-- The segments of every path in the template are valid, as those of templates
that were read are. -/
def Template.PathsValid (t : Template) : Prop :=
  ∀ e ∈ t.expressions, ∀ s ∈ e.path.segments, Path.IsValid s

/-- An expression that is read stands for a path that some text is read as. -/
theorem Expression.exists_of_parse {body : List Char} {span : Span} {e : Expression}
    (h : Expression.parse body span = .ok e) :
    ∃ text path mode, Path.parse text = .ok path ∧ e = ⟨path, mode, span⟩ := by
  simp only [Expression.parse] at h
  split at h
  · split at h
    · obtain ⟨path, hpath, rfl⟩ := map_eq_ok_iff.1 h
      exact ⟨_, path, _, hpath, rfl⟩
    · cases h
  · obtain ⟨path, hpath, rfl⟩ := map_eq_ok_iff.1 h
    exact ⟨_, path, _, hpath, rfl⟩

theorem Expression.parse_valid {body : List Char} {span : Span} {e : Expression}
    (h : Expression.parse body span = .ok e) : ∀ s ∈ e.path.segments, Path.IsValid s := by
  obtain ⟨text, path, mode, hpath, rfl⟩ := exists_of_parse h
  exact (Path.spells_of_parse hpath).valid

namespace Template

theorem expression_mem_withLiteral {literal : List Char} {segments : List Segment}
    {e : Expression} : .expression e ∈ withLiteral literal segments ↔ .expression e ∈ segments := by
  unfold withLiteral
  split
  · rfl
  · simp

theorem scan_valid {source : String} {offset : Nat} {literal cs : List Char}
    {segments : List Segment} (h : scan source offset literal cs = .ok segments) :
    ∀ e, .expression e ∈ segments → ∀ s ∈ e.path.segments, Path.IsValid s := by
  fun_induction scan source offset literal cs generalizing segments with
  | case1 =>
    cases h
    intro e he
    rw [expression_mem_withLiteral] at he
    cases he
  | case2 => cases h
  | case3 offset literal cs body rest hbody stop =>
    rename_i ih
    obtain ⟨e, he, h⟩ := bind_eq_ok_iff.1 h
    obtain ⟨others, hothers, h⟩ := bind_eq_ok_iff.1 h
    cases h
    intro e' he'
    rw [expression_mem_withLiteral, List.mem_cons] at he'
    rcases he' with heq | he'
    · cases heq
      exact Expression.parse_valid he
    · exact ih hothers e' he'
  | case4 offset literal c cs _ ih => exact ih h

theorem parse_valid {source : String} {t : Template} (h : parse source = .ok t) :
    t.PathsValid := by
  obtain ⟨segments, hscan, h⟩ := bind_eq_ok_iff.1 h
  intro e he
  obtain ⟨segment, hmem, hsome⟩ := List.mem_filterMap.1 he
  cases segment with
  | literal text => cases hsome
  | expression e' =>
    obtain rfl := Option.some.inj hsome
    refine scan_valid hscan e' ?_
    split at h
    · cases h
      simp [ofLiteral] at hmem
    · cases h
      exact hmem

end Template

end ViewMarkup
