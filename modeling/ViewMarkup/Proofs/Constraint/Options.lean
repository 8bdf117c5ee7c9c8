/-
# Which options fit

The options of a spec are read one after another, each against what those before
it have left. That they can all be read is a matter of each option by itself,
and of no two of them asking for different directions.

Key definitions: `FormatOptions.Aligns`, `FormatOptions.Directs`,
`FormatOptions.Fit`.
Key theorems: `FormatOptions.foldlM_add_ok_iff`,
`FormatOptions.mem_of_foldlM_add`, `FormatOptions.parse_ok_iff`.
-/
import ViewMarkup.Constraint.Options
import ViewMarkup.Proofs.Outcome

namespace ViewMarkup

namespace FormatOptions

/-- The option names an anchor to align views by. -/
def Aligns (option : String) (anchor : Anchor) : Prop :=
  alignmentOptions.lookup (normalizedOption option) = some anchor

def Directs (option : String) (direction : Direction) : Prop :=
  directionOptions.lookup (normalizedOption option) = some direction

/-- Every option is known, all directions are the same one, and no alignment is
along the axis. -/
structure Fit (options : List String) (axis : Axis) : Prop where
  known : ∀ option ∈ options, (∃ a, Aligns option a) ∨ ∃ d, Directs option d
  direction : ∀ option ∈ options, ∀ other ∈ options, ∀ d e,
    Directs option d → Directs other e → d = e
  across : ∀ option ∈ options, ∀ a, Aligns option a → a.axis ≠ axis

/-! ### Reading one option after another -/

theorem aligns_none_of_directs {option : String} {d : Direction} (h : Directs option d) :
    alignmentOptions.lookup (normalizedOption option) = none := by
  obtain ⟨before, after, heq, -⟩ := List.lookup_eq_some_iff.1 h
  have hmem : (normalizedOption option, d) ∈ directionOptions := by
    rw [heq]
    exact List.mem_append_right _ List.mem_cons_self
  have hall : ∀ pair ∈ directionOptions, alignmentOptions.lookup pair.1 = none := by decide
  exact hall _ hmem

/-- What one option adds, if it is known and says nothing against the direction
so far. -/
theorem add_eq_ok_iff {format option : String} {as as' : List Anchor} {d d' : Option Direction} :
    add format (as, d) option = .ok (as', d') ↔
      (∃ a, Aligns option a ∧ (if as.contains a then as else as ++ [a]) = as' ∧ d = d') ∨
        ∃ dir, Directs option dir ∧ as = as' ∧ some dir = d' ∧ ∀ e, d = some e → e = dir := by
  unfold add Aligns Directs
  dsimp only
  cases ha : alignmentOptions.lookup (normalizedOption option) with
  | some a =>
    have hnot : ∀ dir, directionOptions.lookup (normalizedOption option) ≠ some dir := by
      intro dir hd
      rw [aligns_none_of_directs hd] at ha
      cases ha
    simp [hnot]
  | none =>
    cases hd : directionOptions.lookup (normalizedOption option) with
    | none => simp
    | some dir =>
      cases d with
      | none => simp
      | some e =>
        by_cases he : e = dir <;> simp [he]

/-- Options are read to the end exactly if all are known and all directions, the
one from before included, are the same. -/
theorem foldlM_add_ok_iff {format : String} : ∀ {options : List String} {as : List Anchor}
    {d : Option Direction}, (∃ state, options.foldlM (add format) (as, d) = .ok state) ↔
      (∀ option ∈ options, (∃ a, Aligns option a) ∨ ∃ dir, Directs option dir) ∧
        ∃ dir, (∀ e, d = some e → e = dir) ∧
          ∀ option ∈ options, ∀ e, Directs option e → e = dir
  | [], as, d => by
    refine ⟨fun _ => ⟨by simp, d.getD .leadingToTrailing, ?_, by simp⟩, fun _ => ⟨_, rfl⟩⟩
    rintro e rfl
    rfl
  | option :: options, as, d => by
    rw [List.forall_mem_cons]
    constructor
    · rintro ⟨state, h⟩
      rw [List.foldlM_cons] at h
      obtain ⟨⟨as', d'⟩, hadd, hrest⟩ := bind_eq_ok_iff.1 h
      obtain ⟨hknown, dir, hsofar, hdirs⟩ := foldlM_add_ok_iff.1 ⟨state, hrest⟩
      rcases add_eq_ok_iff.1 hadd with ⟨a, ha, -, rfl⟩ | ⟨e, he, -, rfl, hd⟩
      · refine ⟨⟨.inl ⟨a, ha⟩, hknown⟩, dir, hsofar, List.forall_mem_cons.2 ⟨?_, hdirs⟩⟩
        intro e he
        have hnone := aligns_none_of_directs he
        rw [show alignmentOptions.lookup (normalizedOption option) = some a from ha] at hnone
        cases hnone
      · obtain rfl : e = dir := hsofar e rfl
        refine ⟨⟨.inr ⟨e, he⟩, hknown⟩, e, hd, List.forall_mem_cons.2 ⟨?_, hdirs⟩⟩
        intro e' he'
        exact Option.some.inj (he'.symm.trans he)
    · rintro ⟨⟨hoption, hknown⟩, dir, hsofar, hdirs⟩
      have hdirs := List.forall_mem_cons.1 hdirs
      rw [List.foldlM_cons]
      rcases hoption with ⟨a, ha⟩ | ⟨e, he⟩
      · obtain ⟨state, hstate⟩ := foldlM_add_ok_iff.2 ⟨hknown, dir, hsofar, hdirs.2⟩
        exact ⟨state, bind_eq_ok_iff.2 ⟨_, add_eq_ok_iff.2 (.inl ⟨a, ha, rfl, rfl⟩), hstate⟩⟩
      · obtain rfl : e = dir := hdirs.1 e he
        have hnext : ∀ e', some e = some e' → e' = e := fun e' h => (Option.some.inj h).symm
        obtain ⟨state, hstate⟩ := foldlM_add_ok_iff.2 ⟨hknown, e, hnext, hdirs.2⟩
        exact ⟨state,
          bind_eq_ok_iff.2 ⟨_, add_eq_ok_iff.2 (.inr ⟨e, he, rfl, rfl, hsofar⟩), hstate⟩⟩

/-- Views are aligned by the anchors that options name. -/
theorem mem_of_foldlM_add {format : String} {a : Anchor} : ∀ {options : List String}
    {as as' : List Anchor} {d d' : Option Direction},
    options.foldlM (add format) (as, d) = .ok (as', d') →
      (a ∈ as' ↔ a ∈ as ∨ ∃ option ∈ options, Aligns option a)
  | [], as, as', d, d', h => by
    cases h
    simp
  | option :: options, as, as', d, d', h => by
    rw [List.foldlM_cons] at h
    obtain ⟨⟨next, e⟩, hadd, hrest⟩ := bind_eq_ok_iff.1 h
    have hnext : a ∈ next ↔ a ∈ as ∨ Aligns option a := by
      rcases add_eq_ok_iff.1 hadd with ⟨b, hb, rfl, -⟩ | ⟨dir, hdir, rfl, -⟩
      · have hiff : Aligns option a ↔ a = b :=
          ⟨fun h => Option.some.inj (h.symm.trans hb), fun h => h ▸ hb⟩
        rw [hiff]
        split
        · rename_i hin
          exact ⟨.inl, fun h => h.elim id fun h => h ▸ List.contains_iff_mem.1 hin⟩
        · rw [List.mem_append, List.mem_singleton]
      · have hnot : ¬ Aligns option a := fun h => by
          have hnone := aligns_none_of_directs hdir
          rw [show alignmentOptions.lookup (normalizedOption option) = some a from h] at hnone
          cases hnone
        rw [or_iff_left hnot]
    rw [mem_of_foldlM_add hrest, hnext, or_assoc]
    simp

/-- Options fit an axis exactly if they can be read and no alignment is along the
axis. -/
theorem parse_ok_iff {format : String} {options : List String} {axis : Axis} :
    (∃ parsed, parse format options = .ok parsed ∧ ∀ a ∈ parsed.alignments, a.axis ≠ axis) ↔
      Fit options axis := by
  constructor
  · rintro ⟨parsed, hparse, hacross⟩
    obtain ⟨⟨as, d⟩, hfold, h⟩ := bind_eq_ok_iff.1 hparse
    cases h
    obtain ⟨hknown, dir, -, hdirs⟩ := foldlM_add_ok_iff.1 ⟨_, hfold⟩
    refine ⟨hknown, fun o ho o' ho' d e hd he => ?_, fun o ho a ha => ?_⟩
    · exact (hdirs o ho d hd).trans (hdirs o' ho' e he).symm
    · exact hacross a ((mem_of_foldlM_add hfold).2 (.inr ⟨o, ho, ha⟩))
  · intro h
    have hdir : ∃ dir, ∀ option ∈ options, ∀ e, Directs option e → e = dir := by
      by_cases hsome : ∃ option ∈ options, ∃ e, Directs option e
      · obtain ⟨o, ho, dir, hdir⟩ := hsome
        exact ⟨dir, fun option hoption e he => h.direction option hoption o ho e dir he hdir⟩
      · exact ⟨.leadingToTrailing, fun o ho e he => absurd ⟨o, ho, e, he⟩ hsome⟩
    obtain ⟨dir, hdir⟩ := hdir
    obtain ⟨⟨as, d⟩, hfold⟩ : ∃ state, options.foldlM (add format) ([], none) = .ok state :=
      foldlM_add_ok_iff.2 ⟨h.known, dir, nofun, hdir⟩
    refine ⟨_, bind_eq_ok_iff.2 ⟨_, hfold, rfl⟩, fun a ha => ?_⟩
    rcases (mem_of_foldlM_add hfold).1 ha with hnil | ⟨o, ho, hoa⟩
    · cases hnil
    · exact h.across o ho a hoa

end FormatOptions

end ViewMarkup
