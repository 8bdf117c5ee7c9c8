/-
# How options are spelled

An option is the name of an alignment or of a direction. White space around it
does not count, its first letter may be a capital, and a mark may stand before it:
one for alignments, or the one for directions. The options of a spec together ask
for the alignments they name, each once and in the order in which they are first
named, and for the one direction they name.

Which mark stands before a name is not looked at when options are read. So the mark
of alignments before the name of a direction is read as the direction, and the mark
of directions before the name of an alignment as the alignment. Apart from such
options, options are read exactly as they are spelled
(`FormatOptions.readAs_means_iff`).

Key definitions: `Wish`, `FormatOptions.Names`, `FormatOptions.Means`,
`FormatOptions.Mixes`, `FormatOptions.Gathers`, `FormatOptions.ReadAs`.
Key theorems: `FormatOptions.normalizedOption_eq_iff`,
`FormatOptions.parse_eq_ok_iff`, `FormatOptions.readAs_means_iff`.
-/
import ViewMarkup.Proofs.Constraint.Options
import ViewMarkup.Proofs.Text.Affix

namespace ViewMarkup

/-- What an option asks for. -/
inductive Wish
  | align (anchor : Anchor)
  | run (direction : Direction)
  deriving DecidableEq

def Wish.anchor? : Wish → Option Anchor
  | align a => some a
  | run _ => none

namespace FormatOptions

/-- The marks of alignments. -/
def alignmentMarks : List (List Char) := ["NSLayoutFormatAlignAll".toList, "alignAll".toList]

/-- The mark of directions. -/
def directionMarks : List (List Char) := ["NSLayoutFormatDirection".toList]

/-- Without the white space around it, the option is one of the marks and then the
name, whose first letter may be a capital. -/
def Spells (marks : List (List Char)) (name option : String) : Prop :=
  ∃ mark ∈ marks, ∃ c rest, trim option.toList = mark ++ c :: rest ∧
    name.toList = c.toLower :: rest

/-- The option is a mark of one kind and the name of what is asked for. -/
def Names (alignment direction : List (List Char)) (option : String) : Wish → Prop
  | .align a => ∃ name, (name, a) ∈ alignmentOptions ∧ Spells alignment name option
  | .run d => ∃ name, (name, d) ∈ directionOptions ∧ Spells direction name option

/-- The option is a name by itself or after a mark of its kind. -/
def Means : String → Wish → Prop := Names ([] :: alignmentMarks) ([] :: directionMarks)

/-- The option is a name after a mark of the other kind. -/
def Mixes : String → Wish → Prop := Names directionMarks alignmentMarks

/-- The option is a name by itself or after any mark. -/
def Reads : String → Wish → Prop := Names ([] :: optionMarks) ([] :: optionMarks)

/-- The options that were read are what the wishes come to. -/
structure Gathers (wishes : List Wish) (parsed : FormatOptions) : Prop where
  alignments : parsed.alignments = (wishes.filterMap Wish.anchor?).eraseDups
  direction : ∀ d, .run d ∈ wishes → parsed.direction = d
  otherwise : (∀ d, .run d ∉ wishes) → parsed.direction = .leadingToTrailing

/-- Each option asks for something, and no two for different directions. -/
def Agree (asks : String → Wish → Prop) (options : List String) : Prop :=
  (∀ option ∈ options, ∃ wish, asks option wish) ∧
    ∀ option ∈ options, ∀ other ∈ options, ∀ d e,
      asks option (.run d) → asks other (.run e) → d = e

/-- Options are read exactly if they agree, and what is read is what they ask for. -/
def ReadAs (asks : String → Wish → Prop) (format : String) (options : List String) : Prop :=
  ((∃ parsed, parse format options = .ok parsed) ↔ Agree asks options) ∧
    ∀ parsed, parse format options = .ok parsed →
      ∃ wishes, List.Forall₂ asks options wishes ∧ Gathers wishes parsed

variable {format option name : String} {options : List String} {marks : List (List Char)}
  {wish wish' : Wish} {parsed : FormatOptions}

/-! ### Marks and names -/

/-- A name starts with another letter than the marks do. -/
theorem first_of_known {c : Char} {rest : List Char} (h : name ∈ knownNames)
    (hname : name.toList = c.toLower :: rest) : ∀ mark ∈ optionMarks, mark.head? ≠ some c := by
  have hnames : ∀ name ∈ knownNames, name.toList.head? ≠ some 'n' ∧ name.toList.head? ≠ some 'a' := by
    decide
  have hmarks : ∀ mark ∈ optionMarks, mark.head? = some 'N' ∨ mark.head? = some 'a' := by decide
  intro mark hmark hc
  have hfirst := hnames name h
  rw [hname] at hfirst
  rcases hmarks mark hmark with hN | ha
  · obtain rfl := Option.some.inj (hc.symm.trans hN)
    exact hfirst.1 rfl
  · obtain rfl := Option.some.inj (hc.symm.trans ha)
    exact hfirst.2 rfl

/-- Whatever the mark, what comes after it is looked up. -/
theorem afterMark_append {mark : List Char} {c : Char} {rest : List Char}
    (hmark : mark ∈ [] :: optionMarks) (hc : ∀ m ∈ optionMarks, m.head? ≠ some c) :
    (optionMarks.findSome? fun m => dropStart? m (mark ++ c :: rest)).getD (mark ++ c :: rest) =
      c :: rest := by
  rcases List.mem_cons.1 hmark with rfl | hmark
  · have hnone : ∀ m ∈ optionMarks, dropStart? m ([] ++ c :: rest) = none := by
      intro m hm
      refine dropStart?_eq_none_iff.2 fun hprefix => ?_
      cases m with
      | nil => exact absurd hm (by decide)
      | cons d m =>
        obtain ⟨rfl, -⟩ := List.cons_prefix_cons.1 hprefix
        exact hc _ hm rfl
    rw [List.findSome?_eq_none_iff.2 hnone]
    rfl
  · -- no mark is the start of another one
    simp only [optionMarks, List.mem_cons, List.not_mem_nil, or_false] at hmark
    simp only [optionMarks, List.findSome?_cons, List.findSome?_nil]
    rcases hmark with rfl | rfl | rfl <;> (rw [dropStart?_append]; rfl)

/-- An option is looked up as a known name exactly if it is spelled as that name. -/
theorem normalizedOption_eq_iff (h : name ∈ knownNames) :
    normalizedOption option = name ↔ Spells ([] :: optionMarks) name option := by
  unfold normalizedOption Spells
  dsimp only
  constructor
  · intro heq
    have hafter : ∃ mark ∈ [] :: optionMarks, trim option.toList = mark ++
        (optionMarks.findSome? fun m => dropStart? m (trim option.toList)).getD
          (trim option.toList) := by
      cases hfind : optionMarks.findSome? fun m => dropStart? m (trim option.toList) with
      | none => exact ⟨[], List.mem_cons_self, rfl⟩
      | some rest =>
        obtain ⟨before, mark, after, hmarks, hdrop, -⟩ := List.findSome?_eq_some_iff.1 hfind
        refine ⟨mark, List.mem_cons_of_mem _ ?_, dropStart?_eq_some_iff.1 hdrop⟩
        rw [hmarks]
        exact List.mem_append_right _ List.mem_cons_self
    obtain ⟨mark, hmark, htrim⟩ := hafter
    split at heq
    · subst heq
      exact absurd h (by decide)
    · rename_i c rest hsome
      refine ⟨mark, hmark, c, rest, ?_, ?_⟩
      · rw [htrim, hsome]
      · rw [← heq, String.toList_ofList]
  · rintro ⟨mark, hmark, c, rest, htrim, hname⟩
    rw [htrim, afterMark_append hmark (first_of_known h hname)]
    show String.ofList (c.toLower :: rest) = name
    rw [← hname, String.ofList_toList]

theorem lookup_normalizedOption_iff {α : Type} {table : List (String × α)} {a : α}
    (hknown : ∀ entry ∈ table, entry.1 ∈ knownNames)
    (hlookup : ∀ entry ∈ table, table.lookup entry.1 = some entry.2) :
    table.lookup (normalizedOption option) = some a ↔
      ∃ name, (name, a) ∈ table ∧ Spells ([] :: optionMarks) name option := by
  constructor
  · intro h
    obtain ⟨before, after, heq, -⟩ := List.lookup_eq_some_iff.1 h
    have hmem : (normalizedOption option, a) ∈ table := by
      rw [heq]
      exact List.mem_append_right _ List.mem_cons_self
    exact ⟨_, hmem, (normalizedOption_eq_iff (hknown _ hmem)).1 rfl⟩
  · rintro ⟨name, hmem, hspells⟩
    rw [(normalizedOption_eq_iff (hknown _ hmem)).2 hspells]
    exact hlookup _ hmem

theorem aligns_iff_reads {a : Anchor} : Aligns option a ↔ Reads option (.align a) :=
  lookup_normalizedOption_iff (by decide) (by decide)

theorem directs_iff_reads {d : Direction} : Directs option d ↔ Reads option (.run d) :=
  lookup_normalizedOption_iff (by decide) (by decide)

/-- An option is read as one thing only. -/
theorem Reads.unique (h : Reads option wish) (h' : Reads option wish') : wish = wish' := by
  have hnot : ∀ {a d}, Reads option (.align a) → ¬ Reads option (.run d) := fun ha hd => by
    have hnone := aligns_none_of_directs (directs_iff_reads.2 hd)
    have hsome := aligns_iff_reads.2 ha
    unfold Aligns at hsome
    rw [hnone] at hsome
    cases hsome
  cases wish with
  | align a =>
    cases wish' with
    | align a' =>
      have ha := (aligns_iff_reads.2 h).symm.trans (aligns_iff_reads.2 h')
      rw [Option.some.inj ha]
    | run d => exact absurd h' (hnot h)
  | run d =>
    cases wish' with
    | align a => exact absurd h (hnot h')
    | run d' =>
      have hd := (directs_iff_reads.2 h).symm.trans (directs_iff_reads.2 h')
      rw [Option.some.inj hd]

/-! ### Marks of either kind -/

theorem spells_or_iff {marks others all : List (List Char)} (h : all.Perm (marks ++ others)) :
    Spells all name option ↔ Spells marks name option ∨ Spells others name option := by
  simp only [Spells, h.mem_iff, List.mem_append, or_and_right, exists_or]

theorem reads_iff : Reads option wish ↔ Means option wish ∨ Mixes option wish := by
  have halign : ([] :: optionMarks).Perm (([] :: alignmentMarks) ++ directionMarks) := by decide
  have hrun : ([] :: optionMarks).Perm (([] :: directionMarks) ++ alignmentMarks) := by decide
  cases wish with
  | align a => simp only [Reads, Means, Mixes, Names, spells_or_iff halign, and_or_left, exists_or]
  | run d => simp only [Reads, Means, Mixes, Names, spells_or_iff hrun, and_or_left, exists_or]

/-- An option ends in its name, so it has only one mark. -/
theorem Spells.disjoint {others : List (List Char)} (hapart : ∀ mark ∈ marks, mark ∉ others)
    (h : Spells marks name option) : ¬ Spells others name option := by
  rintro ⟨mark', hmark', c', rest', htrim', hname'⟩
  obtain ⟨mark, hmark, c, rest, htrim, hname⟩ := h
  have hlength : (c :: rest).length = (c' :: rest').length := by
    have heq := congrArg List.length (hname.symm.trans hname')
    simpa using heq
  obtain ⟨rfl, -⟩ := List.append_inj' (htrim.symm.trans htrim') hlength
  exact hapart mark hmark hmark'

theorem Means.not_mixes (h : Means option wish) : ¬ Mixes option wish' := by
  intro h'
  obtain rfl := (reads_iff.2 (.inl h)).unique (reads_iff.2 (.inr h'))
  cases wish with
  | align a =>
    obtain ⟨name, hname, hspells⟩ := h
    obtain ⟨name', hname', hspells'⟩ := h'
    have hinj : ∀ entry ∈ alignmentOptions, ∀ other ∈ alignmentOptions, entry.2 = other.2 →
        entry.1 = other.1 := by decide
    obtain rfl : name = name' := hinj _ hname _ hname' rfl
    exact hspells.disjoint (by decide) hspells'
  | run d =>
    obtain ⟨name, hname, hspells⟩ := h
    obtain ⟨name', hname', hspells'⟩ := h'
    have hinj : ∀ entry ∈ directionOptions, ∀ other ∈ directionOptions, entry.2 = other.2 →
        entry.1 = other.1 := by decide
    obtain rfl : name = name' := hinj _ hname _ hname' rfl
    exact hspells.disjoint (by decide) hspells'

/-! ### One option after another -/

/-- The alignments and the direction so far are those of the wishes. -/
structure Collects (wishes : List Wish) (state : List Anchor × Option Direction) : Prop where
  alignments : state.1 = (wishes.filterMap Wish.anchor?).eraseDups
  direction : ∀ d, state.2 = some d ↔ .run d ∈ wishes

variable {wishes rest : List Wish} {state next : List Anchor × Option Direction}

theorem eraseDups_concat (as : List Anchor) (a : Anchor) : (as ++ [a]).eraseDups =
    if as.eraseDups.contains a then as.eraseDups else as.eraseDups ++ [a] := by
  rw [List.eraseDups_append, List.removeAll]
  by_cases ha : a ∈ as
  · have hcontains : as.eraseDups.contains a = true :=
      List.contains_iff_mem.2 (List.mem_eraseDups.2 ha)
    rw [if_pos hcontains]
    simp [ha]
  · have hcontains : ¬ as.eraseDups.contains a = true := fun h =>
      ha (List.mem_eraseDups.1 (List.contains_iff_mem.1 h))
    rw [if_neg hcontains]
    simp [ha, List.eraseDups_cons]

/-- The anchors of the wishes after one more. -/
theorem filterMap_anchor_concat (wishes : List Wish) (wish : Wish) :
    (wishes ++ [wish]).filterMap Wish.anchor? =
      wishes.filterMap Wish.anchor? ++ wish.anchor?.toList := by
  cases wish <;> simp [Wish.anchor?, List.filterMap_cons]

theorem Collects.nil : Collects [] ([], none) := ⟨by simp, by simp⟩

/-- Where all wishes can be collected, so can the first of them. -/
theorem Collects.front (h : Collects (wishes ++ rest) next) : ∃ state, Collects wishes state := by
  by_cases hrun : ∃ d, .run d ∈ wishes
  · obtain ⟨d, hd⟩ := hrun
    refine ⟨(_, some d), rfl, fun e => ⟨?_, fun he => ?_⟩⟩
    · rintro ⟨⟩
      exact hd
    · have hnext := (h.direction d).2 (List.mem_append_left _ hd)
      exact hnext.symm.trans ((h.direction e).2 (List.mem_append_left _ he))
  · refine ⟨(_, none), rfl, fun e => ⟨nofun, fun he => absurd ⟨e, he⟩ hrun⟩⟩

/-- One option adds its wish. -/
theorem add_eq_ok_iff_collects (h : Collects wishes state) : add format state option = .ok next ↔
    ∃ wish, Reads option wish ∧ Collects (wishes ++ [wish]) next := by
  obtain ⟨as, d⟩ := state
  obtain ⟨as', d'⟩ := next
  obtain ⟨halignments, hdirection⟩ := h
  dsimp only at halignments hdirection
  subst halignments
  rw [add_eq_ok_iff]
  simp only [aligns_iff_reads, directs_iff_reads]
  constructor
  · rintro (⟨a, ha, rfl, rfl⟩ | ⟨dir, hdir, rfl, rfl, hsame⟩)
    · refine ⟨.align a, ha, ?_, fun e => ?_⟩
      · rw [filterMap_anchor_concat]
        exact (eraseDups_concat _ a).symm
      · simp [hdirection]
    · refine ⟨.run dir, hdir, ?_, fun e => ?_⟩
      · rw [filterMap_anchor_concat]
        exact congrArg List.eraseDups (List.append_nil _).symm
      · simp only [List.mem_append, List.mem_singleton, Wish.run.injEq, ← hdirection,
          Option.some.injEq]
        exact ⟨fun h => .inr h.symm, fun h => (h.elim (hsame e) id).symm⟩
  · rintro ⟨wish, hwish, halignments', hdirection'⟩
    dsimp only at halignments' hdirection'
    cases wish with
    | align a =>
      refine .inl ⟨a, hwish, ?_, Option.ext fun e => ?_⟩
      · rw [halignments', filterMap_anchor_concat]
        exact (eraseDups_concat _ a).symm
      · rw [hdirection, hdirection']
        simp
    | run dir =>
      have hdir : d' = some dir := (hdirection' dir).2 (List.mem_append_right _ List.mem_cons_self)
      refine .inr ⟨dir, hwish, ?_, hdir.symm, fun e he => ?_⟩
      · rw [halignments', filterMap_anchor_concat]
        exact congrArg List.eraseDups (List.append_nil _).symm
      · have he' := (hdirection' e).2 (List.mem_append_left _ ((hdirection e).1 he))
        exact Option.some.inj (he'.symm.trans hdir)

/-- Options add their wishes one after the other. -/
theorem foldlM_add_eq_ok_iff : ∀ {options : List String} {wishes : List Wish}
    {state : List Anchor × Option Direction}, Collects wishes state →
      (options.foldlM (add format) state = .ok next ↔
        ∃ rest, List.Forall₂ Reads options rest ∧ Collects (wishes ++ rest) next)
  | [], wishes, state, h => by
    rw [List.foldlM_nil, pure_eq_ok_iff]
    constructor
    · rintro rfl
      exact ⟨[], .nil, by rwa [List.append_nil]⟩
    · rintro ⟨rest, hrest, hnext⟩
      cases hrest
      rw [List.append_nil] at hnext
      refine Prod.ext (h.alignments.trans hnext.alignments.symm) (Option.ext fun d => ?_)
      rw [h.direction, hnext.direction]
  | option :: options, wishes, state, h => by
    rw [List.foldlM_cons, bind_eq_ok_iff]
    constructor
    · rintro ⟨middle, hadd, hfold⟩
      obtain ⟨wish, hwish, hmiddle⟩ := (add_eq_ok_iff_collects h).1 hadd
      obtain ⟨rest, hrest, hnext⟩ := (foldlM_add_eq_ok_iff hmiddle).1 hfold
      exact ⟨wish :: rest, .cons hwish hrest, by rwa [List.append_assoc] at hnext⟩
    · rintro ⟨wishes', hwishes, hnext⟩
      cases hwishes with
      | @cons _ wish _ rest hwish hrest =>
        rw [← List.singleton_append, ← List.append_assoc] at hnext
        obtain ⟨middle, hmiddle⟩ := hnext.front
        exact ⟨middle, (add_eq_ok_iff_collects h).2 ⟨wish, hwish, hmiddle⟩,
          (foldlM_add_eq_ok_iff hmiddle).2 ⟨rest, hrest, hnext⟩⟩

/-- What is read is what the wishes of the options come to. -/
theorem parse_eq_ok_iff : parse format options = .ok parsed ↔
    ∃ wishes, List.Forall₂ Reads options wishes ∧ Gathers wishes parsed := by
  constructor
  · intro h
    obtain ⟨⟨as, d⟩, hfold, h⟩ := bind_eq_ok_iff.1 h
    cases h
    obtain ⟨wishes, hwishes, halignments, hdirection⟩ := (foldlM_add_eq_ok_iff .nil).1 hfold
    refine ⟨wishes, hwishes, halignments, fun e he => ?_, fun hnone => ?_⟩
    · rw [show d = some e from (hdirection e).2 he]
      rfl
    · cases d with
      | none => rfl
      | some e => exact absurd ((hdirection e).1 rfl) (hnone e)
  · rintro ⟨wishes, hwishes, hgathers⟩
    by_cases hrun : ∃ d, .run d ∈ wishes
    · obtain ⟨d, hd⟩ := hrun
      have hcollects : Collects wishes (parsed.alignments, some d) := by
        refine ⟨hgathers.alignments, fun e => ⟨?_, fun he => ?_⟩⟩
        · rintro ⟨⟩
          exact hd
        · rw [← hgathers.direction d hd, hgathers.direction e he]
      refine bind_eq_ok_iff.2 ⟨_, (foldlM_add_eq_ok_iff .nil).2 ⟨wishes, hwishes, hcollects⟩, ?_⟩
      rw [pure_eq_ok_iff, Option.getD_some, ← hgathers.direction d hd]
    · have hnone : ∀ d, .run d ∉ wishes := fun d hd => hrun ⟨d, hd⟩
      have hcollects : Collects wishes (parsed.alignments, none) :=
        ⟨hgathers.alignments, fun e => ⟨nofun, fun he => absurd he (hnone e)⟩⟩
      refine bind_eq_ok_iff.2 ⟨_, (foldlM_add_eq_ok_iff .nil).2 ⟨wishes, hwishes, hcollects⟩, ?_⟩
      rw [pure_eq_ok_iff, Option.getD_none, ← hgathers.otherwise hnone]

/-! ### Options that are read as they are spelled -/

theorem exists_wishes {asks : String → Wish → Prop} : ∀ {options : List String},
    (∀ option ∈ options, ∃ wish, asks option wish) → ∃ wishes, List.Forall₂ asks options wishes
  | [], _ => ⟨[], .nil⟩
  | option :: options, h => by
    rw [List.forall_mem_cons] at h
    obtain ⟨wish, hwish⟩ := h.1
    obtain ⟨wishes, hwishes⟩ := exists_wishes h.2
    exact ⟨wish :: wishes, .cons hwish hwishes⟩

theorem readAs_reads : ReadAs Reads format options := by
  refine ⟨⟨?_, ?_⟩, fun parsed => parse_eq_ok_iff.1⟩
  · rintro ⟨parsed, hparsed⟩
    obtain ⟨wishes, hwishes, hgathers⟩ := parse_eq_ok_iff.1 hparsed
    have hmem : ∀ option ∈ options, ∃ wish ∈ wishes, Reads option wish := fun option hoption => by
      obtain ⟨wish, hzip, hwish⟩ := exists_mem_zip hwishes hoption
      exact ⟨wish, (List.of_mem_zip hzip).2, hwish⟩
    have hdirection : ∀ option ∈ options, ∀ d, Reads option (.run d) → parsed.direction = d := by
      intro option hoption d hd
      obtain ⟨wish, hwish, hreads⟩ := hmem option hoption
      obtain rfl := hd.unique hreads
      exact hgathers.direction d hwish
    refine ⟨fun option hoption => ?_, fun option hoption other hother d e hd he => ?_⟩
    · obtain ⟨wish, -, hwish⟩ := hmem option hoption
      exact ⟨wish, hwish⟩
    · exact (hdirection option hoption d hd).symm.trans (hdirection other hother e he)
  · rintro ⟨hasked, hsame⟩
    obtain ⟨wishes, hwishes⟩ := exists_wishes hasked
    have hmem : ∀ {d}, .run d ∈ wishes → ∃ option ∈ options, Reads option (.run d) := by
      intro d hd
      obtain ⟨option, hzip, hwish⟩ := exists_mem_zip hwishes.flip hd
      exact ⟨option, (List.of_mem_zip hzip).2, hwish⟩
    have hdirection : ∃ direction, (∀ d, .run d ∈ wishes → direction = d) ∧
        ((∀ d, .run d ∉ wishes) → direction = .leadingToTrailing) := by
      by_cases hrun : ∃ d, .run d ∈ wishes
      · obtain ⟨d, hd⟩ := hrun
        obtain ⟨option, hoption, hreads⟩ := hmem hd
        refine ⟨d, fun e he => ?_, fun hnone => absurd hd (hnone d)⟩
        obtain ⟨other, hother, hreads'⟩ := hmem he
        exact hsame option hoption other hother d e hreads hreads'
      · exact ⟨_, fun d hd => absurd ⟨d, hd⟩ hrun, fun _ => rfl⟩
    obtain ⟨direction, hdirection, hotherwise⟩ := hdirection
    exact ⟨⟨_, direction⟩, parse_eq_ok_iff.2 ⟨wishes, hwishes, rfl, hdirection, hotherwise⟩⟩

section

variable {asks asks' : String → Wish → Prop}

theorem Agree.congr (h : Agree asks options)
    (hsame : ∀ option ∈ options, ∀ wish, asks option wish ↔ asks' option wish) :
    Agree asks' options := by
  refine ⟨fun option hoption => ?_, fun option hoption other hother d e hd he => ?_⟩
  · obtain ⟨wish, hwish⟩ := h.1 option hoption
    exact ⟨wish, (hsame option hoption wish).1 hwish⟩
  · exact h.2 option hoption other hother d e ((hsame option hoption _).2 hd)
      ((hsame other hother _).2 he)

theorem ReadAs.congr (h : ReadAs asks format options)
    (hsame : ∀ option ∈ options, ∀ wish, asks option wish ↔ asks' option wish) :
    ReadAs asks' format options := by
  have hagree : Agree asks options ↔ Agree asks' options :=
    ⟨(·.congr hsame), (·.congr fun option hoption wish => (hsame option hoption wish).symm)⟩
  refine ⟨h.1.trans hagree, fun parsed hparsed => ?_⟩
  obtain ⟨wishes, hwishes, hgathers⟩ := h.2 parsed hparsed
  obtain ⟨hlength, hasks⟩ := List.forall₂_iff_zip.1 hwishes
  refine ⟨wishes, List.forall₂_iff_zip.2 ⟨hlength, fun hzip => ?_⟩, hgathers⟩
  exact (hsame _ (List.of_mem_zip hzip).1 _).1 (hasks hzip)

end

/-- **Options are read as they are spelled, but for marks of the other kind.** What
is read is what the options ask for, whatever mark stands before a name. That is
what they mean exactly if they are refused, or none of them is the name of an
alignment after the mark of directions, or the name of a direction after a mark of
alignments. -/
theorem readAs_means_iff (format : String) (options : List String) :
    ReadAs Reads format options ∧
      (ReadAs Means format options ↔ ∀ parsed, parse format options = .ok parsed →
        ∀ option ∈ options, ∀ wish, ¬ Mixes option wish) := by
  refine ⟨readAs_reads, fun h parsed hparsed option hoption wish => ?_, fun h => ?_⟩
  · obtain ⟨meant, hmeant⟩ := (h.1.1 ⟨parsed, hparsed⟩).1 option hoption
    exact hmeant.not_mixes
  · by_cases hmeant : ∀ option ∈ options, ∃ wish, Means option wish
    · refine readAs_reads.congr fun option hoption wish => ⟨fun hreads => ?_, fun hmeans => ?_⟩
      · obtain ⟨meant, hmeans⟩ := hmeant option hoption
        rwa [hreads.unique (reads_iff.2 (.inl hmeans))]
      · exact reads_iff.2 (.inl hmeans)
    · have hrefused : ∀ parsed, parse format options ≠ .ok parsed := by
        refine fun parsed hparsed => hmeant fun option hoption => ?_
        obtain ⟨wish, hreads⟩ := (readAs_reads.1.1 ⟨parsed, hparsed⟩).1 option hoption
        exact ⟨wish, (reads_iff.1 hreads).resolve_right (h parsed hparsed option hoption wish)⟩
      refine ⟨⟨?_, fun hasked => absurd hasked.1 hmeant⟩, fun parsed hparsed => ?_⟩
      · rintro ⟨parsed, hparsed⟩
        exact absurd hparsed (hrefused parsed)
      · exact absurd hparsed (hrefused parsed)

/-- The name of a direction after a mark of alignments is read as the direction, and
the name of an alignment after the mark of directions as the alignment. -/
theorem mixedOptions_read :
    parse "H:[a]" ["alignAllLeftToRight"] = .ok ⟨[], .leftToRight⟩ ∧
      parse "H:[a]" ["NSLayoutFormatDirectionTop"] = .ok ⟨[.top], .leadingToTrailing⟩ ∧
      (∀ wish, ¬ Means "alignAllLeftToRight" wish) ∧
      (∀ wish, ¬ Means "NSLayoutFormatDirectionTop" wish) ∧
      ¬ ReadAs Means "H:[a]" ["alignAllLeftToRight"] := by
  have hrun : Mixes "alignAllLeftToRight" (.run .leftToRight) :=
    ⟨"leftToRight", by decide, "alignAll".toList, by decide, 'L', "eftToRight".toList, by decide⟩
  have halign : Mixes "NSLayoutFormatDirectionTop" (.align .top) :=
    ⟨"top", by decide, "NSLayoutFormatDirection".toList, by decide, 'T', "op".toList, by decide⟩
  have hparse : parse "H:[a]" ["alignAllLeftToRight"] = .ok ⟨[], .leftToRight⟩ := by rfl
  refine ⟨hparse, by rfl, fun wish hmeans => hmeans.not_mixes hrun,
    fun wish hmeans => hmeans.not_mixes halign, fun h => ?_⟩
  obtain ⟨wish, hmeans⟩ := (h.1.1 ⟨_, hparse⟩).1 _ List.mem_cons_self
  exact hmeans.not_mixes hrun

end FormatOptions

end ViewMarkup
