/-
# The frames of a document satisfy its constraints

The constraints of a rendered document are closed, so that each of them means
something of the frames: the superview is the parent, in the tree, of the view
across from it. With a solver that keeps its promise, the frames that come out of
a document are those of a layout that fits it, rounded. They are listed for
exactly the ids that a constraint involves. Announced changes make no difference.

Key theorems: `sortNames_perm`, `render_ids`, `solveFrames_lists`,
`render_run_solved`.
-/
import Mathlib.Data.List.Sort
import ViewMarkup.Proofs.Layout.System
import ViewMarkup.Proofs.Rendered.Closed

namespace ViewMarkup

/-! ### Names in order -/

theorem insertBy_perm {α : Type} (before : α → α → Bool) (x : α) (ys : List α) :
    (insertBy before x ys).Perm (x :: ys) := by
  induction ys with
  | nil => exact .refl _
  | cons y ys ih =>
    unfold insertBy
    split
    · exact .refl _
    · exact (ih.cons y).trans (.swap x y ys)

theorem sortNames_perm (names : List String) : (sortNames names).Perm names := by
  unfold sortNames sortByName
  induction names with
  | nil => exact .refl _
  | cons name names ih => exact (insertBy_perm _ name _).trans (ih.cons name)

/-! ### Listed frames -/

section

variable {S V : Type} {solver : Solver S} {tree : ViewTree V} {ids : IdTable}

theorem IdTable.mem_ids_of_handle? {id : String} {x : Handle} (h : ids.handle? id = some x) :
    id ∈ ids.ids := by
  obtain ⟨entry, hentry, -⟩ := Option.map_eq_some_iff.1 h
  have hmem : id ∈ ids.entries.map Prod.fst := by
    obtain ⟨_, _, hentries, -⟩ := List.lookup_eq_some_iff.1 hentry
    rw [hentries]
    simp
  exact (sortNames_perm _).mem_iff.2 hmem

/-- The frames are those of a layout, rounded, and listed for the ids whose views
have one, each once. -/
theorem solveFrames_lists {ds : List Descriptor} {width height : Double} {frames : Frames}
    (hnodup : (ids.entries.map Prod.fst).Nodup)
    (h : solveFrames solver tree ids ds width height = .ok frames) :
    ∃ layout, solveLayout solver tree ids ds width height = .ok layout ∧
      frames.root = layout.rect .root ∧ (frames.frames.map Prod.fst).Nodup ∧
      ∀ id rect, (id, rect) ∈ frames.frames ↔
        ∃ x, ids.handle? id = some x ∧ x ∈ layout.placed ∧ rect = layout.rect x := by
  obtain ⟨layout, hlayout, h⟩ := bind_eq_ok_iff.1 h
  cases h
  have hlisted : ∀ {id entry}, (do
        let h ← ids.handle? id
        if layout.placed.contains h then some (id, layout.rect h) else none) = some entry ↔
      ∃ x, ids.handle? id = some x ∧ x ∈ layout.placed ∧ (id, layout.rect x) = entry := by
    intro id entry
    simp [Option.bind_eq_some_iff]
  refine ⟨layout, hlayout, rfl, ?_, fun id rect => ?_⟩
  · refine List.pairwise_map.2 (List.Pairwise.filterMap _ ?_
      ((sortNames_perm _).nodup_iff.2 hnodup))
    intro id id' hne entry hentry entry' hentry'
    obtain ⟨x, -, -, rfl⟩ := hlisted.1 hentry
    obtain ⟨x', -, -, rfl⟩ := hlisted.1 hentry'
    exact hne
  · rw [List.mem_filterMap]
    constructor
    · rintro ⟨id', -, hentry⟩
      obtain ⟨x, hx, hplaced, heq⟩ := hlisted.1 hentry
      obtain ⟨rfl, rfl⟩ := Prod.mk.inj heq
      exact ⟨x, hx, hplaced, rfl⟩
    · rintro ⟨x, hx, hplaced, rfl⟩
      exact ⟨id, IdTable.mem_ids_of_handle? hx, hlisted.2 ⟨x, hx, hplaced, rfl⟩⟩

end

/-! ### Documents -/

variable {S V : Type} {registry : ViewRegistry V} {config : Config} {doc : Document}
  {data : DataSource} {r₀ r : Rendered V} {events : List Rendered.Event}

/-- Each id of a document is recorded once, and its root container hangs from
nothing. -/
theorem render_ids (h : render registry config doc data = .ok r) :
    (r.ids.entries.map Prod.fst).Nodup ∧ r.tree.parent? .root = none := by
  obtain ⟨build, hbuild, h⟩ := bind_eq_ok_iff.1 h
  obtain ⟨constraints, -, h⟩ := bind_eq_ok_iff.1 h
  cases h
  have hgrown := Builder.all_grown hbuild
  obtain ⟨v, hv, hbare⟩ := hgrown.root_row
  obtain ⟨-, -, hparent, -, -⟩ := ViewNode.mk.inj hbare
  refine ⟨hgrown.nodup List.nodup_nil, ?_⟩
  rw [ViewTree.parent?, hv]
  exact hparent

/-- However its views have changed, no id of a document is that of the root
container, and each constraint is closed. -/
theorem render_run_footing (h : render registry config doc data = .ok r₀)
    (hrun : r₀.run events = r) :
    (r.ids.entries.map Prod.fst).Nodup ∧ (∀ id, r.ids.handle? id ≠ some .root) ∧
      ∀ d ∈ r.constraints, ∃ superview, d.Closed r.tree r.ids superview := by
  obtain ⟨groups, hgroups, hflatten⟩ := render_specs h
  obtain ⟨hnodup, hroot⟩ := render_ids h
  have hrecords := render_records h
  obtain ⟨htree, hrest⟩ := Prod.mk.inj (hrun ▸ r₀.run_plan events)
  obtain ⟨hids, hconstraints⟩ := Prod.mk.inj hrest
  have hparent : ∀ x, r.tree.parent? x = r₀.tree.parent? x := fun x => by
    rw [← ViewTree.parent?_skeleton, htree, ViewTree.parent?_skeleton]
  rw [hids, hconstraints, hflatten]
  refine ⟨hnodup, fun id hid => ?_, fun d hd => ?_⟩
  · obtain ⟨entry, hentry, heq⟩ := Option.map_eq_some_iff.1 hid
    have hhangs := hrecords id entry hentry
    rw [heq, hroot] at hhangs
    cases hhangs
  · obtain ⟨group, hgroup, hd⟩ := List.mem_flatten.1 hd
    obtain ⟨spec, -, hresolved⟩ := exists_mem_zip hgroups.flip hgroup
    have hrecorded : r₀.ids.Records r.tree := fun id entry hentry =>
      (hparent entry.handle).trans (hrecords id entry hentry)
    obtain ⟨superview, hclosed⟩ := resolve_closed hrecorded hresolved
    exact ⟨superview, hclosed d hd⟩

/-- **Solved frames satisfy the required constraints.** Whatever document is
rendered and whatever is announced afterwards, if a solver that keeps its promise
finds frames in some size, they are those of a layout that fits, rounded: its root
has that size, no side is negative, and every required constraint is satisfied,
the superview being the parent of the view across from it. The frames are listed
for exactly the ids whose views a constraint involves, each once. -/
theorem render_run_solved {solver : Solver S} {width height : Double} {frames : Frames}
    (hsound : solver.Sound) (h : render registry config doc data = .ok r₀)
    (hrun : r₀.run events = r)
    (hframes : solveFrames solver r.tree r.ids r.constraints width height = .ok frames) :
    ∃ layout, solveLayout solver r.tree r.ids r.constraints width height = .ok layout ∧
      layout.Fits r.tree r.ids r.constraints width height ∧
      (∀ d ∈ r.constraints, ∃ superview, d.Closed r.tree r.ids superview) ∧
      frames.root = layout.rect .root ∧ (frames.frames.map Prod.fst).Nodup ∧
      ∀ id rect, (id, rect) ∈ frames.frames ↔ ∃ x, r.ids.handle? id = some x ∧
        (∃ d ∈ r.constraints, d.Involves r.tree r.ids x) ∧ rect = layout.rect x := by
  obtain ⟨hnodup, hroot, hclosed⟩ := render_run_footing h hrun
  obtain ⟨layout, hlayout, hrect, honce, hlisted⟩ := solveFrames_lists hnodup hframes
  have hpaired : ∀ d ∈ r.constraints, d.Paired := fun d hd =>
    let ⟨_, hclosed⟩ := hclosed d hd
    hclosed.paired
  have hfits := solveLayout_fits hsound hpaired hlayout
  refine ⟨layout, hlayout, hfits, hclosed, hrect, honce, fun id rect => ?_⟩
  rw [hlisted]
  refine exists_congr fun x => and_congr_right fun hx => and_congr_left fun _ => ?_
  rw [hfits.placed x]
  -- no id is that of the root container
  refine or_iff_right ?_
  rintro rfl
  exact hroot id hx

/-! ### A page of an album -/

/-- A row with a cover that would be wider than it may be, and a title below the top
of the page. Nothing is said of the last view. -/
def albumPage : Document where
  layout :=
    [.mk "UIView" (some "row") [] [.mk "UIView" (some "cover") [] []],
      .mk "UILabel" (some "title") [("text", .string "#{@bind(album)}")] [],
      .mk "UIView" (some "spare") [] []]
  constraints := [⟨"|[cover(80@500,<=40)]", [], []⟩, ⟨"V:|-10-[title(30)]", [], []⟩]

def albumData (album : String) : DataSource := Json.lookup (.object [("album", .string album)])

deriving instance DecidableEq for Frames

/-- The row has a frame as the superview of the cover. -/
def albumFrames : Frames where
  root := ⟨0, 0, 100, 50⟩
  frames := [("cover", ⟨0, 0, 40, 0⟩), ("row", ⟨0, 0, 0, 0⟩), ("title", ⟨0, 10, 0, 30⟩)]

/-- The simplex method finds these frames, whether its solutions are checked or
not. -/
theorem albumPage_solved : simplex.checked.Sound ∧
    ∃ r₀ r, render .standard {} albumPage (albumData "Blue") = .ok r₀ ∧
      r₀.run [.invalidate "album" (albumData "Hejira")] = r ∧
      solveFrames simplex r.tree r.ids r.constraints 100 50 = .ok albumFrames ∧
      solveFrames simplex.checked r.tree r.ids r.constraints 100 50 = .ok albumFrames ∧
      ∃ layout, solveLayout simplex.checked r.tree r.ids r.constraints 100 50 = .ok layout ∧
        layout.Fits r.tree r.ids r.constraints 100 50 ∧
        (∀ d ∈ r.constraints, ∃ superview, d.Closed r.tree r.ids superview) ∧
        albumFrames.root = layout.rect .root ∧ (albumFrames.frames.map Prod.fst).Nodup ∧
        ∀ id rect, (id, rect) ∈ albumFrames.frames ↔ ∃ x, r.ids.handle? id = some x ∧
          (∃ d ∈ r.constraints, d.Involves r.tree r.ids x) ∧ rect = layout.rect x := by
  have hfound : ((render .standard {} albumPage (albumData "Blue")).map fun r₀ =>
      let r := r₀.run [.invalidate "album" (albumData "Hejira")]
      ((solveFrames simplex r.tree r.ids r.constraints 100 50).toOption,
        (solveFrames simplex.checked r.tree r.ids r.constraints 100 50).toOption)).toOption =
      some (some albumFrames, some albumFrames) := by
    decide +kernel
  obtain ⟨r₀, hr, hfound⟩ := map_eq_ok_iff.1 (toOption_eq_some_iff.1 hfound)
  obtain ⟨hsimplex, hchecked⟩ := Prod.mk.inj hfound
  have hchecked := toOption_eq_some_iff.1 hchecked
  exact ⟨simplex.checked_sound, r₀, _, hr, rfl, toOption_eq_some_iff.1 hsimplex, hchecked,
    render_run_solved simplex.checked_sound hr rfl hchecked⟩

end ViewMarkup
