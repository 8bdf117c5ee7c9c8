/-
# The constraints of a document are closed

To solve frames, the items of a descriptor are looked up anew: the ids in the id
table, and the superview in the tree, from the view across. For the constraints
of a rendered document this cannot go wrong, since they are closed. So frames are
refused for one reason only, a constraint that the solver refuses. Announced
changes touch neither the constraints nor what they are looked up in.

Key definitions: `OnlyUnsatisfiable`.
Key theorems: `Item.Stands.handles`, `solveFrames_onlyUnsatisfiable`,
`render_records`, `Rendered.run_plan`, `render_run_closed`.
-/
import ViewMarkup.Layout.Frames
import ViewMarkup.Layout.Simplex
import ViewMarkup.Proofs.Constraint.Closed
import ViewMarkup.Proofs.Rendered.Mirror
import ViewMarkup.Proofs.Rendered.Run

namespace ViewMarkup

/-! ### Frames -/

/-- If this fails, a constraint was refused. -/
abbrev OnlyUnsatisfiable {α : Type} (r : Except LayoutFault α) : Prop :=
  FailsWith (fun fault => ∃ constraint, fault = .unsatisfiable constraint) r

section

variable {S V : Type} {solver : Solver S} {tree : ViewTree V} {ids : IdTable} {superview : Handle}

namespace LayoutSystem

theorem require_onlyUnsatisfiable (name : String) (system : LayoutSystem S) (c : LinearConstraint) :
    OnlyUnsatisfiable (require solver name system c) := by
  unfold require
  split
  · exact .ok _
  · exact .error ⟨name, rfl⟩

theorem place_onlyUnsatisfiable (system : LayoutSystem S) (h : Handle) :
    OnlyUnsatisfiable (place solver system h) := by
  unfold place
  split
  · exact .ok _
  · exact .foldlM (fun c _ system => require_onlyUnsatisfiable _ system c) _

theorem start_onlyUnsatisfiable (width height : Double) :
    OnlyUnsatisfiable (start solver width height) := by
  refine .bind (place_onlyUnsatisfiable _ _) fun system => ?_
  split
  · exact .foldlM (fun c _ system => require_onlyUnsatisfiable _ system c) _
  · exact .error ⟨_, rfl⟩

end LayoutSystem

/-- An item that stands for something is found. -/
theorem Item.Stands.handles {item : Item} {across : Option Item}
    (h : item.Stands tree ids superview across) :
    ∃ needed found, item.handles tree ids across = .ok (needed, found) := by
  cases item with
  | view id =>
    obtain ⟨entry, hentry⟩ := Option.isSome_iff_exists.1 (Item.stands_view.1 h)
    exact ⟨[], entry.handle, by simp [Item.handles, viewOf, IdTable.handle?, hentry, Except.map]⟩
  | superview =>
    rcases across with _ | _ | id
    · exact h.elim
    · exact h.elim
    · obtain ⟨found, hfound, hparent⟩ := h
      refine ⟨[found], superview, ?_⟩
      simp only [Item.handles, viewOf, hfound, bind, Except.bind, hparent]
      rfl

namespace LayoutSystem

theorem placeItem_onlyUnsatisfiable {item : Item} {across : Option Item}
    (h : item.Stands tree ids superview across) (system : LayoutSystem S) :
    OnlyUnsatisfiable (placeItem solver tree ids system item across) := by
  obtain ⟨needed, found, hfound⟩ := h.handles
  unfold placeItem
  rw [hfound]
  exact .bind (.ok _) fun handles =>
    .bind (.foldlM (fun h _ system => place_onlyUnsatisfiable system h) system) fun _ => .ok _

theorem addDescriptor_onlyUnsatisfiable {d : Descriptor} (h : d.Closed tree ids superview)
    (system : LayoutSystem S) :
    OnlyUnsatisfiable (addDescriptor solver tree ids system d) := by
  have hfirst : OnlyUnsatisfiable (placeItem solver tree ids system d.first d.second) :=
    placeItem_onlyUnsatisfiable (h.sides _ d.first_mem_sides) system
  have hnone : ∀ system : LayoutSystem S, OnlyUnsatisfiable
      (if d.asksNothing then .ok system else .error (.unsatisfiable d.text)) := by
    intro system
    split
    · exact .ok system
    · exact .error ⟨d.text, rfl⟩
  unfold addDescriptor
  cases hd : d.right? with
  | none =>
    refine .bind hfirst fun placed => ?_
    obtain ⟨first, system⟩ := placed
    simp only [pure_bind]
    cases d.constraint? first none with
    | some c => exact require_onlyUnsatisfiable d.text system c
    | none => exact hnone system
  | some second =>
    have hitem := h.sides _ (Descriptor.second_mem_sides (Descriptor.right?_eq_some_iff.1 hd).1)
    refine .bind hfirst fun placed => ?_
    obtain ⟨first, system⟩ := placed
    refine .bind (placeItem_onlyUnsatisfiable hitem system) fun placed => ?_
    obtain ⟨handle, system⟩ := placed
    simp only [pure_bind]
    cases d.constraint? first (some (handle, second.2)) with
    | some c => exact require_onlyUnsatisfiable d.text system c
    | none => exact hnone system

end LayoutSystem

/-- Frames of closed descriptors are found, or a constraint is refused. -/
theorem solveFrames_onlyUnsatisfiable {ds : List Descriptor}
    (h : ∀ d ∈ ds, ∃ superview, d.Closed tree ids superview) (width height : Double) :
    OnlyUnsatisfiable (solveFrames solver tree ids ds width height) := by
  refine .bind (.bind (LayoutSystem.start_onlyUnsatisfiable width height) fun system =>
    .bind (.foldlM (fun d hd system => ?_) system) fun _ => .ok _) fun _ => .ok _
  obtain ⟨superview, hd⟩ := h d hd
  exact LayoutSystem.addDescriptor_onlyUnsatisfiable hd system

end

/-! ### Documents -/

variable {V : Type}

/-- The descriptors of a document are those of its specs, in order. -/
theorem resolveAll_eq {ids : IdTable} {spacing : Spacing} : ∀ {specs : List ConstraintSpec}
    {index : Nat} {ds : List Descriptor}, resolveAll ids spacing index specs = .ok ds →
      ∃ groups, List.Forall₂ (fun spec group => resolve spec ids spacing = .ok group) specs
        groups ∧ ds = groups.flatten
  | [], _, ds, h => by
    cases h
    exact ⟨[], .nil, rfl⟩
  | spec :: rest, index, ds, h => by
    obtain ⟨here, hhere, h⟩ := bind_eq_ok_iff.1 h
    obtain ⟨others, hothers, h⟩ := bind_eq_ok_iff.1 h
    cases h
    obtain ⟨groups, hgroups, rfl⟩ := resolveAll_eq hothers
    exact ⟨here :: groups, .cons (mapError_eq_ok_iff.1 hhere) hgroups, rfl⟩

/-- The constraints of a document are those of its specs. -/
theorem render_specs {registry : ViewRegistry V} {config : Config} {doc : Document}
    {data : DataSource} {r : Rendered V} (h : render registry config doc data = .ok r) :
    ∃ groups, List.Forall₂ (fun spec group => resolve spec r.ids config.spacing = .ok group)
      doc.constraints groups ∧ r.constraints = groups.flatten := by
  obtain ⟨build, -, h⟩ := bind_eq_ok_iff.1 h
  obtain ⟨constraints, hresolved, h⟩ := bind_eq_ok_iff.1 h
  cases h
  exact resolveAll_eq hresolved

/-- The id table of a document records the parents that are in its tree. -/
theorem render_records {registry : ViewRegistry V} {config : Config} {doc : Document}
    {data : DataSource} {r : Rendered V} (h : render registry config doc data = .ok r) :
    r.ids.Records r.tree := by
  obtain ⟨build, hbuild, h⟩ := bind_eq_ok_iff.1 h
  obtain ⟨constraints, -, h⟩ := bind_eq_ok_iff.1 h
  cases h
  intro id entry hentry
  obtain ⟨i, rest, n, -, -, -, hparent, -⟩ :=
    ((Builder.all_grown hbuild).mirrors.declared id entry).1 hentry
  exact hparent

namespace Rendered

/-- What frames are solved from. -/
def plan (r : Rendered V) : ViewTree Unit × IdTable × List Descriptor :=
  (r.tree.skeleton, r.ids, r.constraints)

theorem display_plan (r : Rendered V) (update : BindingUpdate) :
    (r.display update).2.plan = r.plan := by
  rcases r.display_cases update with ⟨-, hdisplay⟩ |
    ⟨node, c, view, answer, view', hn, hv, -, -, hdisplay⟩
  · rw [hdisplay]
  · have hview : r.tree.view? update.target = some view := by
      rw [ViewTree.view?, hn]
      exact hv
    rw [hdisplay]
    exact Prod.ext (ViewTree.skeleton_setView hview view') rfl

theorem refresh_plan (r : Rendered V) (result : Except MarkupError BindingUpdate) :
    (r.refresh result).2.plan = r.plan := by
  rcases r.refresh_cases result with heq | ⟨update, e, -, hshown⟩ | ⟨update, shown, -, hshown, heq⟩
  · rw [heq]
  · have hplan := r.display_plan update
    rw [hshown] at hplan
    exact hplan
  · have hplan := r.display_plan update
    rw [hshown] at hplan
    rw [heq]
    exact hplan

theorem refreshAll_plan : ∀ (results : List (Except MarkupError BindingUpdate)) (r : Rendered V),
    (r.refreshAll results).2.plan = r.plan
  | [], _ => rfl
  | result :: results, r => (refreshAll_plan results _).trans (r.refresh_plan result)

/-- Nothing that happens to a document changes what frames are solved from. -/
theorem run_plan (r : Rendered V) (events : List Event) : (r.run events).plan = r.plan :=
  run_of_invalidate (fun _ _ h => h) (fun r _ _ h => (refreshAll_plan _ r).trans h) events rfl

end Rendered

/-- **The constraints of a document are closed.** Whatever document is rendered,
with whatever registry and data, and whatever is announced afterwards: its
constraints are the descriptors of its specs, spec by spec; those of one spec are
closed over one superview, and so have a second item exactly when they have its
anchor; they mention declared ids only. With every solver and
in every size, frames are found or a constraint is unsatisfiable. -/
theorem render_run_closed {registry : ViewRegistry V} {config : Config} {doc : Document}
    {data : DataSource} {r : Rendered V} (h : render registry config doc data = .ok r)
    (events : List Rendered.Event) :
    (∃ groups, (r.run events).constraints = groups.flatten ∧
      List.Forall₂ (fun spec group => resolve spec (r.run events).ids config.spacing = .ok group ∧
        ∃ superview, ∀ d ∈ group, d.Closed (r.run events).tree (r.run events).ids superview)
        doc.constraints groups) ∧
      (∀ d ∈ (r.run events).constraints, ∀ id ∈ d.views, (r.run events).ids.contains id = true) ∧
      ∀ {S : Type} (solver : Solver S) (width height : Double) (fault : LayoutFault),
        solveFrames solver (r.run events).tree (r.run events).ids (r.run events).constraints
          width height = .error fault →
        ∃ constraint, fault = .unsatisfiable constraint := by
  obtain ⟨groups, hgroups, hflatten⟩ := render_specs h
  have hrecords := render_records h
  obtain ⟨htree, hrest⟩ := Prod.mk.inj (r.run_plan events)
  obtain ⟨hids, hconstraints⟩ := Prod.mk.inj hrest
  generalize r.run events = r' at htree hids hconstraints ⊢
  rw [← hids] at hgroups hrecords
  rw [← hconstraints] at hflatten
  have hrecords : r'.ids.Records r'.tree := by
    intro id entry hentry
    rw [← ViewTree.parent?_skeleton, htree, ViewTree.parent?_skeleton]
    exact hrecords id entry hentry
  have hgroups := hgroups.imp fun spec group hgroup =>
    And.intro hgroup (resolve_closed hrecords hgroup)
  have hclosed : ∀ d ∈ r'.constraints, ∃ superview, d.Closed r'.tree r'.ids superview := by
    intro d hd
    rw [hflatten] at hd
    obtain ⟨group, hgroup, hd⟩ := List.mem_flatten.1 hd
    obtain ⟨spec, -, -, superview, hclosed⟩ := exists_mem_zip hgroups.flip hgroup
    exact ⟨superview, hclosed d hd⟩
  refine ⟨⟨groups, hflatten, hgroups⟩, fun d hd id hid => ?_, fun solver width height =>
    solveFrames_onlyUnsatisfiable hclosed width height⟩
  obtain ⟨superview, hd⟩ := hclosed d hd
  exact hd.declared hid

/-! ### A page that is too tight -/

/-- A page with a margin of 60 above and below, and two views side by side in it. -/
def tightPage : Document where
  layout :=
    [.mk "UIView" (some "page") []
      [.mk "UILabel" (some "title") [("text", .string "#{@bind(user)}")] [],
        .mk "UIView" (some "side") [] [.mk "UILabel" (some "note") [] []]]]
  constraints :=
    [⟨"|-[title]-gap-[side(title)]-|", ["alignAllTop"], [("gap", 4)]⟩,
      ⟨"V:|-[note(>=16)]-|", [], []⟩, ⟨"V:|-60-[page(20)]-60-|", [], []⟩]

def tightPageData (user : String) : DataSource := Json.lookup (.object [("user", .string user)])

def tightPageEvents : List Rendered.Event := [.invalidate "user" (tightPageData "Bob")]

/-- In a height of 100 the margins do not fit. -/
theorem tightPage_closed : ∃ r, render .standard {} tightPage (tightPageData "Ada") = .ok r ∧
    (r.run tightPageEvents).constraints.length = 11 ∧
    solveFrames simplex (r.run tightPageEvents).tree (r.run tightPageEvents).ids
      (r.run tightPageEvents).constraints 200 100 =
        .error (.unsatisfiable "superview.bottom == page.bottom + 60") ∧
    (∃ groups, (r.run tightPageEvents).constraints = groups.flatten ∧
      List.Forall₂ (fun spec group =>
        resolve spec (r.run tightPageEvents).ids ({} : Config).spacing = .ok group ∧
        ∃ superview, ∀ d ∈ group,
          d.Closed (r.run tightPageEvents).tree (r.run tightPageEvents).ids superview)
        tightPage.constraints groups) := by
  have hrun : ((render .standard {} tightPage (tightPageData "Ada")).map fun r =>
      ((r.run tightPageEvents).constraints.length,
        (solveFrames simplex (r.run tightPageEvents).tree (r.run tightPageEvents).ids
          (r.run tightPageEvents).constraints 200 100).map fun _ => ())).toOption =
      some (11, .error (.unsatisfiable "superview.bottom == page.bottom + 60")) := by
    decide +kernel
  obtain ⟨r, hr, hfound⟩ := map_eq_ok_iff.1 (toOption_eq_some_iff.1 hrun)
  obtain ⟨hlength, hframes⟩ := Prod.mk.inj hfound
  exact ⟨r, hr, hlength, map_eq_error_iff.1 hframes, (render_run_closed hr tightPageEvents).1⟩

end ViewMarkup
