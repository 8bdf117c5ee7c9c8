/-
# Constraints are closed

A descriptor is closed if what it speaks of is there: its views are declared, and
across from the superview stands a view that hangs from it in the tree; and if it
is whole: an item on the right has an anchor. It is plain besides: nothing is
multiplied, and no anchor is related to one of the other axis. The descriptors of
a spec are closed, all of them over one superview.

Resolving looks at the superviews that the id table has recorded, and at names;
that they are those of the tree is asked for here (`IdTable.Records`).

Key definitions: `HangsFrom`, `Item.Stands`, `Descriptor.Paired`,
`Descriptor.Closed`.
Key theorems: `SpecContext.connect_closed`, `SpecContext.run_closed`,
`resolve_closed`.
-/
import ViewMarkup.Proofs.Constraint.Meaning

namespace ViewMarkup

variable {V : Type}

/-- The table records of every id the parent that its view has in the tree. -/
def IdTable.Records (ids : IdTable) (tree : ViewTree V) : Prop :=
  ∀ id entry, ids.entry? id = some entry → tree.parent? entry.handle = some entry.parent

/-- The view of an id is attached to this one. -/
def HangsFrom (tree : ViewTree V) (ids : IdTable) (superview : Handle) (id : String) : Prop :=
  ∃ h, ids.handle? id = some h ∧ tree.parent? h = some superview

/-- What an item stands for is there: a view is declared, and across from the
superview is a view that hangs from it. -/
def Item.Stands (tree : ViewTree V) (ids : IdTable) (superview : Handle) :
    Item → Option Item → Prop
  | .view id, _ => ids.contains id = true
  | .superview, some (.view id) => HangsFrom tree ids superview id
  | .superview, _ => False

namespace Descriptor

/-- The items of a descriptor, each with the one across from it. -/
def sides (d : Descriptor) : List (Item × Option Item) :=
  match d.second with
  | none => [(d.first, none)]
  | some item => [(d.first, some item), (item, some d.first)]

/-- There is a second item exactly when it has an anchor. -/
def Paired (d : Descriptor) : Prop := d.second.isSome = d.secondAnchor.isSome

/-- All items of the descriptor stand for something, the superview for this view. An
item on the right has an anchor, and the anchor is of the axis of the one on the
left. -/
structure Closed (tree : ViewTree V) (ids : IdTable) (superview : Handle) (d : Descriptor) :
    Prop where
  sides : ∀ side ∈ d.sides, side.1.Stands tree ids superview side.2
  paired : d.Paired
  multiplier : d.multiplier = 1
  axis : ∀ anchor, d.secondAnchor = some anchor → anchor.axis = d.firstAnchor.axis

variable {d : Descriptor} {item : Item} {anchor : Anchor}

theorem right?_eq_some_iff :
    d.right? = some (item, anchor) ↔ d.second = some item ∧ d.secondAnchor = some anchor := by
  unfold right?
  cases d.second <;> cases d.secondAnchor <;> simp

/-- Nothing of a paired descriptor is left out on the right. -/
theorem Paired.second_eq (h : d.Paired) : d.second = d.right?.map Prod.fst := by
  unfold Paired at h
  unfold right?
  cases hsecond : d.second <;> cases hanchor : d.secondAnchor <;> simp_all

theorem first_mem_sides (d : Descriptor) : (d.first, d.second) ∈ d.sides := by
  unfold sides
  cases d.second <;> exact List.mem_cons_self

theorem second_mem_sides (h : d.second = some item) : (item, some d.first) ∈ d.sides := by
  rw [sides, h]
  exact List.mem_cons_of_mem _ List.mem_cons_self

end Descriptor

variable {tree : ViewTree V} {ids : IdTable} {superview : Handle}

theorem Item.stands_view {id : String} {across : Option Item} :
    (Item.view id).Stands tree ids superview across ↔ ids.contains id = true := by
  cases across <;> exact Iff.rfl

theorem Item.stands_superview {id : String} :
    Item.superview.Stands tree ids superview (some (.view id)) ↔
      HangsFrom tree ids superview id := Iff.rfl

theorem HangsFrom.contains {id : String} (h : HangsFrom tree ids superview id) :
    ids.contains id = true := by
  obtain ⟨h, hhandle, -⟩ := h
  obtain ⟨entry, hentry, -⟩ := Option.map_eq_some_iff.1 hhandle
  rw [IdTable.contains, hentry]
  rfl

theorem IdTable.Records.hangsFrom (hrecords : ids.Records tree) {id : String} {entry : IdEntry}
    (hentry : ids.entry? id = some entry) (hparent : entry.parent = superview) :
    HangsFrom tree ids superview id := by
  refine ⟨entry.handle, ?_, (hrecords id entry hentry).trans (congrArg some hparent)⟩
  rw [handle?, hentry]
  rfl

namespace Descriptor.Closed

variable {first second : Item} {a b : Anchor} {r : Relation} {x : Double} {d : Descriptor}

theorem fixed {id : String} (hid : ids.contains id = true) (a : Anchor) (r : Relation) (x : Double) :
    (fixed (.view id) a r x).Closed tree ids superview where
  sides side hside := by
    rw [List.mem_singleton.1 hside]
    exact Item.stands_view.2 hid
  paired := rfl
  multiplier := rfl
  axis anchor h := by cases h

theorem between (hfirst : first.Stands tree ids superview (some second))
    (hsecond : second.Stands tree ids superview (some first)) (haxis : b.axis = a.axis)
    (r : Relation) (x : Double) : (between first a r second b x).Closed tree ids superview where
  sides side hside := by
    rcases List.mem_pair.1 hside with rfl | rfl
    · exact hfirst
    · exact hsecond
  paired := rfl
  multiplier := rfl
  axis anchor h := by
    cases h
    exact haxis

theorem withPriority (h : d.Closed tree ids superview) (p : Priority) :
    (d.withPriority p).Closed tree ids superview := ⟨h.sides, h.paired, h.multiplier, h.axis⟩

/-- A closed descriptor mentions declared views only. -/
theorem declared (h : d.Closed tree ids superview) {id : String} (hid : id ∈ d.views) :
    ids.contains id = true := by
  have hside : ∃ across, (Item.view id, across) ∈ d.sides := by
    obtain ⟨item, hitem, hid⟩ := List.mem_filterMap.1 hid
    obtain rfl : item = .view id := by
      cases item with
      | superview => cases hid
      | view id' => rw [Option.some.inj hid]
    rcases List.mem_cons.1 hitem with heq | hsecond
    · rw [heq]
      exact ⟨d.second, d.first_mem_sides⟩
    · exact ⟨some d.first, second_mem_sides (Option.mem_toList.1 hsecond)⟩
  obtain ⟨across, hside⟩ := hside
  exact Item.stands_view.1 (h.sides _ hside)

end Descriptor.Closed

/-! ### Clauses -/

theorem Flow.axis_eq (axis : Axis) (direction : Direction) :
    (Flow.of axis direction).finish.axis = (Flow.of axis direction).start.axis := by
  cases axis <;> cases direction <;> rfl

namespace SpecContext

variable {ctx : SpecContext} {ds : List Descriptor}

theorem connect_closed {flow : Flow} {earlier later : Item} {connection : Connection}
    (hflow : flow.finish.axis = flow.start.axis)
    (hlater : later.Stands tree ctx.ids superview (some earlier))
    (hearlier : earlier.Stands tree ctx.ids superview (some later))
    (h : ctx.connect flow earlier later connection = .ok ds) :
    ∀ d ∈ ds, d.Closed tree ctx.ids superview := by
  obtain ⟨gaps, -, h⟩ := bind_eq_ok_iff.1 h
  cases h
  intro d hd
  obtain ⟨gap, -, rfl⟩ := List.mem_map.1 hd
  refine (Descriptor.Closed.between hlater hearlier ?_ _ _).withPriority _
  split <;> split <;> simp [hflow]

theorem size_closed {axis : Axis} {view : ViewTerm} {condition : Located Predicate} {d : Descriptor}
    (hview : ctx.ids.contains view.name.value = true) (h : ctx.size axis view condition = .ok d) :
    d.Closed tree ctx.ids superview := by
  obtain ⟨p, -, h⟩ := bind_eq_ok_iff.1 h
  split at h
  · cases h
    exact (Descriptor.Closed.fixed hview _ _ _).withPriority p
  · split at h
    · cases h
      exact (Descriptor.Closed.fixed hview _ _ _).withPriority p
    · split at h
      · rename_i hname
        cases h
        exact (Descriptor.Closed.between (Item.stands_view.2 hview) (Item.stands_view.2 hname) rfl
          _ _).withPriority p
      · cases h

theorem sizes_closed {axis : Axis} {view : ViewTerm}
    (hview : ctx.ids.contains view.name.value = true) (h : ctx.sizes axis view = .ok ds) :
    ∀ d ∈ ds, d.Closed tree ctx.ids superview := by
  intro d hd
  obtain ⟨condition, -, hcondition⟩ := exists_mem_zip (mapM_eq_ok_iff.1 h).flip hd
  exact size_closed hview hcondition

/-- The parts of a format whose views are declared, and hang from one view if the
format touches the superview. -/
theorem part_closed {flow : Flow} {f : VisualFormat} {part : RowPart}
    (hflow : flow.finish.axis = flow.start.axis)
    (hviews : ∀ v ∈ f.views, ctx.ids.contains v.name.value = true)
    (hshared : f.touchesSuperview = true → ∀ v ∈ f.views,
      HangsFrom tree ctx.ids superview v.name.value)
    (hpart : part ∈ f.row) (h : ctx.part f.axis flow part = .ok ds) :
    ∀ d ∈ ds, d.Closed tree ctx.ids superview := by
  cases part with
  | view v => exact sizes_closed (hviews v (VisualFormat.view_mem_row_iff.1 hpart)) h
  | connection earlier later c =>
    cases VisualFormat.joins_of_mem_row hpart with
    | views hv hw =>
      exact connect_closed hflow (Item.stands_view.2 (hviews _ hw)) (Item.stands_view.2 (hviews _ hv))
        h
    | entering htouches hv =>
      have hhangs := hshared htouches _ hv
      exact connect_closed hflow (Item.stands_view.2 hhangs.contains)
        (Item.stands_superview.2 hhangs) h
    | leaving htouches hv =>
      have hhangs := hshared htouches _ hv
      exact connect_closed hflow (Item.stands_superview.2 hhangs)
        (Item.stands_view.2 hhangs.contains) h

theorem aligned_closed (anchor : Anchor) {views : List ViewTerm}
    (hviews : ∀ v ∈ views, ids.contains v.name.value = true) :
    ∀ d ∈ aligned anchor views, d.Closed tree ids superview := by
  intro d hd
  rw [aligned_eq] at hd
  obtain ⟨⟨view, next⟩, hneighbours, rfl⟩ := List.mem_map.1 hd
  obtain ⟨hview, hnext⟩ := List.of_mem_zip hneighbours
  exact .between (Item.stands_view.2 (hviews next (List.mem_of_mem_tail hnext)))
    (Item.stands_view.2 (hviews view hview)) rfl _ _

/-- The descriptors of a format whose views are declared, and hang from one view if
the format touches the superview. -/
theorem run_closed {flow : Flow} {format : VisualFormat} {alignments : List Anchor}
    (hflow : flow.finish.axis = flow.start.axis)
    (hviews : ∀ v ∈ format.views, ctx.ids.contains v.name.value = true)
    (hshared : format.touchesSuperview = true → ∀ v ∈ format.views,
      HangsFrom tree ctx.ids superview v.name.value)
    (h : ctx.run flow format alignments = .ok ds) :
    ∀ d ∈ ds, d.Closed tree ctx.ids superview := by
  have haligned : ∀ d ∈ alignments.flatMap (aligned · format.views),
      d.Closed tree ctx.ids superview := by
    intro d hd
    obtain ⟨anchor, -, hd⟩ := List.mem_flatMap.1 hd
    exact aligned_closed anchor hviews d hd
  obtain ⟨owns, howns, rfl⟩ := run_eq_ok_iff.1 h
  refine List.forall_mem_append.2 ⟨fun d hd => ?_, haligned⟩
  obtain ⟨own, hown, hd⟩ := List.mem_flatten.1 hd
  obtain ⟨part, hpart, h⟩ := exists_mem_zip howns.flip hown
  exact part_closed hflow hviews hshared (List.of_mem_zip hpart).2 h d hd

/-! ### Checked views -/

theorem contains_of_checkViews {touches : Bool} :
    ∀ {names : List (Located String)} {shared : Option (String × Handle)},
      ctx.checkViews touches shared names = .ok () →
      ∀ name ∈ names, ctx.ids.contains name.value = true
  | [], _, _, _, hname => by cases hname
  | name :: rest, shared, h, other, hother => by
    rw [checkViews] at h
    split at h
    · cases h
    · rename_i entry hentry
      have hrest : ∃ shared', ctx.checkViews touches shared' rest = .ok () := by
        split at h
        · exact ⟨_, h⟩
        · split at h
          · exact ⟨_, h⟩
          · split at h
            · exact ⟨_, h⟩
            · cases h
      rcases List.mem_cons.1 hother with rfl | hother
      · rw [IdTable.contains, hentry]
        rfl
      · obtain ⟨shared', hrest⟩ := hrest
        exact contains_of_checkViews hrest other hother

end SpecContext

/-- **The descriptors of a spec are closed.** They are over one superview, from
which every view hangs that is across from it. -/
theorem resolve_closed {spec : ConstraintSpec} {spacing : Spacing} {ds : List Descriptor}
    (hrecords : ids.Records tree) (h : resolve spec ids spacing = .ok ds) :
    ∃ superview, ∀ d ∈ ds, d.Closed tree ids superview := by
  obtain ⟨format, -, h⟩ := bind_eq_ok_iff.1 h
  obtain ⟨options, -, h⟩ := bind_eq_ok_iff.1 h
  split at h
  · cases h
  · obtain ⟨_, hcheck, h⟩ := bind_eq_ok_iff.1 h
    have hviews : ∀ v ∈ format.views, ids.contains v.name.value = true := fun v hv =>
      SpecContext.contains_of_checkViews hcheck v.name (List.mem_map_of_mem hv)
    have hshared : ∃ superview, format.touchesSuperview = true → ∀ v ∈ format.views,
        HangsFrom tree ids superview v.name.value := by
      by_cases htouches : format.touchesSuperview = true
      · obtain ⟨parent, -, hparent⟩ := SpecContext.shared_of_checkViews htouches hcheck
        refine ⟨parent, fun _ v hv => ?_⟩
        obtain ⟨entry, hentry, heq⟩ := hparent v.name (List.mem_map_of_mem hv)
        exact hrecords.hangsFrom hentry heq
      · exact ⟨.root, fun h => absurd h htouches⟩
    obtain ⟨superview, hshared⟩ := hshared
    exact ⟨superview, SpecContext.run_closed (Flow.axis_eq _ _) hviews hshared h⟩

end ViewMarkup
