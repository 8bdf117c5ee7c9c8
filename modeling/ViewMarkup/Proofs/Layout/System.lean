/-
# How a layout is set up

Whatever a system does, it takes up constraints, one after the other, and gives
views frames, each with the constraints of a frame. So one system grows from
another by a list of constraints and by some views; growth composes, and the
system of a document has grown from the empty one by what the root, its
descriptors and their views ask for.

That is all there is to know about it for a solver that keeps its promise, to
satisfy every required constraint it has taken up.

Key definitions: `Solver.Sound`, `LayoutSystem.Grows`, `Descriptor.Involves`,
`Descriptor.Satisfied`, `Layout.placement`, `Layout.Fits`.
Key theorems: `LayoutSystem.addDescriptor_grows`, `solveLayout_grows`,
`solveLayout_fits`.
-/
import ViewMarkup.Proofs.Constraint.Closed
import ViewMarkup.Proofs.Layout.Linear

namespace ViewMarkup

/-! ### Solvers -/

namespace Solver

variable {S : Type} (solver : Solver S)

/-- Takes up constraints, one after the other. -/
def takeAll (constraints : List LinearConstraint) (state : S) : Option S :=
  constraints.foldlM (fun state c => solver.add c state) state

/-- The required ones among these constraints hold of the solution. -/
def Satisfies (constraints : List LinearConstraint) (state : S) : Prop :=
  ∀ c ∈ constraints, c.strength = .required → c.Holds (valueIn (solver.solution state))

/-- What a solver promises: its solution satisfies the constraints that it has taken
up, if they are required. -/
def Sound : Prop :=
  ∀ constraints state, solver.takeAll constraints solver.empty = some state →
    solver.Satisfies constraints state

variable {solver}

theorem takeAll_append {first second : List LinearConstraint} {a b c : S}
    (hfirst : solver.takeAll first a = some b) (hsecond : solver.takeAll second b = some c) :
    solver.takeAll (first ++ second) a = some c := by
  rw [takeAll, List.foldlM_append]
  exact Option.bind_eq_some_iff.2 ⟨b, hfirst, hsecond⟩

instance (c : LinearConstraint) (values : Unknown → Rat) : Decidable (c.Holds values) :=
  match c with
  | ⟨e, .equal, _⟩ => inferInstanceAs (Decidable (e.eval values = 0))
  | ⟨e, .atLeast, _⟩ => inferInstanceAs (Decidable (0 ≤ e.eval values))
  | ⟨e, .atMost, _⟩ => inferInstanceAs (Decidable (e.eval values ≤ 0))

instance (constraints : List LinearConstraint) (state : S) :
    Decidable (solver.Satisfies constraints state) :=
  inferInstanceAs (Decidable (∀ c ∈ constraints, c.strength = .required →
    c.Holds (valueIn (solver.solution state))))

/-- The solver that remembers its constraints and refuses one if its solution is
wrong with it. -/
def checked (solver : Solver S) : Solver (List LinearConstraint × S) where
  empty := ([], solver.empty)
  add c state := (solver.add c state.2).bind fun next =>
    if solver.Satisfies (c :: state.1) next then some (c :: state.1, next) else none
  solution state := solver.solution state.2

/-- What is taken up is remembered, and what is remembered is satisfied. -/
theorem checked_takeAll : ∀ {cs : List LinearConstraint} {state state' : List LinearConstraint × S},
    solver.checked.takeAll cs state = some state' → solver.Satisfies state.1 state.2 →
      solver.Satisfies state'.1 state'.2 ∧ state.1 ⊆ state'.1 ∧ cs ⊆ state'.1
  | [], _, _, h, hstate => by
    cases h
    exact ⟨hstate, List.Subset.refl _, List.nil_subset _⟩
  | c :: cs, state, state', h, _ => by
    obtain ⟨next, hnext, h⟩ := Option.bind_eq_some_iff.1 h
    obtain ⟨added, -, hnext⟩ := Option.bind_eq_some_iff.1 hnext
    split at hnext
    · next hsatisfies =>
      cases hnext
      obtain ⟨hstate', hkept, htaken⟩ := checked_takeAll h hsatisfies
      have hbefore : state.1 ⊆ state'.1 := fun x hx => hkept (List.mem_cons_of_mem _ hx)
      exact ⟨hstate', hbefore, List.cons_subset.2 ⟨hkept List.mem_cons_self, htaken⟩⟩
    · cases hnext

/-- Any solver that checks its solutions keeps its promise. -/
theorem checked_sound (solver : Solver S) : solver.checked.Sound := by
  intro cs state h c hc
  obtain ⟨hstate, -, htaken⟩ := checked_takeAll h fun _ hc => absurd hc List.not_mem_nil
  exact hstate c (htaken hc)

end Solver

/-! ### Growth -/

variable {S V : Type} {solver : Solver S} {tree : ViewTree V} {ids : IdTable}

namespace LayoutSystem

/-- The one system comes to be the other by taking up these constraints and giving
these views frames, unless they have one. -/
structure Grows (solver : Solver S) (taken : List LinearConstraint) (views : Handle → Prop)
    (system system' : LayoutSystem S) : Prop where
  state : solver.takeAll taken system.state = some system'.state
  placed : ∀ h, h ∈ system'.placed ↔ h ∈ system.placed ∨ views h
  framed : ∀ h, views h → h ∈ system.placed ∨ frameConstraints h ⊆ taken

namespace Grows

variable {taken taken' : List LinearConstraint} {views views' : Handle → Prop}
  {a b c : LayoutSystem S}

theorem refl (system : LayoutSystem S) : Grows solver [] (fun _ => False) system system :=
  ⟨rfl, fun _ => by rw [or_false], fun _ h => h.elim⟩

theorem trans (h : Grows solver taken views a b) (h' : Grows solver taken' views' b c) :
    Grows solver (taken ++ taken') (fun h => views h ∨ views' h) a c where
  state := Solver.takeAll_append h.state h'.state
  placed x := by rw [h'.placed, h.placed, or_assoc]
  framed x hx := by
    have hfirst : views x → x ∈ a.placed ∨ frameConstraints x ⊆ taken ++ taken' := fun hx =>
      (h.framed x hx).imp_right fun hsub => List.subset_append_of_subset_left _ hsub
    rcases hx with hx | hx
    · exact hfirst hx
    · rcases h'.framed x hx with hplaced | hsub
      · exact ((h.placed x).1 hplaced).elim Or.inl hfirst
      · exact Or.inr (List.subset_append_of_subset_right _ hsub)

theorem congr (h : Grows solver taken views a b) (hviews : ∀ x, views x ↔ views' x) :
    Grows solver taken views' a b := by
  have heq : views = views' := funext fun x => propext (hviews x)
  rw [← heq]
  exact h

end Grows

/-- A list of steps grows a system by what they do together. What they ask of the
constraints taken up must not be lost when there are more. -/
theorem foldlM_grows {ε α : Type} {f : LayoutSystem S → α → Except ε (LayoutSystem S)}
    {views : α → Handle → Prop} {asks : α → List LinearConstraint → Prop}
    (hmono : ∀ x {taken taken'}, taken ⊆ taken' → asks x taken → asks x taken') :
    ∀ {xs : List α} {a b : LayoutSystem S},
      (∀ x ∈ xs, ∀ {a b}, f a x = .ok b →
        ∃ taken, Grows solver taken (views x) a b ∧ asks x taken) →
      xs.foldlM f a = .ok b →
      ∃ taken, Grows solver taken (fun h => ∃ x ∈ xs, views x h) a b ∧ ∀ x ∈ xs, asks x taken
  | [], a, _, _, h => by
    cases h
    refine ⟨[], (Grows.refl a).congr fun h => ?_, fun _ hx => absurd hx List.not_mem_nil⟩
    simp
  | x :: xs, a, b, hstep, h => by
    rw [List.foldlM_cons] at h
    obtain ⟨next, hnext, h⟩ := bind_eq_ok_iff.1 h
    obtain ⟨taken, hgrows, hasks⟩ := hstep x List.mem_cons_self hnext
    obtain ⟨taken', hgrows', hasks'⟩ :=
      foldlM_grows hmono (fun y hy => hstep y (List.mem_cons_of_mem _ hy)) h
    refine ⟨taken ++ taken', (hgrows.trans hgrows').congr fun h => ?_, fun y hy => ?_⟩
    · simp only [List.mem_cons, exists_eq_or_imp]
    · rcases List.mem_cons.1 hy with rfl | hy
      · exact hmono y (List.subset_append_left _ _) hasks
      · exact hmono y (List.subset_append_right _ _) (hasks' y hy)

theorem require_eq_ok_iff {name : String} {c : LinearConstraint} {a b : LayoutSystem S} :
    require solver name a c = .ok b ↔ ∃ state, solver.add c a.state = some state ∧
      b = { a with state } := by
  unfold require
  cases solver.add c a.state <;> simp [eq_comm]

theorem foldlM_require {name : String} : ∀ {cs : List LinearConstraint} {a b : LayoutSystem S},
    cs.foldlM (require solver name) a = .ok b →
      solver.takeAll cs a.state = some b.state ∧ b.placed = a.placed
  | [], _, _, h => by
    cases h
    exact ⟨rfl, rfl⟩
  | c :: cs, a, b, h => by
    rw [List.foldlM_cons] at h
    obtain ⟨next, hnext, h⟩ := bind_eq_ok_iff.1 h
    obtain ⟨state, hstate, rfl⟩ := require_eq_ok_iff.1 hnext
    obtain ⟨hall, hplaced⟩ := foldlM_require h
    exact ⟨Option.bind_eq_some_iff.2 ⟨state, hstate, hall⟩, hplaced⟩

theorem foldlM_require_grows {name : String} {cs : List LinearConstraint} {a b : LayoutSystem S}
    (h : cs.foldlM (require solver name) a = .ok b) : Grows solver cs (fun _ => False) a b := by
  obtain ⟨hstate, hplaced⟩ := foldlM_require h
  exact ⟨hstate, fun x => by rw [hplaced, or_false], fun _ h => h.elim⟩

theorem place_grows {h : Handle} {a b : LayoutSystem S} (hplace : place solver a h = .ok b) :
    ∃ taken, Grows solver taken (· = h) a b := by
  unfold place at hplace
  split at hplace
  · next hmem =>
    have hmem : h ∈ a.placed := List.contains_iff_mem.1 hmem
    cases hplace
    refine ⟨[], rfl, fun x => ⟨Or.inl, ?_⟩, ?_⟩
    · rintro (hx | rfl)
      · exact hx
      · exact hmem
    · rintro x rfl
      exact Or.inl hmem
  · obtain ⟨hstate, hplaced⟩ := foldlM_require hplace
    refine ⟨frameConstraints h, hstate, fun x => ?_, ?_⟩
    · rw [hplaced, List.mem_cons, or_comm]
    · rintro x rfl
      exact Or.inr (List.Subset.refl _)

theorem start_grows {width height : Double} {b : LayoutSystem S}
    (h : start solver width height = .ok b) :
    ∃ w hgt taken, width.value? = some w ∧ height.value? = some hgt ∧
      Grows solver taken (· = .root) ⟨solver.empty, []⟩ b ∧ rootConstraints w hgt ⊆ taken := by
  obtain ⟨next, hplace, h⟩ := bind_eq_ok_iff.1 h
  obtain ⟨taken, hgrows⟩ := place_grows hplace
  split at h
  · next w hgt hw hh =>
    refine ⟨w, hgt, taken ++ rootConstraints w hgt, hw, hh, ?_, List.subset_append_right _ _⟩
    exact (hgrows.trans (foldlM_require_grows h)).congr fun _ => by rw [or_false]
  · cases h

end LayoutSystem

/-! ### Descriptors -/

/-- An item stands for a view; the superview is the parent of the view across from
it. -/
def Item.StandsFor (tree : ViewTree V) (ids : IdTable) : Item → Option Item → Handle → Prop
  | .view id, _, h => ids.handle? id = some h
  | .superview, some (.view id), h => HangsFrom tree ids h id
  | .superview, _, _ => False

/-- The views that an item involves: the superview also the view across from it. -/
def Item.Involves (tree : ViewTree V) (ids : IdTable) : Item → Option Item → Handle → Prop
  | .view id, _, h => ids.handle? id = some h
  | .superview, some (.view id), h => ids.handle? id = some h ∨ HangsFrom tree ids h id
  | .superview, _, _ => False

/-- What is found for an item is the view it stands for, after the others that it
involves. -/
theorem Item.standsFor_of_handles {item : Item} {across : Option Item} {needed : List Handle}
    {h : Handle} (hfound : item.handles tree ids across = .ok (needed, h)) :
    item.StandsFor tree ids across h ∧
      ∀ x, x ∈ needed ++ [h] ↔ item.Involves tree ids across x := by
  have hview : ∀ {id x}, viewOf ids id = .ok x → ids.handle? id = some x := by
    intro id x hx
    unfold viewOf at hx
    split at hx
    · next hid =>
      cases hx
      exact hid
    · cases hx
  cases item with
  | view id =>
    obtain ⟨x, hx, heq⟩ := map_eq_ok_iff.1 hfound
    cases heq
    have hid := hview hx
    exact ⟨hid, fun y => by simp [Involves, hid, eq_comm]⟩
  | superview =>
    rcases across with _ | _ | id
    · cases hfound
    · cases hfound
    · obtain ⟨x, hx, hparent⟩ := bind_eq_ok_iff.1 hfound
      have hid := hview hx
      split at hparent
      · next parent hparent' =>
        cases hparent
        exact ⟨⟨x, hid, hparent'⟩, fun y => by
          simp [Involves, HangsFrom, hid, hparent', eq_comm]⟩
      · cases hparent

namespace Descriptor

/-- The descriptor mentions the view, or it mentions the superview and the view is
that of a view it mentions. -/
def Involves (tree : ViewTree V) (ids : IdTable) (d : Descriptor) (h : Handle) : Prop :=
  (∃ id ∈ d.views, ids.handle? id = some h) ∨
    (d.first = .superview ∨ d.second = some .superview) ∧
      ∃ id ∈ d.views, HangsFrom tree ids h id

theorem involves_iff {d : Descriptor} {h : Handle} :
    d.Involves tree ids h ↔ ∃ side ∈ d.sides, side.1.Involves tree ids side.2 h := by
  obtain ⟨first, a, r, second, b, m, k, p⟩ := d
  rcases first with _ | id <;> rcases second with _ | _ | id' <;>
    simp [Involves, views, sides, Item.id?, Item.Involves]
  exact Or.inl

/-- The views that the items of the descriptor stand for. -/
def Reads (tree : ViewTree V) (ids : IdTable) (d : Descriptor) (first : Handle)
    (second : Option (Handle × Anchor)) : Prop :=
  d.first.StandsFor tree ids d.second first ∧
    Option.Rel (fun side view => side.1.StandsFor tree ids (some d.first) view.1 ∧
      side.2 = view.2) d.right? second

/-- The constraint of the descriptor is among these, unless it asks for nothing. -/
def AskedIn (tree : ViewTree V) (ids : IdTable) (taken : List LinearConstraint) (d : Descriptor) :
    Prop :=
  d.asksNothing = true ∨ ∃ first second c, d.Reads tree ids first second ∧
    d.constraint? first second = some c ∧ c ∈ taken

theorem AskedIn.mono {d : Descriptor} {taken taken' : List LinearConstraint}
    (h : d.AskedIn tree ids taken) (hsub : taken ⊆ taken') : d.AskedIn tree ids taken' :=
  h.imp_right fun ⟨first, second, c, hreads, hc, hmem⟩ =>
    ⟨first, second, c, hreads, hc, hsub hmem⟩

end Descriptor

namespace LayoutSystem

theorem placeItem_grows {item : Item} {across : Option Item} {h : Handle} {a b : LayoutSystem S}
    (hplace : placeItem solver tree ids a item across = .ok (h, b)) :
    item.StandsFor tree ids across h ∧
      ∃ taken, Grows solver taken (item.Involves tree ids across) a b := by
  obtain ⟨⟨needed, found⟩, hfound, hplace⟩ := bind_eq_ok_iff.1 hplace
  obtain ⟨next, hnext, hplace⟩ := bind_eq_ok_iff.1 hplace
  cases hplace
  obtain ⟨hstands, hinvolved⟩ := Item.standsFor_of_handles hfound
  have hgrows : ∃ taken, Grows solver taken (fun x => ∃ y ∈ needed ++ [h], x = y) a b ∧
      ∀ y ∈ needed ++ [h], (fun _ _ => True) y taken := by
    refine foldlM_grows (fun _ _ _ _ h => h) (fun y _ a b hplace => ?_) hnext
    obtain ⟨taken, hgrows⟩ := place_grows hplace
    exact ⟨taken, hgrows, trivial⟩
  obtain ⟨taken, hgrows, -⟩ := hgrows
  refine ⟨hstands, taken, hgrows.congr fun x => ?_⟩
  rw [← hinvolved x]
  simp

/-- The constraint of a descriptor is taken up, or there is none. -/
theorem askFor_grows {d : Descriptor} {first : Handle} {second : Option (Handle × Anchor)}
    {a b : LayoutSystem S} (hreads : d.Reads tree ids first second)
    (h : (match d.constraint? first second with
      | some c => require solver d.text a c
      | none => if d.asksNothing then return a else throw (LayoutFault.unsatisfiable d.text)) =
        .ok b) :
    ∃ taken, Grows solver taken (fun _ => False) a b ∧ d.AskedIn tree ids taken := by
  split at h
  · next c hc =>
    have hall : [c].foldlM (require solver d.text) a = .ok b := by
      rw [List.foldlM_cons, h]
      rfl
    exact ⟨[c], foldlM_require_grows hall,
      Or.inr ⟨first, second, c, hreads, hc, List.mem_singleton_self c⟩⟩
  · split at h
    · next hnothing =>
      cases h
      exact ⟨[], Grows.refl _, Or.inl hnothing⟩
    · cases h

/-- A descriptor is taken up with the views it involves and no others. -/
theorem addDescriptor_grows {d : Descriptor} {a b : LayoutSystem S} (hpaired : d.Paired)
    (h : addDescriptor solver tree ids a d = .ok b) :
    ∃ taken, Grows solver taken (d.Involves tree ids) a b ∧ d.AskedIn tree ids taken := by
  obtain ⟨⟨first, next⟩, hfirst, h⟩ := bind_eq_ok_iff.1 h
  obtain ⟨hstands, taken, hgrows⟩ := placeItem_grows hfirst
  have hsecond := hpaired.second_eq
  cases hd : d.right? with
  | none =>
    rw [hd] at hsecond
    simp only [hd, pure_bind] at h
    have hreads : d.Reads tree ids first none := ⟨hstands, by rw [hd]; exact .none⟩
    obtain ⟨taken', hgrows', hasked⟩ := askFor_grows hreads h
    refine ⟨taken ++ taken', (hgrows.trans hgrows').congr fun x => ?_,
      hasked.mono (List.subset_append_right _ _)⟩
    simp [Descriptor.involves_iff, Descriptor.sides, hsecond]
  | some side =>
    obtain ⟨item, anchor⟩ := side
    rw [hd] at hsecond
    simp only [hd, pure_bind] at h
    obtain ⟨⟨second, last⟩, hplace, h⟩ := bind_eq_ok_iff.1 h
    obtain ⟨hstands', taken', hgrows'⟩ := placeItem_grows hplace
    have hreads : d.Reads tree ids first (some (second, anchor)) :=
      ⟨hstands, by rw [hd]; exact .some ⟨hstands', rfl⟩⟩
    obtain ⟨taken'', hgrows'', hasked⟩ := askFor_grows hreads h
    refine ⟨_, ((hgrows.trans hgrows').trans hgrows'').congr fun x => ?_,
      hasked.mono (List.subset_append_right _ _)⟩
    simp [Descriptor.involves_iff, Descriptor.sides, hsecond]

end LayoutSystem

/-- What a layout solves: the constraints of the root, of the views involved and of
the descriptors. -/
theorem solveLayout_grows {ds : List Descriptor} {width height : Double} {layout : Layout}
    (hpaired : ∀ d ∈ ds, d.Paired)
    (h : solveLayout solver tree ids ds width height = .ok layout) :
    ∃ w hgt taken state, width.value? = some w ∧ height.value? = some hgt ∧
      solver.takeAll taken solver.empty = some state ∧ layout.values = solver.solution state ∧
      LayoutSystem.rootConstraints w hgt ⊆ taken ∧ (∀ d ∈ ds, d.AskedIn tree ids taken) ∧
      (∀ x ∈ layout.placed, LayoutSystem.frameConstraints x ⊆ taken) ∧
      ∀ x, x ∈ layout.placed ↔ x = .root ∨ ∃ d ∈ ds, d.Involves tree ids x := by
  obtain ⟨started, hstart, h⟩ := bind_eq_ok_iff.1 h
  obtain ⟨ended, hend, h⟩ := bind_eq_ok_iff.1 h
  cases h
  obtain ⟨w, hgt, taken, hw, hh, hgrows, hroot⟩ := LayoutSystem.start_grows hstart
  have hstep : ∀ d ∈ ds, ∀ {a b}, LayoutSystem.addDescriptor solver tree ids a d = .ok b →
      ∃ taken, LayoutSystem.Grows solver taken (d.Involves tree ids) a b ∧
        d.AskedIn tree ids taken := fun d hd _ _ =>
    LayoutSystem.addDescriptor_grows (hpaired d hd)
  obtain ⟨taken', hgrows', hasked⟩ :=
    LayoutSystem.foldlM_grows (fun _ _ _ hsub hasked => hasked.mono hsub) hstep hend
  have hall := hgrows.trans hgrows'
  have hplaced : ∀ x, x ∈ ended.placed ↔ x = .root ∨ ∃ d ∈ ds, d.Involves tree ids x := by
    intro x
    rw [hall.placed]
    exact or_iff_right List.not_mem_nil
  refine ⟨w, hgt, taken ++ taken', ended.state, hw, hh, hall.state, rfl,
    List.subset_append_of_subset_left _ hroot,
    fun d hd => (hasked d hd).mono (List.subset_append_right _ _), fun x hx => ?_, hplaced⟩
  exact (hall.framed x ((hplaced x).1 hx)).resolve_left List.not_mem_nil

/-! ### Solutions -/

/-- The placement satisfies the descriptor, or its bound is infinite and nothing
exceeds that. -/
def Descriptor.Satisfied (d : Descriptor) (placement : Placement) : Prop :=
  d.Holds placement ∨ d.relation = .atMost ∧ d.constant = .infinite false ∨
    d.relation = .atLeast ∧ d.constant = .infinite true

namespace Layout

/-- The frame of a view, not rounded. -/
def frame (layout : Layout) (h : Handle) : Frame := frameAt (Solver.valueIn layout.values) h

/-- The frames of the ids, across from views of this superview. -/
def placement (layout : Layout) (ids : IdTable) (superview : Handle) : Placement where
  superview := layout.frame superview
  view id := ((ids.handle? id).map layout.frame).getD ⟨0, 0, 0, 0⟩

variable {layout : Layout} {superview : Handle}

theorem placement_frame {item : Item} {across : Option Item} {h : Handle}
    (hstands : item.Stands tree ids superview across) (hfor : item.StandsFor tree ids across h) :
    (layout.placement ids superview).frame item = layout.frame h := by
  cases item with
  | view id =>
    have hid : ids.handle? id = some h := hfor
    simp [Placement.frame, placement, hid]
  | superview =>
    rcases across with _ | _ | id
    · exact hfor.elim
    · exact hfor.elim
    · obtain ⟨x, hx, hparent⟩ := hstands
      obtain ⟨y, hy, hparent'⟩ := hfor
      obtain rfl := Option.some.inj (hx.symm.trans hy)
      obtain rfl := Option.some.inj (hparent.symm.trans hparent')
      rfl

end Layout

namespace Descriptor

variable {d : Descriptor}

theorem bound_of_asksNothing (h : d.asksNothing = true) :
    d.relation = .atMost ∧ d.constant = .infinite false ∨
      d.relation = .atLeast ∧ d.constant = .infinite true := by
  have hbound := (Bool.and_eq_true _ _ ▸ h : _ ∧ _).2
  split at hbound
  · next hr hc => exact Or.inl ⟨hr, hc⟩
  · next hr hc => exact Or.inr ⟨hr, hc⟩
  · cases hbound

theorem strength_of_constraint? {first : Handle} {second : Option (Handle × Anchor)}
    {c : LinearConstraint} (hc : d.constraint? first second = some c)
    (hrequired : Priority.isRequired d.priority = true) : c.strength = .required := by
  obtain ⟨right, -, hc⟩ := Option.bind_eq_some_iff.1 hc
  cases hc
  exact if_pos hrequired

/-- A required descriptor is satisfied where the constraints hold that it is among. -/
theorem AskedIn.satisfied {taken : List LinearConstraint} {layout : Layout} {superview : Handle}
    (h : d.AskedIn tree ids taken) (hclosed : d.Closed tree ids superview)
    (hrequired : Priority.isRequired d.priority = true)
    (hholds : ∀ c ∈ taken, c.strength = .required → c.Holds (Solver.valueIn layout.values)) :
    d.Satisfied (layout.placement ids superview) := by
  obtain hnothing | ⟨first, second, c, ⟨hfirst, hsecond⟩, hc, hmem⟩ := h
  · exact Or.inr (bound_of_asksNothing hnothing)
  have hm : d.multiplier.value? = some 1 := by
    rw [hclosed.multiplier]
    exact value?_one
  have hframe : (layout.placement ids superview).frame d.first =
      frameAt (Solver.valueIn layout.values) first :=
    Layout.placement_frame (hclosed.sides _ d.first_mem_sides) hfirst
  have hframes : d.right?.map
        (fun side => ((layout.placement ids superview).frame side.1, side.2)) =
      second.map fun side => (frameAt (Solver.valueIn layout.values) side.1, side.2) := by
    cases hd : d.right? with
    | none =>
      rw [hd] at hsecond
      cases hsecond
      rfl
    | some side =>
      rw [hd] at hsecond
      obtain ⟨hstands, hanchor⟩ | - := hsecond
      have hside := hclosed.sides _ (second_mem_sides (right?_eq_some_iff.1 hd).1)
      exact congrArg some (Prod.ext (Layout.placement_frame hside hstands) hanchor)
  exact Or.inl ((constraint?_holds_iff hm hc hframe hframes).1
    (hholds c hmem (strength_of_constraint? hc hrequired)))

end Descriptor

/-- The frames of a layout, not rounded, are what the document asks for. -/
structure Layout.Fits (layout : Layout) (tree : ViewTree V) (ids : IdTable) (ds : List Descriptor)
    (width height : Double) : Prop where
  /-- The root is at the origin and has the size asked for. -/
  root : ∃ w hgt, width.value? = some w ∧ height.value? = some hgt ∧
    layout.frame .root = ⟨0, 0, w, hgt⟩
  placed : ∀ x, x ∈ layout.placed ↔ x = .root ∨ ∃ d ∈ ds, d.Involves tree ids x
  nonneg : ∀ x ∈ layout.placed, 0 ≤ (layout.frame x).width ∧ 0 ≤ (layout.frame x).height
  required : ∀ d ∈ ds, Priority.isRequired d.priority = true → ∀ superview,
    d.Closed tree ids superview → d.Satisfied (layout.placement ids superview)

/-- **A layout is what was asked for.** Whatever paired descriptors a solver that
keeps its promise has solved: the root is where it should be, exactly the views that a
descriptor involves have frames besides, no side is negative, and every required
descriptor that is closed over a superview is satisfied. -/
theorem solveLayout_fits {ds : List Descriptor} {width height : Double} {layout : Layout}
    (hsound : solver.Sound) (hpaired : ∀ d ∈ ds, d.Paired)
    (h : solveLayout solver tree ids ds width height = .ok layout) :
    layout.Fits tree ids ds width height := by
  obtain ⟨w, hgt, taken, state, hw, hh, htaken, hvalues, hroot, hasked, hframed, hplaced⟩ :=
    solveLayout_grows hpaired h
  have hholds : ∀ c ∈ taken, c.strength = .required → c.Holds (Solver.valueIn layout.values) := by
    rw [hvalues]
    exact hsound taken state htaken
  have hpinned : ∀ part q,
      (part, q) ∈ [(FramePart.left, 0), (.top, 0), (.width, w), (.height, hgt)] →
      Solver.valueIn layout.values ⟨.root, part⟩ = q := by
    intro part q hmem
    have hzero := hholds _ (hroot (List.mem_map_of_mem hmem)) rfl
    simpa [LinearConstraint.Holds, sub_eq_zero] using hzero
  have hside : ∀ x ∈ layout.placed, ∀ part ∈ [FramePart.width, .height],
      0 ≤ Solver.valueIn layout.values ⟨x, part⟩ := by
    intro x hx part hmem
    have hnonneg := hholds _
      (hframed x hx (List.mem_append_left _ (List.mem_map_of_mem hmem))) rfl
    simpa [LinearConstraint.Holds] using hnonneg
  refine ⟨⟨w, hgt, hw, hh, ?_⟩, hplaced, fun x hx => ?_, fun d hd hrequired superview hclosed =>
    (hasked d hd).satisfied hclosed hrequired hholds⟩
  · rw [Layout.frame, frameAt, hpinned .left 0 (by simp), hpinned .top 0 (by simp),
      hpinned .width w (by simp), hpinned .height hgt (by simp)]
  · exact ⟨hside x hx .width (by simp), hside x hx .height (by simp)⟩

end ViewMarkup
