/-
# The tree without its views

The skeleton of a tree keeps of every node its kind, its id, its parent and its
children, and of its view only that there is one. To put another state of a view
in its place leaves the skeleton as it is; to attach a node does to the skeleton
what it does to the tree. With the views the skeleton is the tree again.

Key definitions: `ViewNode.bare`, `ViewNode.adopt`, `ViewTree.skeleton`.
Key theorems: `ViewTree.skeleton_insert`, `ViewTree.skeleton_setView`,
`ViewTree.ext_of_skeleton`.
-/
import ViewMarkup.View.Tree

namespace ViewMarkup

/-! ### Lists with one member changed -/

section

variable {α β : Type}

theorem map_modify_of_comm {f : α → α} {g : β → β} {m : α → β} (hcomm : ∀ a, m (f a) = g (m a))
    (i : Nat) (l : List α) : (l.modify i f).map m = (l.map m).modify i g := by
  apply List.ext_getElem?
  intro j
  rw [List.getElem?_map, List.getElem?_modify, List.getElem?_modify, List.getElem?_map]
  cases l[j]? with
  | none => rfl
  | some a =>
    by_cases hij : i = j
    · simp [hij, hcomm]
    · simp [hij]

theorem map_modify_of_absorbed {f : α → α} {m : α → β} {i : Nat} {l : List α}
    (habsorbed : ∀ a, l[i]? = some a → m (f a) = m a) : (l.modify i f).map m = l.map m := by
  apply List.ext_getElem?
  intro j
  rw [List.getElem?_map, List.getElem?_map, List.getElem?_modify]
  cases ha : l[j]? with
  | none => rfl
  | some a =>
    by_cases hij : i = j
    · subst hij
      simp [habsorbed a ha]
    · simp [hij]

theorem modify_eq_self {f : α → α} {i : Nat} {l : List α} (h : ∀ a, l[i]? = some a → f a = a) :
    l.modify i f = l := by
  simpa using map_modify_of_absorbed (m := id) h

theorem modify_append_of_lt (f : α → α) {i : Nat} {l m : List α} (h : i < l.length) :
    (l ++ m).modify i f = l.modify i f ++ m := by
  apply List.ext_getElem?
  intro j
  rw [List.getElem?_modify, List.getElem?_append, List.getElem?_append, List.length_modify,
    List.getElem?_modify]
  by_cases hj : j < l.length
  · simp [hj]
  · have hij : i ≠ j := by omega
    simp [hj, hij]

theorem modify_append_length (f : α → α) (l : List α) (a : α) (m : List α) :
    (l ++ a :: m).modify l.length f = l ++ f a :: m := by
  induction l with
  | nil => rfl
  | cons b l ih =>
    rw [List.cons_append, List.length_cons, List.modify_succ_cons, ih, List.cons_append]

end

variable {V : Type}

/-- The node with no more of its view than that there is one. -/
def ViewNode.bare (n : ViewNode V) : ViewNode Unit :=
  ⟨n.kind, n.id, n.parent, n.children, n.view.map fun _ => ()⟩

/-- The node with more children after those it has. -/
def ViewNode.adopt (children : List Handle) (n : ViewNode V) : ViewNode V :=
  { n with children := n.children ++ children }

namespace ViewTree

/-- The tree without its views. -/
def skeleton (tree : ViewTree V) : ViewTree Unit := ⟨tree.nodes.map ViewNode.bare⟩

variable (tree : ViewTree V)

theorem size_skeleton : tree.skeleton.size = tree.size := List.length_map _

theorem node?_skeleton (h : Handle) :
    tree.skeleton.node? h = (tree.node? h).map ViewNode.bare := List.getElem?_map

theorem view?_skeleton (h : Handle) :
    tree.skeleton.view? h = (tree.view? h).map fun _ => () := by
  rw [view?, view?, node?_skeleton]
  cases tree.node? h <;> rfl

theorem parent?_skeleton (h : Handle) : tree.skeleton.parent? h = tree.parent? h := by
  rw [parent?, parent?, node?_skeleton]
  cases tree.node? h <;> rfl

theorem insert_nodes (parent : Handle) (kind : String) (id : Option String) (view : V) :
    (tree.insert parent kind id view).2.nodes =
      tree.nodes.modify parent.index (ViewNode.adopt [⟨tree.size⟩]) ++
        [⟨kind, id, some parent, [], some view⟩] := rfl

theorem skeleton_insert (parent : Handle) (kind : String) (id : Option String) (view : V) :
    (tree.insert parent kind id view).2.skeleton = (tree.skeleton.insert parent kind id ()).2 := by
  have hadopt : (tree.nodes.modify parent.index (ViewNode.adopt [⟨tree.size⟩])).map ViewNode.bare =
      tree.skeleton.nodes.modify parent.index (ViewNode.adopt [⟨tree.size⟩]) :=
    map_modify_of_comm (by intro n; rfl) parent.index tree.nodes
  have hnodes := tree.skeleton.insert_nodes parent kind id ()
  rw [size_skeleton, ← hadopt] at hnodes
  rw [skeleton, insert_nodes, List.map_append]
  exact congrArg ViewTree.mk hnodes.symm

/-- Another state of a view that is there. -/
theorem skeleton_setView {tree : ViewTree V} {h : Handle} {view : V}
    (hview : tree.view? h = some view) (view' : V) :
    (tree.setView h view').skeleton = tree.skeleton := by
  rw [skeleton, skeleton, setView]
  refine congrArg _ (map_modify_of_absorbed fun n hn => ?_)
  obtain ⟨n', hn', hv⟩ := Option.bind_eq_some_iff.1 hview
  obtain rfl := Option.some.inj (hn.symm.trans hn')
  rw [ViewNode.bare, ViewNode.bare, hv]
  rfl

/-- To put the view in place that is there changes nothing. -/
theorem setView_self {tree : ViewTree V} {h : Handle} {view : V}
    (hv : tree.view? h = some view) : tree.setView h view = tree := by
  refine congrArg ViewTree.mk (modify_eq_self fun n hn => ?_)
  obtain ⟨n', hn', hview⟩ := Option.bind_eq_some_iff.1 hv
  obtain rfl := Option.some.inj (hn.symm.trans hn')
  rw [← hview]

/-- Trees with one skeleton that hold the same views are the same. -/
theorem ext_of_skeleton {s t : ViewTree V} (hskeleton : s.skeleton = t.skeleton)
    (hviews : ∀ h, s.view? h = t.view? h) : s = t := by
  have hnodes : s.nodes = t.nodes := by
    apply List.ext_getElem?
    intro i
    have hbare : s.skeleton.node? ⟨i⟩ = t.skeleton.node? ⟨i⟩ := by rw [hskeleton]
    have hview : (s.node? ⟨i⟩).bind ViewNode.view = (t.node? ⟨i⟩).bind ViewNode.view := hviews ⟨i⟩
    rw [node?_skeleton, node?_skeleton] at hbare
    show s.node? ⟨i⟩ = t.node? ⟨i⟩
    cases hs : s.node? ⟨i⟩ with
    | none =>
      rw [hs] at hbare
      exact (Option.map_eq_none_iff.1 hbare.symm).symm
    | some m =>
      rw [hs] at hbare hview
      obtain ⟨n, hn, hmn⟩ := Option.map_eq_some_iff.1 hbare.symm
      rw [hn] at hview ⊢
      obtain ⟨kind, id, parent, children, view⟩ := m
      obtain ⟨kind', id', parent', children', view'⟩ := n
      simp only [ViewNode.bare, ViewNode.mk.injEq] at hmn
      obtain ⟨rfl, rfl, rfl, rfl, -⟩ := hmn
      obtain rfl : view = view' := hview
      rfl
  cases s
  cases t
  exact congrArg _ hnodes

end ViewTree

end ViewMarkup
