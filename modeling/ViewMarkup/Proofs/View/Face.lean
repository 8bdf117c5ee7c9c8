/-
# What a handle shows

The face of a handle is the kind of its node and the view the node holds. To
attach a node gives a new handle a face and changes no other; to put a view in
its place changes the face of that handle alone.

Key definitions: `ViewTree.face?`.
Key theorems: `ViewTree.face?_insert_of_lt`, `ViewTree.face?_insert_self`,
`ViewTree.face?_setView_self`, `ViewTree.face?_setView_ne`.
-/
import ViewMarkup.View.Tree

namespace ViewMarkup.ViewTree

variable {V : Type} (tree : ViewTree V)

/-- The kind of a node and its view. The root container has no view. -/
def face? (h : Handle) : Option (String × V) :=
  (tree.node? h).bind fun n => n.view.map fun view => (n.kind, view)

theorem face?_eq_some_iff {tree : ViewTree V} {h kind view} :
    tree.face? h = some (kind, view) ↔
      ∃ n, tree.node? h = some n ∧ n.kind = kind ∧ n.view = some view := by
  simp only [face?, Option.bind_eq_some_iff, Option.map_eq_some_iff, Prod.mk.injEq]
  constructor
  · rintro ⟨n, hn, v, hv, hk, rfl⟩
    exact ⟨n, hn, hk, hv⟩
  · rintro ⟨n, hn, hk, hv⟩
    exact ⟨n, hn, view, hv, hk, rfl⟩

theorem face?_insert_self (parent : Handle) (kind : String) (id : Option String) (view : V) :
    (tree.insert parent kind id view).2.face? ⟨tree.size⟩ = some (kind, view) := by
  refine face?_eq_some_iff.2 ⟨⟨kind, id, some parent, [], some view⟩, ?_, rfl, rfl⟩
  simp [insert, node?, size]

theorem face?_insert_of_lt (parent : Handle) (kind : String) (id : Option String) (view : V)
    {h : Handle} (hlt : h.index < tree.size) :
    (tree.insert parent kind id view).2.face? h = tree.face? h := by
  have hl : h.index < tree.nodes.length := hlt
  simp only [insert, face?, node?]
  rw [List.getElem?_append_left (by rw [List.length_modify]; exact hl)]
  by_cases hp : parent.index = h.index
  · -- the parent gets a child, which its face does not show
    rw [hp, List.getElem?_modify_eq]
    cases tree.nodes[h.index]? <;> rfl
  · rw [List.getElem?_modify_ne _ _ hp]

theorem lt_size_of_face? {tree : ViewTree V} {h : Handle} {face}
    (hf : tree.face? h = some face) : h.index < tree.size := by
  obtain ⟨n, hn, -⟩ := Option.bind_eq_some_iff.1 hf
  exact (List.getElem?_eq_some_iff.1 hn).1

theorem face?_setView_self {tree : ViewTree V} {h : Handle} {kind : String} {view : V}
    (hf : tree.face? h = some (kind, view)) (view' : V) :
    (tree.setView h view').face? h = some (kind, view') := by
  obtain ⟨n, hn, hk, -⟩ := face?_eq_some_iff.1 hf
  have hn : tree.nodes[h.index]? = some n := hn
  refine face?_eq_some_iff.2 ⟨{ n with view := some view' }, ?_, hk, rfl⟩
  simp [setView, node?, hn]

theorem face?_setView_ne {h h' : Handle} (hne : h ≠ h') (view : V) :
    (tree.setView h view).face? h' = tree.face? h' := by
  have hi : h.index ≠ h'.index := fun heq => hne (by cases h; cases h'; exact congrArg _ heq)
  simp only [setView, face?, node?]
  rw [List.getElem?_modify_ne _ _ hi]

theorem view?_eq_map_face? (h : Handle) : tree.view? h = (tree.face? h).map Prod.snd := by
  rw [view?, face?]
  cases tree.node? h with
  | none => rfl
  | some n => simp [Function.comp_def]

theorem view?_of_face? {tree : ViewTree V} {h : Handle} {kind : String} {view : V}
    (hf : tree.face? h = some (kind, view)) : tree.view? h = some view := by
  rw [view?_eq_map_face?, hf]
  rfl

end ViewMarkup.ViewTree
