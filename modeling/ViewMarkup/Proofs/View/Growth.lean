/-
# Trees that grow by attachments

A tree is grown by attaching views one by one, each under a handle that the tree
has already, in whatever order. Each attachment adds one child to one node and
gives one new handle a parent, so what a node holds and whose child it is can be
read off the list of attachments, and the links down and the links up always tell
the same.

Key definitions: `Attachment`, `ViewTree.GrownBy`, `ViewTree.adopted`,
`ViewTree.Linked`.
Key theorems: `ViewTree.children_attach`, `ViewTree.GrownBy.children_eq`,
`ViewTree.GrownBy.node?_eq`, `ViewTree.GrownBy.linked`.
-/
import Mathlib.Order.Nat
import ViewMarkup.Proofs.View.Skeleton

namespace ViewMarkup

variable {V : Type}

/-- A view to be attached: under which handle, and as what. -/
structure Attachment (V : Type) where
  parent : Handle
  kind : String
  id : Option String
  view : V

namespace ViewTree

/-- The tree with one more view. -/
def attach (tree : ViewTree V) (a : Attachment V) : ViewTree V :=
  (tree.insert a.parent a.kind a.id a.view).2

/-- The tree is what these attachments, one after the other, make of the root
container, each under a handle that is there by then. -/
inductive GrownBy : List (Attachment V) → ViewTree V → Prop
  | empty : GrownBy [] .empty
  | attach {as : List (Attachment V)} {tree : ViewTree V} (h : GrownBy as tree) (a : Attachment V)
      (hparent : a.parent.index < tree.size) : GrownBy (as ++ [a]) (tree.attach a)

/-! ### One attachment -/

section

variable (tree : ViewTree V) (a : Attachment V)

theorem size_attach : (tree.attach a).size = tree.size + 1 := by
  rw [size, attach, insert_nodes, List.length_append, List.length_modify]
  rfl

theorem node?_attach_of_lt {h : Handle} (hlt : h.index < tree.size) : (tree.attach a).node? h =
    (tree.node? h).map fun n => if h = a.parent then n.adopt [⟨tree.size⟩] else n := by
  have hlength : h.index < (tree.nodes.modify a.parent.index
      (ViewNode.adopt [⟨tree.size⟩])).length := by rwa [List.length_modify]
  rw [node?, attach, insert_nodes, List.getElem?_append_left hlength, List.getElem?_modify]
  by_cases heq : h = a.parent
  · subst heq
    simp [node?]
  · have hindex : a.parent.index ≠ h.index := fun hindex => heq (by cases h; cases hindex; rfl)
    simp [node?, heq, hindex]

theorem node?_attach_self : (tree.attach a).node? ⟨tree.size⟩ =
    some ⟨a.kind, a.id, some a.parent, [], some a.view⟩ := by
  have hlength : (tree.nodes.modify a.parent.index (ViewNode.adopt [⟨tree.size⟩])).length =
      tree.size := List.length_modify ..
  rw [node?, attach, insert_nodes, List.getElem?_append_right hlength.le, hlength, Nat.sub_self]
  rfl

theorem node?_eq_none_iff {tree : ViewTree V} {h : Handle} :
    tree.node? h = none ↔ tree.size ≤ h.index := List.getElem?_eq_none_iff

theorem node?_size : tree.node? ⟨tree.size⟩ = none := node?_eq_none_iff.2 (Nat.le_refl _)

theorem node?_attach_of_gt {h : Handle} (hgt : tree.size < h.index) :
    (tree.attach a).node? h = none := by
  rw [node?_eq_none_iff, size_attach]
  exact hgt

theorem parent?_attach (h : Handle) : (tree.attach a).parent? h =
    if h = ⟨tree.size⟩ then some a.parent else tree.parent? h := by
  rcases Nat.lt_trichotomy h.index tree.size with hlt | heq | hgt
  · have hne : h ≠ ⟨tree.size⟩ := fun heq => hlt.ne (congrArg Handle.index heq)
    rw [if_neg hne, parent?, parent?, node?_attach_of_lt tree a hlt]
    cases tree.node? h with
    | none => rfl
    | some n => by_cases hp : h = a.parent <;> simp [hp, ViewNode.adopt]
  · obtain rfl : h = ⟨tree.size⟩ := by cases h; cases heq; rfl
    rw [if_pos rfl, parent?, node?_attach_self]
    rfl
  · have hne : h ≠ ⟨tree.size⟩ := fun heq => hgt.ne' (congrArg Handle.index heq)
    rw [if_neg hne, parent?, parent?, node?_attach_of_gt tree a hgt, node?_eq_none_iff.2 hgt.le]

theorem children_of_node?_eq_none {tree : ViewTree V} {h : Handle} (hnone : tree.node? h = none) :
    tree.children h = [] := by
  rw [children, hnone]
  rfl

/-- The parent gets the new handle after the children it has; no other node gets
a child. -/
theorem children_attach {a : Attachment V} (hparent : a.parent.index < tree.size) (h : Handle) :
    (tree.attach a).children h =
      if h = a.parent then tree.children h ++ [⟨tree.size⟩] else tree.children h := by
  rcases Nat.lt_trichotomy h.index tree.size with hlt | heq | hgt
  · obtain ⟨n, hn⟩ : ∃ n, tree.node? h = some n := ⟨_, List.getElem?_eq_getElem hlt⟩
    rw [children, children, node?_attach_of_lt tree a hlt, hn]
    by_cases hp : h = a.parent <;> simp [hp, ViewNode.adopt]
  · obtain rfl : h = ⟨tree.size⟩ := by cases h; cases heq; rfl
    have hne : (⟨tree.size⟩ : Handle) ≠ a.parent := fun heq =>
      hparent.ne' (congrArg Handle.index heq)
    rw [if_neg hne, children_of_node?_eq_none tree.node?_size, children, node?_attach_self]
    rfl
  · have hne : h ≠ a.parent := fun heq =>
      (hparent.trans hgt).ne' (congrArg Handle.index heq)
    rw [if_neg hne, children_of_node?_eq_none (node?_eq_none_iff.2 hgt.le),
      children_of_node?_eq_none (node?_attach_of_gt tree a hgt)]

end

/-! ### The list of attachments -/

/-- The handles that attachments get which are numbered from `first` on and go
under `parent`, in their order. -/
def adopted (parent : Handle) (first : Nat) (as : List (Attachment V)) : List Handle :=
  ((as.zipIdx first).filter fun a => a.1.parent = parent).map fun a => ⟨a.2⟩

theorem adopted_snoc (parent : Handle) (first : Nat) (as : List (Attachment V))
    (a : Attachment V) : adopted parent first (as ++ [a]) =
      adopted parent first as ++ if parent = a.parent then [⟨first + as.length⟩] else [] := by
  rw [adopted, adopted, List.zipIdx_append, List.filter_append, List.map_append]
  by_cases hp : parent = a.parent
  · simp [hp]
  · simp [hp, Ne.symm hp]

namespace GrownBy

variable {as : List (Attachment V)} {tree : ViewTree V} (h : GrownBy as tree)
include h

theorem size_eq : tree.size = as.length + 1 := by
  induction h with
  | empty => rfl
  | attach h a hparent ih =>
    rw [size_attach, ih, List.length_append]
    rfl

theorem root_eq : ∃ children, tree.node? .root = some ⟨rootKind, none, none, children, none⟩ := by
  induction h with
  | empty => exact ⟨[], rfl⟩
  | @attach as tree h a hparent ih =>
    obtain ⟨children, hroot⟩ := ih
    have hpos : Handle.root.index < tree.size := h.size_eq ▸ Nat.succ_pos _
    rw [node?_attach_of_lt tree a hpos, hroot]
    by_cases hp : Handle.root = a.parent
    · exact ⟨_, by rw [Option.map_some, if_pos hp]; rfl⟩
    · exact ⟨_, by rw [Option.map_some, if_neg hp]⟩

/-- **Children are in the order in which they were attached.** -/
theorem children_eq (p : Handle) : tree.children p = adopted p 1 as := by
  induction h with
  | empty =>
    obtain ⟨i⟩ := p
    cases i <;> rfl
  | attach h a hparent ih =>
    rw [children_attach _ hparent, adopted_snoc, ih, h.size_eq, Nat.add_comm 1]
    split
    · rfl
    · rw [List.append_nil]

/-- The attachments have the handles from 1 on, one after the other. -/
theorem node?_eq {i : Nat} {a : Attachment V} (ha : as[i]? = some a) : tree.node? ⟨i + 1⟩ =
    some ⟨a.kind, a.id, some a.parent, adopted ⟨i + 1⟩ 1 as, some a.view⟩ := by
  have hnode : ∃ children, tree.node? ⟨i + 1⟩ =
      some ⟨a.kind, a.id, some a.parent, children, some a.view⟩ := by
    induction h with
    | empty => cases ha
    | @attach as tree h b hparent ih =>
      rcases Nat.lt_or_ge i as.length with hlt | hge
      · rw [List.getElem?_append_left hlt] at ha
        obtain ⟨children, hnode⟩ := ih ha
        have hsize : i + 1 < tree.size := by rw [h.size_eq]; omega
        rw [node?_attach_of_lt tree b hsize, hnode]
        by_cases hp : (⟨i + 1⟩ : Handle) = b.parent
        · exact ⟨_, by rw [Option.map_some, if_pos hp]; rfl⟩
        · exact ⟨_, by rw [Option.map_some, if_neg hp]⟩
      · rw [List.getElem?_append_right hge] at ha
        obtain ⟨hi, hab⟩ := List.getElem?_eq_some_iff.1 ha
        rw [List.getElem_singleton] at hab
        rw [List.length_singleton, Nat.lt_one_iff] at hi
        have hlast : (⟨i + 1⟩ : Handle) = ⟨tree.size⟩ := congrArg Handle.mk (by
          rw [h.size_eq]
          omega)
        exact ⟨[], by rw [hlast, node?_attach_self, hab]⟩
  obtain ⟨children, hnode⟩ := hnode
  have hchildren := h.children_eq ⟨i + 1⟩
  rw [ViewTree.children, hnode] at hchildren
  rw [hnode, ← hchildren]
  rfl

end GrownBy

/-! ### Links up and down -/

/-- Every node but the root has a parent, attached before it, and is once among
the children of that parent and among those of no other node. The root is no
child. -/
structure Linked (tree : ViewTree V) : Prop where
  root : tree.parent? .root = none
  parent : ∀ h, h ≠ .root → h.index < tree.size →
    ∃ p, tree.parent? h = some p ∧ p.index < h.index
  count : ∀ p h, (tree.children p).count h = if tree.parent? h = some p then 1 else 0

theorem lt_size_of_parent? {tree : ViewTree V} {h p : Handle} (hp : tree.parent? h = some p) :
    h.index < tree.size := by
  obtain ⟨n, hn, -⟩ := Option.bind_eq_some_iff.1 hp
  exact (List.getElem?_eq_some_iff.1 hn).1

namespace Linked

variable {tree : ViewTree V} (h : tree.Linked)
include h

theorem mem_children_iff {p c : Handle} : c ∈ tree.children p ↔ tree.parent? c = some p := by
  rw [← List.one_le_count_iff, h.count]
  split <;> simp [*]

theorem lt_of_mem_children {p c : Handle} (hc : c ∈ tree.children p) :
    p.index < c.index ∧ c.index < tree.size := by
  have hp := h.mem_children_iff.1 hc
  have hsize := lt_size_of_parent? hp
  have hroot : c ≠ .root := by
    rintro rfl
    rw [h.root] at hp
    cases hp
  obtain ⟨q, hq, hlt⟩ := h.parent c hroot hsize
  obtain rfl := Option.some.inj (hq.symm.trans hp)
  exact ⟨hlt, hsize⟩

end Linked

/-- **Links down and links up agree, however a tree has grown.** -/
theorem GrownBy.linked {as : List (Attachment V)} {tree : ViewTree V} (h : GrownBy as tree) :
    tree.Linked := by
  induction h with
  | empty =>
    refine ⟨rfl, fun h hroot hlt => ?_, fun p h => ?_⟩
    · exact absurd (congrArg Handle.mk (Nat.lt_one_iff.1 hlt)) hroot
    · obtain ⟨_ | i⟩ := p <;> obtain ⟨_ | j⟩ := h <;> rfl
  | @attach as tree h a hparent ih =>
    constructor
    · have hne : Handle.root ≠ ⟨tree.size⟩ := fun heq => by
        have hsize : 0 = tree.size := congrArg Handle.index heq
        exact absurd (hsize.trans h.size_eq) (Nat.succ_ne_zero _).symm
      rw [parent?_attach, if_neg hne, ih.root]
    · intro c hroot hlt
      rw [parent?_attach]
      rw [size_attach] at hlt
      split
      · rename_i hc
        subst hc
        exact ⟨a.parent, rfl, hparent⟩
      · rename_i hc
        refine ih.parent c hroot (lt_of_le_of_ne (Nat.le_of_lt_succ hlt) fun hindex => hc ?_)
        cases c
        cases hindex
        rfl
    · intro p c
      have hfresh : tree.parent? ⟨tree.size⟩ = none := by
        rw [parent?, node?_size]
        rfl
      rw [children_attach _ hparent, parent?_attach]
      by_cases hc : c = ⟨tree.size⟩
      · subst hc
        by_cases hp : p = a.parent
        · simp [hp, ih.count, hfresh]
        · simp [hp, Ne.symm hp, ih.count, hfresh]
      · by_cases hp : p = a.parent
        · simp [hp, hc, Ne.symm hc, ih.count]
        · simp [hp, hc, ih.count]

end ViewTree

end ViewMarkup
