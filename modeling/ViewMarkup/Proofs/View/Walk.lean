/-
# Walking over a tree

The handles of a tree have one pre-order: every node before what is below it, and
what is below its children in their order. A loop that takes the handle on top of
a stack and puts its children in its place runs through that order and ends,
whatever the links are, if there is such an order at all. In a tree that grows by
attachments there is one, since children have greater handles than their parents;
each handle is in it once, since each but the root is the child of one node; and
the outline goes through it too, with the depth of a node as the indent of its
entry.

Key definitions: `ViewTree.InPreorder`, `ViewTree.Visits`, `ViewTree.Depth`,
`ViewTree.Entry`, `ViewTree.Faithful`.
Key theorems: `ViewTree.visits_iff_inPreorder`, `ViewTree.Linked.exists_inPreorder`,
`ViewTree.Linked.count_inPreorder`, `ViewTree.InPreorder.outlined`,
`ViewTree.grown_faithful`.
-/
import Mathlib.Data.List.Forall2
import Mathlib.Data.List.Nodup
import ViewMarkup.Proofs.View.Growth

namespace ViewMarkup.ViewTree

variable {V : Type}

section

variable (tree : ViewTree V)

/-- The handles of the subtrees at some handles, one subtree after the other, and
in each of them the node first and then the subtrees at its children. -/
inductive InPreorder : List Handle → List Handle → Prop
  | nil : InPreorder [] []
  | cons {h : Handle} {rest below beside : List Handle}
      (hbelow : InPreorder (tree.children h) below) (hbeside : InPreorder rest beside) :
      InPreorder (h :: rest) (h :: (below ++ beside))

/-- The loop, started with this stack, comes to an end and visits these handles.
Each round visits the handle on top and puts its children in its place; there is
no bound on the rounds. -/
inductive Visits : List Handle → List Handle → Prop
  | done : Visits [] []
  | round {h : Handle} {stack order : List Handle}
      (hrest : Visits (tree.children h ++ stack) order) : Visits (h :: stack) (h :: order)

/-- So many steps lead from a node up to the root. -/
inductive Depth : Handle → Nat → Prop
  | root : Depth .root 0
  | child {h p : Handle} {depth : Nat} (hparent : tree.parent? h = some p) (hp : Depth p depth) :
      Depth h (depth + 1)

/-- The entry of a node: its kind and, after a `#`, its id, on one line that starts
with two blanks for each step of its depth. -/
def Entry (h : Handle) (text : String) : Prop :=
  ∃ n depth, tree.node? h = some n ∧ tree.Depth h depth ∧
    text = String.ofList (List.replicate (2 * depth) ' ') ++ n.kind ++
      ((n.id.map ("#" ++ ·)).getD "") ++ "\n"

end

variable {tree : ViewTree V}

/-! ### The loop and the pre-order -/

theorem InPreorder.unique {hs order order' : List Handle} (h : tree.InPreorder hs order)
    (h' : tree.InPreorder hs order') : order' = order := by
  induction h generalizing order' with
  | nil =>
    cases h'
    rfl
  | cons hbelow hbeside ihbelow ihbeside =>
    cases h' with
    | cons hbelow' hbeside' => rw [ihbelow hbelow', ihbeside hbeside']

theorem InPreorder.split : ∀ {hs hs' order : List Handle}, tree.InPreorder (hs ++ hs') order →
    ∃ front back, order = front ++ back ∧ tree.InPreorder hs front ∧ tree.InPreorder hs' back
  | [], _, order, h => ⟨[], order, rfl, .nil, h⟩
  | _ :: _, _, _, .cons hbelow hbeside => by
    obtain ⟨front, back, rfl, hfront, hback⟩ := InPreorder.split hbeside
    exact ⟨_, back, by rw [List.cons_append, List.append_assoc], .cons hbelow hfront, hback⟩

/-- The loop visits what is on its stack in pre-order, and ends. -/
theorem InPreorder.visits {hs order : List Handle} (h : tree.InPreorder hs order) :
    ∀ {stack rest}, tree.Visits stack rest → tree.Visits (hs ++ stack) (order ++ rest) := by
  induction h with
  | nil => exact id
  | cons hbelow hbeside ihbelow ihbeside =>
    intro stack rest hrest
    rw [List.cons_append, List.cons_append, List.append_assoc]
    exact .round (ihbelow (ihbeside hrest))

/-- **The loop runs through the pre-order.** On any links, it ends exactly if there
is a pre-order of what is on its stack, and visits the handles in that order. -/
theorem visits_iff_inPreorder {stack order : List Handle} :
    tree.Visits stack order ↔ tree.InPreorder stack order := by
  constructor
  · intro h
    induction h with
    | done => exact .nil
    | round hrest ih =>
      obtain ⟨below, beside, rfl, hbelow, hbeside⟩ := ih.split
      exact .cons hbelow hbeside
  · intro h
    simpa using h.visits .done

/-- Rounds enough for all that is visited. -/
theorem Visits.walkFrom_eq {stack order : List Handle} (h : tree.Visits stack order) :
    ∀ {fuel}, order.length ≤ fuel → tree.walkFrom fuel stack = order := by
  induction h with
  | done =>
    intro fuel _
    cases fuel <;> rfl
  | round hrest ih =>
    intro fuel hfuel
    cases fuel with
    | zero => exact absurd hfuel (Nat.not_succ_le_zero _)
    | succ fuel => rw [walkFrom, ih (Nat.le_of_succ_le_succ hfuel)]

/-! ### The pre-order of linked nodes -/

/-- The handles of a tree, in order. -/
def handles (tree : ViewTree V) : List Handle := (List.range tree.size).map Handle.mk

theorem nodup_handles (tree : ViewTree V) : tree.handles.Nodup :=
  List.Nodup.map (fun _ _ hij => congrArg Handle.index hij) List.nodup_range

theorem mem_handles_iff {c : Handle} : c ∈ tree.handles ↔ c.index < tree.size := by
  rw [handles, List.mem_map]
  constructor
  · rintro ⟨i, hi, rfl⟩
    exact List.mem_range.1 hi
  · exact fun hc => ⟨c.index, List.mem_range.2 hc, rfl⟩

/-- A handle is visited once for each time it stands among the handles at the
start, and once for each time it stands among the children of a handle that is
visited. -/
theorem InPreorder.count_eq {hs order : List Handle} (h : tree.InPreorder hs order) (c : Handle) :
    order.count c = hs.count c + (order.flatMap tree.children).count c := by
  induction h with
  | nil => rfl
  | cons hbelow hbeside ihbelow ihbeside =>
    simp only [List.flatMap_cons, List.flatMap_append, List.count_append, List.count_cons] at *
    omega

namespace Linked

variable (h : tree.Linked)
include h

/-- Children have greater handles, and these do not go on for ever. -/
theorem exists_inPreorder (bound : Nat) : ∀ hs : List Handle,
    (∀ c ∈ hs, c.index < tree.size ∧ tree.size ≤ c.index + bound) →
      ∃ order, tree.InPreorder hs order := by
  induction bound with
  | zero =>
    intro hs hbound
    cases hs with
    | nil => exact ⟨[], .nil⟩
    | cons c rest =>
      have := hbound c List.mem_cons_self
      omega
  | succ bound ih =>
    intro hs hbound
    induction hs with
    | nil => exact ⟨[], .nil⟩
    | cons c rest ihrest =>
      obtain ⟨hc, hrest⟩ := List.forall_mem_cons.1 hbound
      obtain ⟨below, hbelow⟩ := ih (tree.children c) fun d hd => by
        have hlt := h.lt_of_mem_children hd
        omega
      obtain ⟨beside, hbeside⟩ := ihrest hrest
      exact ⟨_, .cons hbelow hbeside⟩

/-- A node is a child once for each time its parent is listed. -/
theorem count_flatMap_children (c : Handle) (order : List Handle) :
    (order.flatMap tree.children).count c =
      ((tree.parent? c).map fun p => order.count p).getD 0 := by
  induction order with
  | nil => cases tree.parent? c <;> rfl
  | cons q order ih =>
    rw [List.flatMap_cons, List.count_append, h.count, ih]
    cases hc : tree.parent? c with
    | none => rfl
    | some p =>
      by_cases hq : q = p
      · simp [hq, Nat.add_comm]
      · simp [hq, Ne.symm hq]

/-- **Every handle is visited once.** The root is where the walk starts, and any
other node is visited as often as its parent. -/
theorem count_inPreorder (hsize : 0 < tree.size) {order : List Handle}
    (horder : tree.InPreorder [.root] order) (c : Handle) :
    order.count c = if c.index < tree.size then 1 else 0 := by
  obtain ⟨i, hi⟩ : ∃ i, i = c.index := ⟨_, rfl⟩
  induction i using Nat.strong_induction_on generalizing c with
  | _ i ih =>
    subst hi
    rw [horder.count_eq, h.count_flatMap_children, List.count_singleton]
    by_cases hroot : c = .root
    · subst hroot
      have hroot : Handle.root.index < tree.size := hsize
      rw [h.root, if_pos hroot]
      rfl
    · have hne : (Handle.root == c) = false := by simpa using Ne.symm hroot
      rw [hne]
      by_cases hc : c.index < tree.size
      · obtain ⟨p, hp, hlt⟩ := h.parent c hroot hc
        have hparent := ih p.index hlt p rfl
        rw [if_pos (hlt.trans hc)] at hparent
        simp [hp, hc, hparent]
      · have hp : tree.parent? c = none := Option.eq_none_iff_forall_ne_some.2
          fun p hp => hc (lt_size_of_parent? hp)
        simp [hp, hc]

/-- So the pre-order of the whole tree is as long as the tree is large. -/
theorem length_inPreorder (hsize : 0 < tree.size) {order : List Handle}
    (horder : tree.InPreorder [.root] order) : order.length = tree.size := by
  have hperm : order.Perm tree.handles := by
    refine List.perm_iff_count.2 fun c => ?_
    rw [h.count_inPreorder hsize horder, tree.nodup_handles.count]
    simp only [mem_handles_iff]
  rw [hperm.length_eq, handles, List.length_map, List.length_range]

end Linked

/-! ### The outline -/

theorem indent_eq : ∀ depth, indent depth = String.ofList (List.replicate (2 * depth) ' ')
  | 0 => rfl
  | depth + 1 => by
    rw [indent, indent_eq depth, Nat.mul_succ, Nat.add_comm, List.replicate_add,
      String.ofList_append]
    rfl

/-- The outlines of subtrees have an entry for every node, in pre-order. Handles
grow from a node to its children, so the bound on the depth is never met. -/
theorem InPreorder.outlined {hs order : List Handle} (horder : tree.InPreorder hs order)
    (h : tree.Linked) : ∀ {fuel depth : Nat},
      (∀ c ∈ hs, c.index < tree.size ∧ tree.size ≤ fuel + c.index ∧ tree.Depth c depth) →
        ∃ entries, List.Forall₂ tree.Entry order entries ∧
          String.join (hs.map (tree.outlineFrom fuel depth)) = String.join entries := by
  induction horder with
  | nil => exact fun _ => ⟨[], .nil, rfl⟩
  | @cons c rest below beside hbelow hbeside ihbelow ihbeside =>
    intro fuel depth hhs
    obtain ⟨⟨hlt, hfuel, hdepth⟩, hrest⟩ := List.forall_mem_cons.1 hhs
    obtain ⟨fuel, rfl⟩ : ∃ k, fuel = k + 1 := ⟨fuel - 1, by omega⟩
    obtain ⟨n, hn⟩ : ∃ n, tree.node? c = some n := ⟨_, List.getElem?_eq_getElem hlt⟩
    have hchildren : tree.children c = n.children := by
      rw [children, hn]
      rfl
    obtain ⟨lines, hlines, hjoin⟩ := @ihbelow fuel (depth + 1) fun d hd => by
      obtain ⟨hcd, hd'⟩ := h.lt_of_mem_children hd
      exact ⟨hd', by omega, .child (h.mem_children_iff.1 hd) hdepth⟩
    obtain ⟨lines', hlines', hjoin'⟩ := ihbeside hrest
    refine ⟨line depth n :: (lines ++ lines'), .cons ⟨n, depth, hn, hdepth, ?_⟩
      (List.rel_append hlines hlines'), ?_⟩
    · rw [line, indent_eq]
    · rw [List.map_cons, String.join_cons, hjoin', outlineFrom, hn, String.join_cons,
        String.join_append, ← hjoin, hchildren, String.append_assoc]

/-! ### Trees that have grown -/

/-- The tree tells the attachments it has grown by, and the ways through it agree
with its links. -/
structure Faithful (as : List (Attachment V)) (tree : ViewTree V) : Prop where
  size : tree.size = as.length + 1
  /-- The attachments have the handles from 1 on, in their order. -/
  node : ∀ i a, as[i]? = some a →
    ∃ n, tree.node? ⟨i + 1⟩ = some n ∧ n.kind = a.kind ∧ n.id = a.id ∧ n.parent = some a.parent ∧
      n.view = some a.view
  /-- Every node but the root is once among the children of one node, which is its
  recorded parent and has a smaller handle. -/
  parent : ∀ h, h ≠ .root → h.index < tree.size → ∃ p, tree.parent? h = some p ∧
    p.index < h.index ∧ ∀ q, (tree.children q).count h = if q = p then 1 else 0
  root : tree.parent? .root = none ∧ ∀ q, .root ∉ tree.children q
  /-- Children are in the order in which they were attached. -/
  children : ∀ p, tree.children p = adopted p 1 as
  /-- The loop ends without a bound on its rounds. -/
  loop : ∀ order, tree.Visits [.root] order ↔ order = tree.walk
  preorder : ∀ order, tree.InPreorder [.root] order ↔ order = tree.walk
  once : ∀ h, tree.walk.count h = if h.index < tree.size then 1 else 0
  /-- The outline has an entry for each handle, in the order of the walk. -/
  outline : ∃ entries, List.Forall₂ tree.Entry tree.walk entries ∧
    tree.outline = String.join entries

/-- **A tree is faithful however it has grown**, in pre-order or in any other
order. -/
theorem grown_faithful {as : List (Attachment V)} {tree : ViewTree V} (h : GrownBy as tree) :
    Faithful as tree := by
  have hlinked := h.linked
  have hsize : 0 < tree.size := h.size_eq ▸ Nat.succ_pos _
  obtain ⟨order, horder⟩ := hlinked.exists_inPreorder tree.size [.root] fun c hc => by
    obtain rfl := List.mem_singleton.1 hc
    exact ⟨hsize, Nat.le_add_left ..⟩
  have hvisits := visits_iff_inPreorder.2 horder
  have hwalk : tree.walk = order :=
    hvisits.walkFrom_eq (hlinked.length_inPreorder hsize horder).le
  have hpreorder : ∀ order', tree.InPreorder [.root] order' ↔ order' = tree.walk := by
    intro order'
    rw [hwalk]
    exact ⟨horder.unique, fun heq => heq ▸ horder⟩
  constructor
  · exact h.size_eq
  · exact fun i a ha => ⟨_, h.node?_eq ha, rfl, rfl, rfl, rfl⟩
  · intro c hroot hlt
    obtain ⟨p, hp, hpc⟩ := hlinked.parent c hroot hlt
    refine ⟨p, hp, hpc, fun q => ?_⟩
    rw [hlinked.count, hp]
    simp only [Option.some.injEq, eq_comm]
  · refine ⟨hlinked.root, fun q hq => ?_⟩
    have hq := hlinked.mem_children_iff.1 hq
    rw [hlinked.root] at hq
    cases hq
  · exact h.children_eq
  · exact fun order' => visits_iff_inPreorder.trans (hpreorder order')
  · exact hpreorder
  · intro c
    rw [hwalk]
    exact hlinked.count_inPreorder hsize horder c
  · obtain ⟨entries, hentries, hjoin⟩ := @InPreorder.outlined _ _ _ _ horder hlinked tree.size 0
      fun c hc => by
        obtain rfl := List.mem_singleton.1 hc
        exact ⟨hsize, Nat.le_add_right .., .root⟩
    refine ⟨entries, hwalk ▸ hentries, ?_⟩
    rw [← hjoin, List.map_singleton, String.join_cons, String.join_nil, String.append_empty]
    rfl

/-- A child that is attached after a younger sister of its parent. -/
def lateChild : List (Attachment String) :=
  [⟨.root, "A", some "a", "first"⟩, ⟨.root, "B", none, "second"⟩, ⟨⟨1⟩, "C", none, "third"⟩]

theorem lateChild_faithful : ∃ tree, GrownBy lateChild tree ∧
    tree.walk.map Handle.index = [0, 1, 3, 2] ∧ tree.outline = "@root\n  A#a\n    C\n  B\n" ∧
    Faithful lateChild tree := by
  have hgrown : GrownBy lateChild _ :=
    ((GrownBy.empty.attach ⟨.root, "A", some "a", "first"⟩ (by decide)).attach
      ⟨.root, "B", none, "second"⟩ (by decide)).attach ⟨⟨1⟩, "C", none, "third"⟩ (by decide)
  exact ⟨_, hgrown, by decide +kernel, by decide +kernel, grown_faithful hgrown⟩

end ViewMarkup.ViewTree
