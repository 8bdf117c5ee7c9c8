/-
# The nodes of a document in order

The listing of a document has its nodes in document order, a node before its
children, each with the place that leads to it. It holds exactly the nodes that
places lead to, and no place twice, so every place but the empty one has one
position in it. The handle of a place is that position, counted from 1; the
empty place, from which the outermost nodes hang, has the handle of the root
container.

Key definitions: `Document.node?`, `Document.listing`, `Document.handleAt`.
Key theorems: `Document.mem_listing_iff`, `Document.nodup_listing_places`,
`Document.handleAt_of_getElem?`.
-/
import Mathlib.Data.List.Basic
import ViewMarkup.Document.Place
import ViewMarkup.View.Tree

namespace ViewMarkup

/-- The places of the nodes below `place`, `count` of them from the one at
`index` on. -/
def NodePlace.childrenFrom (place : NodePlace) (index count : Nat) : List NodePlace :=
  (List.range count).map fun i => place ++ [index + i]

theorem NodePlace.childrenFrom_succ (place : NodePlace) (index count : Nat) :
    place.childrenFrom index (count + 1) =
      (place ++ [index]) :: place.childrenFrom (index + 1) count := by
  unfold childrenFrom
  rw [List.range_succ_eq_map, List.map_cons, List.map_map]
  refine congrArg₂ List.cons rfl (List.map_congr_left fun i _ => ?_)
  show place ++ [index + (i + 1)] = place ++ [index + 1 + i]
  rw [Nat.add_right_comm, Nat.add_assoc]

namespace Node

/-! ### Nodes and the places that lead to them -/

/-- The node that indices lead to: the first one among these nodes, each further
one among the children of the node before. -/
def follow : List Node → NodePlace → Option Node
  | _, [] => none
  | ns, [i] => ns[i]?
  | ns, i :: j :: rest => ns[i]?.bind fun n => follow n.children (j :: rest)

mutual

/-- A node and all below it in document order, each with its place. -/
def listing (place : NodePlace) : Node → List (NodePlace × Node)
  | mk kind id attributes children =>
    (place, mk kind id attributes children) :: listingAll place 0 children
termination_by structural n => n

/-- The same for the nodes from the one at `index` on, all below the same
place. -/
def listingAll (place : NodePlace) (index : Nat) : List Node → List (NodePlace × Node)
  | [] => []
  | n :: rest => listing (place ++ [index]) n ++ listingAll place (index + 1) rest
termination_by structural ns => ns

end

mutual

theorem length_listing : ∀ (n : Node) (place : NodePlace), (n.listing place).length = n.count
  | mk kind id attributes children, place => by
    rw [listing, List.length_cons, length_listingAll children place 0, count, Nat.add_comm]
termination_by structural n => n

theorem length_listingAll : ∀ (ns : List Node) (place : NodePlace) (index : Nat),
    (listingAll place index ns).length = countAll ns
  | [], _, _ => rfl
  | n :: rest, place, index => by
    rw [listingAll, List.length_append, length_listing n, length_listingAll rest, countAll]
termination_by structural ns => ns

end

theorem follow_cons (n : Node) (ns : List Node) (i : Nat) (rest : NodePlace) :
    follow (n :: ns) ((i + 1) :: rest) = follow ns (i :: rest) := by
  cases rest with
  | nil => rw [follow, follow, List.getElem?_cons_succ]
  | cons j rest => rw [follow, follow, List.getElem?_cons_succ]

theorem follow_zero (n : Node) (ns : List Node) (rest : NodePlace) :
    follow (n :: ns) (0 :: rest) = if rest = [] then some n else follow n.children rest := by
  cases rest with
  | nil => rfl
  | cons j rest => rfl

mutual

theorem mem_listing : ∀ (n : Node) {place P : NodePlace} {m : Node},
    (P, m) ∈ n.listing place ↔
      ∃ rest, P = place ++ rest ∧ (if rest = [] then some n else follow n.children rest) = some m
  | mk kind id attributes children, place, P, m => by
    rw [listing, List.mem_cons, mem_listingAll children, Prod.mk.injEq]
    constructor
    · rintro (⟨rfl, rfl⟩ | ⟨i, rest, rfl, hm⟩)
      · exact ⟨[], (List.append_nil P).symm, rfl⟩
      · exact ⟨i :: rest, by rw [Nat.zero_add], hm⟩
    · rintro ⟨rest, rfl, hm⟩
      cases rest with
      | nil => exact Or.inl ⟨List.append_nil place, (Option.some.inj hm).symm⟩
      | cons i rest => exact Or.inr ⟨i, rest, by rw [Nat.zero_add], hm⟩
termination_by structural n => n

theorem mem_listingAll : ∀ (ns : List Node) {place P : NodePlace} {index : Nat} {m : Node},
    (P, m) ∈ listingAll place index ns ↔
      ∃ i rest, P = place ++ (index + i) :: rest ∧ follow ns (i :: rest) = some m
  | [], place, P, index, m => by
    constructor
    · intro h
      cases h
    · rintro ⟨i, rest, -, h⟩
      cases rest <;> cases h
  | n :: ns, place, P, index, m => by
    rw [listingAll, List.mem_append, mem_listing n, mem_listingAll ns]
    constructor
    · rintro (⟨rest, rfl, hm⟩ | ⟨i, rest, rfl, hm⟩)
      · exact ⟨0, rest, by simp, by rw [follow_zero, hm]⟩
      · exact ⟨i + 1, rest, by rw [Nat.add_right_comm, Nat.add_assoc], by rw [follow_cons, hm]⟩
    · rintro ⟨i, rest, rfl, hm⟩
      cases i with
      | zero => exact Or.inl ⟨rest, by simp, by rw [← follow_zero n ns, hm]⟩
      | succ i =>
        exact Or.inr ⟨i, rest, by rw [Nat.add_right_comm, Nat.add_assoc],
          by rw [← follow_cons n ns, hm]⟩
termination_by structural ns => ns

end

mutual

theorem nodup_listing : ∀ (n : Node) (place : NodePlace), ((n.listing place).map Prod.fst).Nodup
  | mk kind id attributes children, place => by
    rw [listing, List.map_cons, List.nodup_cons]
    refine ⟨fun hmem => ?_, nodup_listingAll children place 0⟩
    obtain ⟨⟨P, m⟩, hm, hP⟩ := List.mem_map.1 hmem
    obtain ⟨i, rest, rfl, -⟩ := (mem_listingAll children).1 hm
    exact absurd (List.append_right_eq_self.1 hP) (List.cons_ne_nil _ _)
termination_by structural n => n

theorem nodup_listingAll : ∀ (ns : List Node) (place : NodePlace) (index : Nat),
    ((listingAll place index ns).map Prod.fst).Nodup
  | [], _, _ => List.nodup_nil
  | n :: rest, place, index => by
    rw [listingAll, List.map_append, List.nodup_append]
    refine ⟨nodup_listing n _, nodup_listingAll rest place (index + 1), fun P hP Q hQ heq => ?_⟩
    -- the first index after `place` is `index` here and a later one there
    obtain ⟨⟨P', m⟩, hm, rfl⟩ := List.mem_map.1 hP
    obtain ⟨⟨Q', m'⟩, hm', rfl⟩ := List.mem_map.1 hQ
    obtain ⟨below, hbelow, -⟩ := (mem_listing n).1 hm
    obtain ⟨i, beside, hbeside, -⟩ := (mem_listingAll rest).1 hm'
    have hsame : place ++ index :: below = place ++ (index + 1 + i) :: beside := by
      calc place ++ index :: below = place ++ [index] ++ below := by simp
        _ = place ++ (index + 1 + i) :: beside := by rw [← hbelow, ← hbeside]; exact heq
    have hindex := (List.cons.inj (List.append_cancel_left hsame)).1
    omega
termination_by structural ns => ns

end

end Node

namespace Document

/-! ### Documents -/

/-- The node that a place leads to. -/
def node? (doc : Document) (place : NodePlace) : Option Node := Node.follow doc.layout place

/-- All nodes in document order, each with its place. -/
def listing (doc : Document) : List (NodePlace × Node) := Node.listingAll [] 0 doc.layout

/-- The handle of a place: its position in the listing, counted from 1. The empty
place has that of the root container. -/
def handleAt (doc : Document) (place : NodePlace) : Handle :=
  ⟨([] :: doc.listing.map Prod.fst).idxOf place⟩

variable (doc : Document)

theorem length_listing : doc.listing.length = doc.nodeCount := Node.length_listingAll doc.layout [] 0

/-- The listing has the nodes that places lead to. -/
theorem mem_listing_iff {place : NodePlace} {n : Node} :
    (place, n) ∈ doc.listing ↔ doc.node? place = some n := by
  unfold listing node?
  rw [Node.mem_listingAll]
  constructor
  · rintro ⟨i, rest, rfl, hm⟩
    rw [List.nil_append, Nat.zero_add]
    exact hm
  · intro hm
    cases place with
    | nil => cases hm
    | cons i rest => exact ⟨i, rest, by rw [List.nil_append, Nat.zero_add], hm⟩

/-- No place is listed twice. -/
theorem nodup_listing_places : (doc.listing.map Prod.fst).Nodup :=
  Node.nodup_listingAll doc.layout [] 0

theorem nodup_places : ([] :: doc.listing.map Prod.fst).Nodup := by
  rw [List.nodup_cons]
  refine ⟨fun hmem => ?_, doc.nodup_listing_places⟩
  obtain ⟨⟨place, n⟩, hn, rfl⟩ := List.mem_map.1 hmem
  cases (mem_listing_iff doc).1 hn

theorem handleAt_nil : doc.handleAt [] = .root := by
  rw [handleAt, List.idxOf_cons_self]
  rfl

theorem handleAt_of_getElem? {i : Nat} {place : NodePlace}
    (h : (doc.listing.map Prod.fst)[i]? = some place) : doc.handleAt place = ⟨1 + i⟩ := by
  have hplace : ([] :: doc.listing.map Prod.fst)[i + 1]? = some place := h
  obtain ⟨hlt, rfl⟩ := List.getElem?_eq_some_iff.1 hplace
  rw [handleAt, doc.nodup_places.idxOf_getElem _ hlt, Nat.add_comm]

end Document

end ViewMarkup
