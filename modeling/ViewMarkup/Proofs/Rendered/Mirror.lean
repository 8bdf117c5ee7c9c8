/-
# A rendered tree is its document

The tree of a rendered document has the document's nodes and the root container,
numbered in document order, each with its kind and its id, under the node that
encloses it and with its children in their order. So a walk visits the handles
one after the other. The id table has the nodes with an id and no others, each
with its handle, the handle of its parent and the key path of its place. All
this holds for every registry and all data.

Key definitions: `Mirrors`.
Key theorems: `ViewTree.walkFrom_listing`, `Builder.Grown.mirrors`,
`render_mirrors_document`.
-/
import ViewMarkup.Proofs.Build.Listing
import ViewMarkup.Proofs.Document.KeyPath
import ViewMarkup.Rendered
import ViewMarkup.View.Standard

namespace ViewMarkup

/-! ### Tables -/

theorem lookup_eq_some_iff_mem {α β : Type} [DecidableEq α] {a : α} {b : β} :
    ∀ {l : List (α × β)}, (l.map Prod.fst).Nodup → (l.lookup a = some b ↔ (a, b) ∈ l)
  | [], _ => by simp
  | (a', b') :: l, h => by
    rw [List.map_cons, List.nodup_cons] at h
    rw [List.lookup_cons, List.mem_cons, Prod.mk.injEq]
    by_cases ha : a = a'
    · subst ha
      have hnot : (a, b) ∉ l := fun hmem => h.1 (List.mem_map.2 ⟨_, hmem, rfl⟩)
      simp [hnot, eq_comm]
    · have hne : (a == a') = false := by simp [ha]
      rw [hne]
      simp only [ha, false_and, false_or]
      exact lookup_eq_some_iff_mem h.2

/-! ### Walks -/

namespace ViewTree

variable {V : Type} {tree : ViewTree V} {handle : NodePlace → Handle}

/-- The children of the listed nodes are those of the document. -/
def Parents (tree : ViewTree V) (handle : NodePlace → Handle) (listed : List (NodePlace × Node)) :
    Prop :=
  ∀ entry ∈ listed, tree.children (handle entry.1) =
    (entry.1.childrenFrom 0 entry.2.children.length).map handle

mutual

theorem walkFrom_node : ∀ (n : Node) {place : NodePlace} {fuel : Nat} {stack : List Handle},
    tree.Parents handle (n.listing place) →
      tree.walkFrom (n.count + fuel) (handle place :: stack) =
        (n.listing place).map (handle ∘ Prod.fst) ++ tree.walkFrom fuel stack
  | .mk kind id attributes children, place, fuel, stack, h => by
    rw [Node.listing] at h ⊢
    have hchildren : tree.children (handle place) =
        (place.childrenFrom 0 children.length).map handle := h _ List.mem_cons_self
    rw [Node.count, Nat.add_comm 1, Nat.add_right_comm, walkFrom, hchildren,
      walkFrom_listing children fun entry hentry => h entry (List.mem_cons_of_mem _ hentry)]
    rfl
termination_by structural n => n

theorem walkFrom_listing : ∀ (ns : List Node) {place : NodePlace} {index fuel : Nat}
    {stack : List Handle}, tree.Parents handle (Node.listingAll place index ns) →
      tree.walkFrom (Node.countAll ns + fuel)
          ((place.childrenFrom index ns.length).map handle ++ stack) =
        (Node.listingAll place index ns).map (handle ∘ Prod.fst) ++ tree.walkFrom fuel stack
  | [], _, _, fuel, stack, _ => by
    rw [Node.countAll, Nat.zero_add]
    rfl
  | n :: rest, place, index, fuel, stack, h => by
    rw [Node.listingAll] at h ⊢
    have hfirst : tree.Parents handle (n.listing (place ++ [index])) :=
      fun entry hentry => h entry (List.mem_append_left _ hentry)
    have hrest : tree.Parents handle (Node.listingAll place (index + 1) rest) :=
      fun entry hentry => h entry (List.mem_append_right _ hentry)
    rw [Node.countAll, List.length_cons, NodePlace.childrenFrom_succ, List.map_cons,
      List.cons_append, Nat.add_assoc, walkFrom_node n hfirst, walkFrom_listing rest hrest,
      List.map_append, List.append_assoc]
termination_by structural ns => ns

end

end ViewTree

/-! ### Trees of documents -/

/-- The tree and the id table are those of the document. -/
structure Mirrors {V : Type} (doc : Document) (tree : ViewTree V) (ids : IdTable) : Prop where
  size : tree.size = doc.nodeCount + 1
  root : ∃ v, tree.node? .root = some v ∧ v.kind = rootKind ∧ v.id = none ∧ v.parent = none ∧
    v.children = (List.range doc.layout.length).map fun i => doc.handleAt [i]
  /-- The nodes are numbered in document order. -/
  node : ∀ i place n, doc.listing[i]? = some (place, n) → doc.handleAt place = ⟨i + 1⟩ ∧
    ∃ v, tree.node? ⟨i + 1⟩ = some v ∧ v.kind = n.kind ∧ v.id = n.id ∧
      v.parent = some (doc.handleAt place.dropLast) ∧
      v.children = (List.range n.children.length).map fun j => doc.handleAt (place ++ [j])
  walk : tree.walk = (List.range (doc.nodeCount + 1)).map Handle.mk
  /-- The ids are those of the nodes that have one. -/
  declared : ∀ id entry, ids.entry? id = some entry ↔ ∃ i rest n,
    doc.node? (i :: rest) = some n ∧ n.id = some id ∧ entry.handle = doc.handleAt (i :: rest) ∧
    tree.parent? entry.handle = some entry.parent ∧
    entry.keyPath = "@layout[" ++ toString i ++ "]" ++
      String.join (rest.map fun j => ".@subviews[" ++ toString j ++ "]")

namespace Builder.Grown

variable {V : Type} {doc : Document} {root : String} {build : Build V}
  (h : Grown doc.handleAt .root (NodePlace.childrenFrom [] 0 doc.layout.length) doc.listing
    (.start root) build)
include h

/-- The root container, and then a row for each node. -/
theorem skeleton_nodes : build.tree.skeleton.nodes =
    ⟨rootKind, none, none, (NodePlace.childrenFrom [] 0 doc.layout.length).map doc.handleAt, none⟩ ::
      doc.listing.map (row doc.handleAt) := h.nodes

theorem size_eq : build.tree.size = doc.nodeCount + 1 := by
  rw [h.size, doc.length_listing, Nat.add_comm]
  rfl

theorem root_row : ∃ v, build.tree.node? .root = some v ∧ v.bare =
    ⟨rootKind, none, none, (NodePlace.childrenFrom [] 0 doc.layout.length).map doc.handleAt,
      none⟩ := by
  apply Option.map_eq_some_iff.1
  rw [← ViewTree.node?_skeleton, ViewTree.node?, h.skeleton_nodes]
  rfl

theorem node_row {i : Nat} {entry : NodePlace × Node} (hi : doc.listing[i]? = some entry) :
    ∃ v, build.tree.node? ⟨i + 1⟩ = some v ∧ v.bare = row doc.handleAt entry := by
  apply Option.map_eq_some_iff.1
  rw [← ViewTree.node?_skeleton, ViewTree.node?, h.skeleton_nodes, List.getElem?_cons_succ,
    List.getElem?_map, hi]
  rfl

omit h in
theorem handleAt_entry {i : Nat} {place : NodePlace} {n : Node}
    (hi : doc.listing[i]? = some (place, n)) : doc.handleAt place = ⟨i + 1⟩ := by
  rw [doc.handleAt_of_getElem? (by rw [List.getElem?_map, hi]; rfl), Nat.add_comm]

theorem entry_row {place : NodePlace} {n : Node} (hn : doc.node? place = some n) :
    ∃ v, build.tree.node? (doc.handleAt place) = some v ∧
      v.bare = row doc.handleAt (place, n) := by
  obtain ⟨i, hi⟩ := List.mem_iff_getElem?.1 (doc.mem_listing_iff.2 hn)
  rw [handleAt_entry hi]
  exact h.node_row hi

theorem parents : build.tree.Parents doc.handleAt doc.listing := by
  rintro ⟨place, n⟩ hmem
  obtain ⟨v, hv, hbare⟩ := h.entry_row (doc.mem_listing_iff.1 hmem)
  rw [ViewTree.children, hv]
  exact congrArg ViewNode.children hbare

omit h in
/-- The handles of the listed places are the numbers from 1 on. -/
theorem map_handleAt_listing : doc.listing.map (doc.handleAt ∘ Prod.fst) =
    (List.range doc.nodeCount).map fun i => ⟨i + 1⟩ := by
  rw [← doc.length_listing]
  apply List.ext_getElem?
  intro i
  rw [List.getElem?_map, List.getElem?_map]
  by_cases hi : i < doc.listing.length
  · have hentry : doc.listing[i]? = some (doc.listing[i].1, doc.listing[i].2) :=
      List.getElem?_eq_getElem hi
    rw [List.getElem?_range hi, hentry]
    exact congrArg some (handleAt_entry hentry)
  · rw [List.getElem?_eq_none (Nat.le_of_not_lt hi), List.getElem?_eq_none (by simpa using hi)]
    rfl

theorem walk_eq : build.tree.walk = (List.range (doc.nodeCount + 1)).map Handle.mk := by
  obtain ⟨v, hv, hbare⟩ := h.root_row
  have hchildren : build.tree.children .root =
      (NodePlace.childrenFrom [] 0 doc.layout.length).map doc.handleAt := by
    rw [ViewTree.children, hv]
    exact congrArg ViewNode.children hbare
  have hbelow : build.tree.walkFrom (Node.countAll doc.layout + 0)
      ((NodePlace.childrenFrom [] 0 doc.layout.length).map doc.handleAt ++ []) =
        doc.listing.map (doc.handleAt ∘ Prod.fst) ++ [] :=
    ViewTree.walkFrom_listing doc.layout h.parents
  rw [ViewTree.walk, h.size_eq, ViewTree.walkFrom, hchildren]
  calc Handle.root :: build.tree.walkFrom doc.nodeCount
        ((NodePlace.childrenFrom [] 0 doc.layout.length).map doc.handleAt ++ [])
      = Handle.root :: (doc.listing.map (doc.handleAt ∘ Prod.fst) ++ []) :=
        congrArg (Handle.root :: ·) hbelow
    _ = (List.range (doc.nodeCount + 1)).map Handle.mk := by
        rw [List.append_nil, map_handleAt_listing, List.range_succ_eq_map, List.map_cons,
          List.map_map]
        rfl

theorem declared_iff {id : String} {entry : IdEntry} : build.ids.entry? id = some entry ↔
    ∃ place n, doc.node? place = some n ∧ n.id = some id ∧
      entry = ⟨doc.handleAt place, doc.handleAt place.dropLast, place.text⟩ := by
  have hentries : build.ids.entries = doc.listing.filterMap (declared doc.handleAt) := h.ids
  have hnodup : (build.ids.entries.map Prod.fst).Nodup := h.nodup List.nodup_nil
  rw [IdTable.entry?, lookup_eq_some_iff_mem hnodup, hentries, List.mem_filterMap]
  constructor
  · rintro ⟨⟨place, n⟩, hmem, hsome⟩
    obtain ⟨id', hid, heq⟩ := Option.map_eq_some_iff.1 hsome
    obtain ⟨rfl, rfl⟩ := Prod.mk.inj heq
    exact ⟨place, n, doc.mem_listing_iff.1 hmem, hid, rfl⟩
  · rintro ⟨place, n, hn, hid, rfl⟩
    exact ⟨(place, n), doc.mem_listing_iff.2 hn, by rw [declared, hid]; rfl⟩

theorem mirrors : Mirrors doc build.tree build.ids where
  size := h.size_eq
  root := by
    obtain ⟨v, hv, hbare⟩ := h.root_row
    obtain ⟨hkind, hid, hparent, hchildren, -⟩ := ViewNode.mk.inj hbare
    refine ⟨v, hv, hkind, hid, hparent, hchildren.trans ?_⟩
    simp [NodePlace.childrenFrom]
  node := by
    intro i place n hi
    obtain ⟨v, hv, hbare⟩ := h.node_row hi
    obtain ⟨hkind, hid, hparent, hchildren, -⟩ := ViewNode.mk.inj hbare
    refine ⟨handleAt_entry hi, v, hv, hkind, hid, hparent, hchildren.trans ?_⟩
    simp [NodePlace.childrenFrom]
  walk := h.walk_eq
  declared := by
    intro id entry
    have hparent : ∀ {place n}, doc.node? place = some n →
        build.tree.parent? (doc.handleAt place) = some (doc.handleAt place.dropLast) := by
      intro place n hn
      obtain ⟨v, hv, hbare⟩ := h.entry_row hn
      rw [ViewTree.parent?, hv]
      exact congrArg ViewNode.parent hbare
    rw [h.declared_iff]
    constructor
    · rintro ⟨place, n, hn, hid, rfl⟩
      cases place with
      | nil => cases hn
      | cons i rest => exact ⟨i, rest, n, hn, hid, rfl, hparent hn, NodePlace.text_cons i rest⟩
    · rintro ⟨i, rest, n, hn, hid, hhandle, hrecorded, hkeyPath⟩
      refine ⟨i :: rest, n, hn, hid, ?_⟩
      obtain ⟨handle, parent, keyPath⟩ := entry
      obtain rfl : handle = doc.handleAt (i :: rest) := hhandle
      obtain rfl : keyPath = NodePlace.text (i :: rest) :=
        hkeyPath.trans (NodePlace.text_cons i rest).symm
      rw [Option.some.inj ((hparent hn).symm.trans hrecorded)]

end Builder.Grown

/-- **A rendered tree is its document.** Whatever document is rendered, with
whatever registry and data, its tree and its id table are those of the document:
the nodes in document order, as the listing has them, which holds every node
that a place leads to and no place twice. -/
theorem render_mirrors_document {V : Type} {registry : ViewRegistry V} {config : Config}
    {doc : Document} {data : DataSource} {r : Rendered V}
    (h : render registry config doc data = .ok r) :
    Mirrors doc r.tree r.ids ∧ (doc.listing.map Prod.fst).Nodup ∧
      ∀ place n, (place, n) ∈ doc.listing ↔ doc.node? place = some n := by
  obtain ⟨build, hbuild, h⟩ := bind_eq_ok_iff.1 h
  obtain ⟨constraints, -, h⟩ := bind_eq_ok_iff.1 h
  cases h
  exact ⟨(Builder.all_grown hbuild).mirrors, doc.nodup_listing_places,
    fun _ _ => doc.mem_listing_iff⟩

/-! ### A form -/

/-- A form with a row in it, and a logo beside it. -/
def formDocument : Document where
  layout :=
    [.mk "UIView" (some "form") []
      [.mk "UILabel" none [] [],
        .mk "UIView" (some "row") []
          [.mk "UILabel" (some "name") [("text", .string "#{@bind(user)}")] []]],
      .mk "UIImageView" (some "logo") [] []]
  constraints := []

theorem formDocument_mirrored : ∃ r,
    render .standard {} formDocument (Json.lookup (.object [("user", .string "Ada")])) = .ok r ∧
      r.tree.walk.map Handle.index = [0, 1, 2, 3, 4, 5] ∧
      r.ids.entry? "name" = some ⟨⟨4⟩, ⟨3⟩, "@layout[0].@subviews[1].@subviews[0]"⟩ ∧
      Mirrors formDocument r.tree r.ids := by
  have hrun : ((render .standard {} formDocument
      (Json.lookup (.object [("user", .string "Ada")]))).map fun r =>
        (r.tree.walk.map Handle.index, r.ids.entry? "name")).toOption =
      some ([0, 1, 2, 3, 4, 5],
        some ⟨⟨4⟩, ⟨3⟩, "@layout[0].@subviews[1].@subviews[0]"⟩) := by decide +kernel
  obtain ⟨r, hr, hfound⟩ := map_eq_ok_iff.1 (toOption_eq_some_iff.1 hrun)
  obtain ⟨hwalk, hentry⟩ := Prod.mk.inj hfound
  exact ⟨r, hr, hwalk, hentry, (render_mirrors_document hr).1⟩

end ViewMarkup
