/-
# A build follows the listing of its document

A node takes the next free handle, and so do those below it after it: the nodes
of a document are numbered in document order. To build nodes below a parent adds
one row for each of them and for all below them to the tree, in that order, and
gives the parent their handles as its last children; it declares their ids in
the same order, each with the handle of its node, that of the node's parent and
the node's place. What else a build does changes views and bindings alone.

Any function that gives the places their numbers in this order (`Numbers`) tells
which handles these are.

Key definitions: `Numbers`, `row`, `declared`, `Builder.Grown`.
Key theorems: `Builder.own_skeleton`, `Builder.node_grown`,
`Builder.siblings_grown`, `Builder.all_grown`.
-/
import ViewMarkup.Proofs.Build.InStep
import ViewMarkup.Proofs.Document.Listing
import ViewMarkup.Proofs.View.Skeleton

namespace ViewMarkup

/-! ### Numbered places -/

/-- The places have the handles from `start` on. -/
def Numbers (handle : NodePlace → Handle) (start : Nat) (places : List NodePlace) : Prop :=
  ∀ i place, places[i]? = some place → handle place = ⟨start + i⟩

theorem numbers_cons {handle : NodePlace → Handle} {start : Nat} {place : NodePlace}
    {places : List NodePlace} (h : Numbers handle start (place :: places)) :
    handle place = ⟨start⟩ ∧ Numbers handle (start + 1) places := by
  refine ⟨h 0 place rfl, fun i place' hplace' => ?_⟩
  have hnext := h (i + 1) place' hplace'
  rw [hnext, Nat.add_assoc, Nat.add_comm 1 i]

theorem numbers_append {handle : NodePlace → Handle} {start : Nat} {ps qs : List NodePlace}
    (h : Numbers handle start (ps ++ qs)) :
    Numbers handle start ps ∧ Numbers handle (start + ps.length) qs := by
  constructor
  · intro i place hplace
    refine h i place ?_
    rw [List.getElem?_append_left (List.getElem?_eq_some_iff.1 hplace).1]
    exact hplace
  · intro i place hplace
    have hlater := h (ps.length + i) place (by
      rw [List.getElem?_append_right (Nat.le_add_right _ _), Nat.add_sub_cancel_left]
      exact hplace)
    rw [hlater, Nat.add_assoc]

theorem numbers_handleAt (doc : Document) :
    Numbers doc.handleAt 1 (doc.listing.map Prod.fst) :=
  fun _ _ h => doc.handleAt_of_getElem? h

/-- What the skeleton of a tree has for a node. -/
def row (handle : NodePlace → Handle) (entry : NodePlace × Node) : ViewNode Unit where
  kind := entry.2.kind
  id := entry.2.id
  parent := some (handle entry.1.dropLast)
  children := (entry.1.childrenFrom 0 entry.2.children.length).map handle
  view := some ()

/-- What the id table has for a node, if the node has an id. -/
def declared (handle : NodePlace → Handle) (entry : NodePlace × Node) :
    Option (String × IdEntry) :=
  entry.2.id.map fun id =>
    (id, ⟨handle entry.1, handle entry.1.dropLast, entry.1.text⟩)

variable {V : Type}

/-! ### Ids -/

theorem IdTable.declare_eq_ok {table table' : IdTable} {id : String} {entry : IdEntry}
    (h : table.declare id entry = .ok table') :
    table.entry? id = none ∧ table'.entries = table.entries ++ [(id, entry)] := by
  unfold declare at h
  split at h
  · cases h
  · rename_i hnone
    cases h
    exact ⟨hnone, rfl⟩

namespace Build

theorem declare_ids {build build' : Build V} {id : Option String} {entry : IdEntry}
    (h : build.declare id entry = .ok build') :
    build'.ids.entries = build.ids.entries ++ (id.map fun id => (id, entry)).toList ∧
      ((build.ids.entries.map Prod.fst).Nodup → (build'.ids.entries.map Prod.fst).Nodup) := by
  unfold declare at h
  split at h
  · cases h
    exact ⟨(List.append_nil _).symm, id⟩
  · rename_i name
    split at h
    · rename_i ids hids
      cases h
      obtain ⟨hnone, hentries⟩ := IdTable.declare_eq_ok hids
      refine ⟨hentries, fun hnodup => ?_⟩
      show (ids.entries.map Prod.fst).Nodup
      rw [hentries, List.map_append, List.nodup_append]
      refine ⟨hnodup, by simp, fun a ha a' ha' heq => ?_⟩
      -- the id had no entry, so it is not among those of the table
      obtain ⟨pair, hpair, rfl⟩ := List.mem_map.1 ha
      have hname : pair.1 = name := heq.trans (List.mem_singleton.1 ha')
      have hne := List.lookup_eq_none_iff.1 hnone pair hpair
      simp [hname] at hne
    · cases h

theorem bind_ids (build : Build V) (target : Handle) (name keyPath : String)
    (value : AttributeValue) (shown : PropertyValue) :
    (build.bind target name keyPath value shown).ids = build.ids := by
  unfold bind
  split <;> rfl

end Build

namespace Builder

variable {b : Builder V} {c : ViewClass V} {kind : String} {target : Handle} {place : NodePlace}
  {build build' : Build V}

/-! ### What attributes leave alone -/

theorem setAttribute_keeps {entry : String × Json}
    (h : b.setAttribute c target place build entry = .ok build') :
    build'.tree.skeleton = build.tree.skeleton ∧ build'.ids = build.ids := by
  unfold setAttribute at h
  simp only at h
  split at h
  · obtain ⟨value, -, h⟩ := bind_eq_ok_iff.1 h
    obtain ⟨shown, -, h⟩ := bind_eq_ok_iff.1 h
    split at h
    · cases h
      rw [Build.bind_tree, Build.bind_ids]
      exact ⟨rfl, rfl⟩
    · rename_i view hview
      obtain ⟨_, -, h⟩ := bind_eq_ok_iff.1 h
      cases h
      rw [Build.bind_tree, Build.bind_ids]
      exact ⟨ViewTree.skeleton_setView hview _, rfl⟩
  · cases h

theorem setAttributes_keep : ∀ {attributes : List (String × Json)} {build build' : Build V},
    attributes.foldlM (b.setAttribute c target place) build = .ok build' →
      build'.tree.skeleton = build.tree.skeleton ∧ build'.ids = build.ids
  | [], _, _, h => by
    cases h
    exact ⟨rfl, rfl⟩
  | entry :: attributes, build, build', h => by
    rw [List.foldlM_cons] at h
    obtain ⟨next, hnext, h⟩ := bind_eq_ok_iff.1 h
    obtain ⟨htree, hids⟩ := setAttribute_keeps hnext
    obtain ⟨htree', hids'⟩ := setAttributes_keep h
    exact ⟨htree'.trans htree, hids'.trans hids⟩

/-- A node of its own adds one row, without children as yet, and its id. -/
theorem own_skeleton {id : Option String} {attributes : List (String × Json)}
    {parent handle : Handle}
    (h : b.own kind id attributes parent place build = .ok (handle, build')) :
    handle = ⟨build.tree.size⟩ ∧
      build'.tree.skeleton = (build.tree.skeleton.insert parent kind id ()).2 ∧
      build'.ids.entries = build.ids.entries ++
        (id.map fun id => (id, ⟨handle, parent, place.text⟩)).toList ∧
      ((build.ids.entries.map Prod.fst).Nodup → (build'.ids.entries.map Prod.fst).Nodup) := by
  unfold own at h
  split at h
  · cases h
  · rename_i c hc
    obtain ⟨build₁, hd, h⟩ := bind_eq_ok_iff.1 h
    obtain ⟨build₂, hset, h⟩ := bind_eq_ok_iff.1 h
    cases h
    obtain ⟨htree, -⟩ := Build.declare_eq hd
    obtain ⟨hids, hnodup⟩ := Build.declare_ids hd
    obtain ⟨htree', hids'⟩ := setAttributes_keep hset
    rw [htree', htree, hids']
    exact ⟨rfl, build.tree.skeleton_insert parent kind id c.create, hids, hnodup⟩

theorem own_size {id : Option String} {attributes : List (String × Json)} {parent handle : Handle}
    (h : b.own kind id attributes parent place build = .ok (handle, build')) :
    build'.tree.size = build.tree.size + 1 := by
  obtain ⟨-, htree, -⟩ := own_skeleton h
  rw [← ViewTree.size_skeleton, htree, ViewTree.size, ViewTree.insert_nodes, List.length_append,
    List.length_modify, List.length_singleton]
  exact congrArg (· + 1) build.tree.size_skeleton

/-! ### Nodes -/

/-- From one build to another the tree has grown by the rows of the listed nodes,
of which `children` are new children of `parent`, and the id table by their
ids. -/
structure Grown (handle : NodePlace → Handle) (parent : Handle) (children : List NodePlace)
    (listed : List (NodePlace × Node)) (build build' : Build V) : Prop where
  nodes : build'.tree.skeleton.nodes =
    build.tree.skeleton.nodes.modify parent.index (ViewNode.adopt (children.map handle)) ++
      listed.map (row handle)
  ids : build'.ids.entries = build.ids.entries ++ listed.filterMap (declared handle)
  nodup : (build.ids.entries.map Prod.fst).Nodup → (build'.ids.entries.map Prod.fst).Nodup

theorem Grown.size {handle : NodePlace → Handle} {parent : Handle} {children : List NodePlace}
    {listed : List (NodePlace × Node)} (h : Grown handle parent children listed build build') :
    build'.tree.size = build.tree.size + listed.length := by
  calc build'.tree.size = build'.tree.skeleton.nodes.length := build'.tree.size_skeleton.symm
    _ = build.tree.skeleton.nodes.length + listed.length := by
      rw [h.nodes, List.length_append, List.length_modify, List.length_map]
    _ = build.tree.size + listed.length := by rw [← ViewTree.size, build.tree.size_skeleton]

theorem adopt_adopt (hs hs' : List Handle) (nodes : List (ViewNode Unit)) (i : Nat) :
    (nodes.modify i (ViewNode.adopt hs)).modify i (ViewNode.adopt hs') =
      nodes.modify i (ViewNode.adopt (hs ++ hs')) := by
  rw [List.modify_modify_eq]
  refine congrArg (List.modify nodes i) (funext fun n => ?_)
  show ViewNode.adopt hs' (ViewNode.adopt hs n) = _
  rw [ViewNode.adopt, ViewNode.adopt, ViewNode.adopt, List.append_assoc]

theorem adopt_nil (nodes : List (ViewNode Unit)) (i : Nat) :
    nodes.modify i (ViewNode.adopt []) = nodes := by
  have hid : (ViewNode.adopt [] : ViewNode Unit → ViewNode Unit) = id := by
    funext n
    rw [ViewNode.adopt, List.append_nil]
    rfl
  rw [hid, List.modify_id]

/-- A node by itself, and then what is below it. -/
theorem Grown.below {handle : NodePlace → Handle} {parent : Handle} {id : Option String}
    {attributes : List (String × Json)} {children : List Node} {own : Build V}
    (hplace : handle place = ⟨build.tree.size⟩) (hparent : handle place.dropLast = parent)
    (hown : b.own kind id attributes parent place build = .ok (handle place, own))
    (h : Grown handle (handle place) (place.childrenFrom 0 children.length)
      (Node.listingAll place 0 children) own build') :
    Grown handle parent [place] ((Node.mk kind id attributes children).listing place) build
      build' := by
  obtain ⟨-, htree, hids, hnodup⟩ := own_skeleton hown
  have hsize : (build.tree.skeleton.nodes.modify parent.index
      (ViewNode.adopt [handle place])).length = (handle place).index := by
    rw [List.length_modify, hplace]
    exact build.tree.size_skeleton
  rw [Node.listing]
  constructor
  · have hnodes : own.tree.skeleton.nodes =
        build.tree.skeleton.nodes.modify parent.index (ViewNode.adopt [handle place]) ++
          [⟨kind, id, some parent, [], some ()⟩] := by
      rw [htree, ViewTree.insert_nodes, ViewTree.size_skeleton, ← hplace]
    -- the new node is the last one, and takes its children
    rw [h.nodes, hnodes, ← hsize, modify_append_length, List.append_assoc, List.map_cons,
      List.map_cons, List.map_nil, row, hparent]
    rfl
  · rw [h.ids, hids, List.append_assoc, List.filterMap_cons, declared, hparent]
    cases id <;> rfl
  · exact fun h' => h.nodup (hnodup h')

/-- A node and all below it, and then those after it. -/
theorem Grown.beside {handle : NodePlace → Handle} {parent : Handle} {index : Nat} {n : Node}
    {rest : List Node} {next : Build V} (hparent : parent.index < build.tree.size)
    (h : Grown handle parent [place ++ [index]] (n.listing (place ++ [index])) build next)
    (h' : Grown handle parent (place.childrenFrom (index + 1) rest.length)
      (Node.listingAll place (index + 1) rest) next build') :
    Grown handle parent (place.childrenFrom index (rest.length + 1))
      (Node.listingAll place index (n :: rest)) build build' := by
  have hlt : parent.index < (build.tree.skeleton.nodes.modify parent.index
      (ViewNode.adopt ([place ++ [index]].map handle))).length := by
    rw [List.length_modify, ← ViewTree.size, build.tree.size_skeleton]
    exact hparent
  rw [Node.listingAll, NodePlace.childrenFrom_succ]
  constructor
  · rw [h'.nodes, h.nodes, modify_append_of_lt _ hlt, adopt_adopt, List.append_assoc,
      List.map_append, ← List.map_append]
    rfl
  · rw [h'.ids, h.ids, List.append_assoc, List.filterMap_append]
  · exact fun hnodup => h'.nodup (h.nodup hnodup)

mutual

theorem node_grown {handle : NodePlace → Handle} : ∀ (n : Node) {parent : Handle}
    {place : NodePlace} {build build' : Build V},
      Numbers handle build.tree.size ((n.listing place).map Prod.fst) →
      handle place.dropLast = parent →
      b.node n parent place build = .ok build' →
      Grown handle parent [place] (n.listing place) build build'
  | .mk kind id attributes children, parent, place, build, build', hnumbers, hparent, h => by
    rw [node] at h
    obtain ⟨⟨new, own⟩, hown, h⟩ := bind_eq_ok_iff.1 h
    rw [Node.listing, List.map_cons] at hnumbers
    obtain ⟨hplace, hbelow⟩ := numbers_cons hnumbers
    obtain ⟨hnew, -⟩ := own_skeleton hown
    obtain rfl : new = handle place := hnew.trans hplace.symm
    have hsize := own_size hown
    refine Grown.below hplace hparent hown (siblings_grown children ?_ rfl ?_ h)
    · rw [hsize]
      exact hbelow
    · rw [hsize, hplace]
      exact Nat.lt_succ_self _
termination_by structural n => n

theorem siblings_grown {handle : NodePlace → Handle} : ∀ (ns : List Node) {parent : Handle}
    {place : NodePlace} {index : Nat} {build build' : Build V},
      Numbers handle build.tree.size ((Node.listingAll place index ns).map Prod.fst) →
      handle place = parent → parent.index < build.tree.size →
      b.siblings ns parent place index build = .ok build' →
      Grown handle parent (place.childrenFrom index ns.length) (Node.listingAll place index ns)
        build build'
  | [], _, _, _, build, _, _, _, _, h => by
    cases h
    refine ⟨?_, (List.append_nil _).symm, fun h => h⟩
    show _ = build.tree.skeleton.nodes.modify _ (ViewNode.adopt []) ++ []
    rw [adopt_nil, List.append_nil]
  | n :: rest, parent, place, index, build, build', hnumbers, hplace, hlt, h => by
    rw [siblings] at h
    obtain ⟨next, hnext, h⟩ := bind_eq_ok_iff.1 h
    rw [Node.listingAll, List.map_append] at hnumbers
    obtain ⟨hnode, hrest⟩ := numbers_append hnumbers
    rw [List.length_map] at hrest
    have hparent : handle (place ++ [index]).dropLast = parent := by
      rw [List.dropLast_concat, hplace]
    have hgrown := node_grown n hnode hparent hnext
    rw [← hgrown.size] at hrest
    have hlt' : parent.index < next.tree.size := by
      rw [hgrown.size]
      exact Nat.lt_add_right _ hlt
    exact hgrown.beside hlt (siblings_grown rest hrest hplace hlt' h)
termination_by structural ns => ns

end

/-- What is built of a document is its listing. -/
theorem all_grown {doc : Document} {build : Build V} (h : b.all doc.layout = .ok build) :
    Grown doc.handleAt .root (NodePlace.childrenFrom [] 0 doc.layout.length) doc.listing
      (.start b.config.root) build :=
  siblings_grown doc.layout (numbers_handleAt doc) doc.handleAt_nil Nat.one_pos h

end Builder

end ViewMarkup
