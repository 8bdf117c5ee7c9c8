/-
# A document is rendered part by part

To render a document is to take up its parts one after the other, in document
order: a node is attached and its id declared, an attribute is set, a spec is
resolved. Which part fails, and what has come about until then, depends on the
parts up to there alone.

Handles are given out in document order, so any function that numbers the
places of the nodes in this order (`Numbers`) tells which node a part is about.

Key definitions: `Builder.takeUp`, `Rendered.ofBuild`.
Key theorems: `Builder.own_takeUp`, `Builder.node_takeUp`,
`Builder.siblings_takeUp`, `render_eq_takeUp`, `render_cut`.
-/
import ViewMarkup.Proofs.Build.Listing
import ViewMarkup.Proofs.Document.Parts
import ViewMarkup.Rendered

namespace ViewMarkup

variable {V : Type}

/-- What there is once views are built and specs are resolved. -/
def Rendered.ofBuild (registry : ViewRegistry V) (state : Build V × List Descriptor) :
    Rendered V where
  registry
  tree := state.1.tree
  ids := state.1.ids
  constraints := state.2
  bindings := state.1.bindings

namespace Builder

/-- Takes up one part of a document, after what has been built and the
descriptors so far. Of a kind without a class there is no node to have
attributes. -/
def takeUp (b : Builder V) (handle : NodePlace → Handle) (state : Build V × List Descriptor) :
    Part → Except MarkupError (Build V × List Descriptor)
  | .node place kind id =>
    (b.own kind id [] (handle place.dropLast) place state.1).map fun own => (own.2, state.2)
  | .property place kind name raw =>
    match b.registry.class? kind with
    | none => .ok state
    | some c =>
      (b.setAttribute c (handle place) place state.1 (name, raw)).map fun build => (build, state.2)
  | .spec index spec =>
    (located (constraintPlace index) (resolve spec state.1.ids b.config.spacing)).map fun ds =>
      (state.1, state.2 ++ ds)

variable {b : Builder V} {handle : NodePlace → Handle} {build : Build V} {ds : List Descriptor}

/-! ### Nodes -/

theorem properties_takeUp {kind : String} {c : ViewClass V} (hc : b.registry.class? kind = some c)
    (place : NodePlace) : ∀ (attributes : List (String × Json)) {build : Build V},
      (attributes.map fun a => Part.property place kind a.1 a.2).foldlM (b.takeUp handle)
          (build, ds) =
        (attributes.foldlM (b.setAttribute c (handle place) place) build).map fun build =>
          (build, ds)
  | [], _ => rfl
  | a :: attributes, build => by
    rw [List.map_cons, List.foldlM_cons, List.foldlM_cons, takeUp, hc]
    dsimp only
    cases b.setAttribute c (handle place) place build (a.1, a.2) with
    | error e => rfl
    | ok next => exact properties_takeUp hc place attributes

/-- A node by itself, and then its attributes. -/
theorem own_takeUp (kind : String) (id : Option String) (attributes : List (String × Json))
    (children : List Node) {place : NodePlace} (hplace : handle place = ⟨build.tree.size⟩) :
    (Node.ownParts (place, .mk kind id attributes children)).foldlM (b.takeUp handle) (build, ds) =
      (b.own kind id attributes (handle place.dropLast) place build).map fun own =>
        (own.2, ds) := by
  rw [Node.ownParts, List.foldlM_cons, takeUp]
  unfold own
  simp only [Node.kind, Node.id, Node.attributes]
  cases hc : b.registry.class? kind with
  | none => rfl
  | some c =>
    have hproperties : ∀ next, (attributes.map fun a => Part.property place kind a.1 a.2).foldlM
        (b.takeUp handle) (next, ds) =
          (attributes.foldlM (b.setAttribute c ⟨build.tree.size⟩ place) next).map fun next =>
            (next, ds) := by
      intro next
      rw [properties_takeUp hc, hplace]
    have hinsert : (build.tree.insert (handle place.dropLast) kind id c.create).1 =
        ⟨build.tree.size⟩ := rfl
    dsimp only
    rw [hinsert]
    cases Build.declare { build with tree := (build.tree.insert (handle place.dropLast) kind id
        c.create).2 } id ⟨⟨build.tree.size⟩, handle place.dropLast, place.text⟩ with
    | error e => rfl
    | ok declared =>
      show List.foldlM (b.takeUp handle) (declared, ds) _ = _
      rw [hproperties]
      show _ = Except.map _ (attributes.foldlM _ declared >>= _)
      cases attributes.foldlM (b.setAttribute c ⟨build.tree.size⟩ place) declared <;> rfl

mutual

theorem node_takeUp : ∀ (n : Node) {place : NodePlace} {build : Build V},
    Numbers handle build.tree.size ((n.listing place).map Prod.fst) →
      ((n.listing place).flatMap Node.ownParts).foldlM (b.takeUp handle) (build, ds) =
        (b.node n (handle place.dropLast) place build).map fun build => (build, ds)
  | .mk kind id attributes children, place, build, hnumbers => by
    rw [Node.listing, List.map_cons] at hnumbers
    obtain ⟨hplace, hbelow⟩ := numbers_cons hnumbers
    rw [Node.listing, List.flatMap_cons, List.foldlM_append, own_takeUp _ _ _ _ hplace, node]
    cases hown : b.own kind id attributes (handle place.dropLast) place build with
    | error e => rfl
    | ok own =>
      obtain ⟨new, own⟩ := own
      obtain ⟨hnew, -⟩ := own_skeleton hown
      obtain rfl : new = handle place := hnew.trans hplace.symm
      rw [← own_size hown] at hbelow
      exact siblings_takeUp children hbelow
termination_by structural n => n

theorem siblings_takeUp : ∀ (ns : List Node) {place : NodePlace} {index : Nat} {build : Build V},
    Numbers handle build.tree.size ((Node.listingAll place index ns).map Prod.fst) →
      ((Node.listingAll place index ns).flatMap Node.ownParts).foldlM (b.takeUp handle)
          (build, ds) =
        (b.siblings ns (handle place) place index build).map fun build => (build, ds)
  | [], _, _, _, _ => rfl
  | n :: rest, place, index, build, hnumbers => by
    rw [Node.listingAll, List.map_append] at hnumbers
    obtain ⟨hnode, hrest⟩ := numbers_append hnumbers
    have hplace : handle (place ++ [index]).dropLast = handle place := by
      rw [List.dropLast_concat]
    rw [Node.listingAll, List.flatMap_append, List.foldlM_append, node_takeUp n hnode, hplace,
      siblings]
    cases hnext : b.node n (handle place) (place ++ [index]) build with
    | error e => rfl
    | ok next =>
      have hsize := (node_grown n hnode hplace hnext).size
      rw [List.length_map, ← hsize] at hrest
      exact siblings_takeUp rest hrest
termination_by structural ns => ns

end

/-! ### Documents -/

theorem specs_takeUp : ∀ (specs : List ConstraintSpec) (index : Nat) (ds : List Descriptor),
    (Part.ofSpecs index specs).foldlM (b.takeUp handle) (build, ds) =
      (resolveAll build.ids b.config.spacing index specs).map fun others => (build, ds ++ others)
  | [], _, ds => by
    show _ = Except.ok (build, ds ++ [])
    rw [List.append_nil]
    rfl
  | spec :: rest, index, ds => by
    rw [Part.ofSpecs, List.foldlM_cons, takeUp, resolveAll]
    cases located (constraintPlace index) (resolve spec build.ids b.config.spacing) with
    | error e => rfl
    | ok here =>
      show (Part.ofSpecs (index + 1) rest).foldlM (b.takeUp handle) (build, ds ++ here) = _
      rw [specs_takeUp rest]
      show _ = Except.map _ (resolveAll build.ids b.config.spacing (index + 1) rest >>= _)
      cases resolveAll build.ids b.config.spacing (index + 1) rest with
      | error e => rfl
      | ok others =>
        show Except.ok (build, ds ++ here ++ others) = Except.ok (build, ds ++ (here ++ others))
        rw [List.append_assoc]

end Builder

/-- **A document is rendered part by part.** -/
theorem render_eq_takeUp (registry : ViewRegistry V) (config : Config) {doc : Document}
    (data : DataSource) {handle : NodePlace → Handle} (hroot : handle [] = .root)
    (hnumbers : Numbers handle 1 (doc.listing.map Prod.fst)) :
    render registry config doc data =
      (doc.parts.foldlM (Builder.takeUp ⟨registry, config, data⟩ handle)
        (.start config.root, [])).map (Rendered.ofBuild registry) := by
  have hlayout : (doc.listing.flatMap Node.ownParts).foldlM
      (Builder.takeUp ⟨registry, config, data⟩ handle) (.start config.root, []) =
        (Builder.siblings ⟨registry, config, data⟩ doc.layout (handle []) [] 0
          (.start config.root)).map fun build => (build, []) :=
    Builder.siblings_takeUp doc.layout hnumbers
  rw [Document.parts, List.foldlM_append, hlayout, hroot, render, Builder.all]
  cases Builder.siblings ⟨registry, config, data⟩ doc.layout .root [] 0 (.start config.root) with
  | error e => rfl
  | ok build =>
    show (resolveAll build.ids config.spacing 0 doc.constraints >>= _) =
      Except.map _ ((Part.ofSpecs 0 doc.constraints).foldlM _ (build, []))
    rw [Builder.specs_takeUp]
    cases resolveAll build.ids config.spacing 0 doc.constraints <;> rfl

/-- The places of a cut document have the handles that they have in the whole. -/
theorem numbers_cut (doc : Document) (count : Nat) :
    Numbers doc.handleAt 1 ((doc.cut count).listing.map Prod.fst) := by
  have hnumbers := numbers_handleAt doc
  rw [doc.listing_places, ← List.take_append_drop count doc.parts, List.filterMap_append]
    at hnumbers
  rw [(doc.cut count).listing_places, doc.parts_cut]
  exact (numbers_append hnumbers).1

/-- A cut document is rendered by the first parts of the whole. -/
theorem render_cut (registry : ViewRegistry V) (config : Config) (doc : Document)
    (data : DataSource) (count : Nat) :
    render registry config (doc.cut count) data =
      ((doc.parts.take count).foldlM (Builder.takeUp ⟨registry, config, data⟩ doc.handleAt)
        (.start config.root, [])).map (Rendered.ofBuild registry) := by
  rw [render_eq_takeUp registry config data doc.handleAt_nil (numbers_cut doc count), doc.parts_cut]

end ViewMarkup
