/-
# Ids fail a build only by being repeated

Without its ids a document builds the same views and bindings. With them a build
goes the same way, one id table richer, up to the first node whose id is taken,
and ends there: at its place, and with the place at which the id stands first.
Nodes are taken in document order, whether they are below one another or far
apart.

Key definitions: `Node.anonymous`, `Build.anonymous`, `FirstRepeat`,
`Build.Outcome`.
Key theorems: `Builder.setAttribute_anonymous`, `Builder.own_outcome`,
`Builder.node_outcome`, `Builder.repeated_id_ends_build`.
-/
import ViewMarkup.Proofs.Build.Listing
import ViewMarkup.Rendered

namespace ViewMarkup

/-! ### Without ids -/

namespace Node

mutual

/-- The node without its id, and with none below it. -/
def anonymous : Node → Node
  | mk kind _ attributes children => mk kind none attributes (anonymousAll children)
termination_by structural n => n

def anonymousAll : List Node → List Node
  | [] => []
  | n :: rest => n.anonymous :: anonymousAll rest
termination_by structural ns => ns

end

end Node

variable {V : Type}

def ViewNode.anonymous (n : ViewNode V) : ViewNode V := { n with id := none }

namespace ViewTree

def anonymous (tree : ViewTree V) : ViewTree V := ⟨tree.nodes.map ViewNode.anonymous⟩

variable (tree : ViewTree V)

theorem size_anonymous : tree.anonymous.size = tree.size := List.length_map _

theorem view?_anonymous (h : Handle) : tree.anonymous.view? h = tree.view? h := by
  rw [view?, view?, node?, node?, anonymous, List.getElem?_map]
  cases tree.nodes[h.index]? <;> rfl

theorem anonymous_setView (h : Handle) (view : V) :
    (tree.setView h view).anonymous = tree.anonymous.setView h view :=
  congrArg ViewTree.mk (map_modify_of_comm (by intro n; rfl) h.index tree.nodes)

theorem anonymous_insert (parent : Handle) (kind : String) (id : Option String) (view : V) :
    (tree.insert parent kind id view).2.anonymous =
      (tree.anonymous.insert parent kind none view).2 := by
  have hadopt : (tree.nodes.modify parent.index (ViewNode.adopt [⟨tree.size⟩])).map
      ViewNode.anonymous = tree.anonymous.nodes.modify parent.index
        (ViewNode.adopt [⟨tree.size⟩]) :=
    map_modify_of_comm (by intro n; rfl) parent.index tree.nodes
  have hnodes := tree.anonymous.insert_nodes parent kind none view
  rw [size_anonymous, ← hadopt] at hnodes
  rw [anonymous, insert_nodes, List.map_append]
  exact congrArg ViewTree.mk hnodes.symm

end ViewTree

namespace Build

/-- What has been built, as if no node had an id. -/
def anonymous (build : Build V) : Build V := ⟨build.tree.anonymous, .empty, build.bindings⟩

/-- A new view at the end of the children of `parent`. -/
def attach (build : Build V) (parent : Handle) (kind : String) (id : Option String) (view : V) :
    Build V := { build with tree := (build.tree.insert parent kind id view).2 }

theorem anonymous_bind (build : Build V) (target : Handle) (name keyPath : String)
    (value : AttributeValue) (shown : PropertyValue) :
    (build.bind target name keyPath value shown).anonymous =
      build.anonymous.bind target name keyPath value shown := by
  unfold bind
  split <;> rfl

end Build

namespace Builder

variable {b : Builder V} {c : ViewClass V} {target : Handle} {place : NodePlace}

/-- Attributes do not look at ids. -/
theorem setAttribute_anonymous (build : Build V) (entry : String × Json) :
    b.setAttribute c target place build.anonymous entry =
      (b.setAttribute c target place build entry).map Build.anonymous := by
  unfold setAttribute
  dsimp only
  split
  · cases located (place.property entry.1) (AttributeValue.resolve entry.2 b.config.palette) with
    | error e => rfl
    | ok value =>
      show (located _ (value.compose b.data build.bindings.root) >>= _) =
        (located _ (value.compose b.data build.bindings.root) >>= _).map _
      cases located (place.property entry.1) (value.compose b.data build.bindings.root) with
      | error e => rfl
      | ok shown =>
        have hview : build.anonymous.tree.view? target = build.tree.view? target :=
          build.tree.view?_anonymous target
        simp only [bind, Except.bind, hview]
        cases build.tree.view? target with
        | none => exact congrArg Except.ok (build.anonymous_bind ..).symm
        | some view =>
          dsimp only
          cases (c.set view entry.1 shown (place.property entry.1)).1 with
          | error e => rfl
          | ok _ =>
            refine congrArg Except.ok ?_
            rw [Build.anonymous_bind, Build.anonymous, Build.anonymous, ViewTree.anonymous_setView]
  · rfl

theorem setAttributes_anonymous : ∀ (attributes : List (String × Json)) (build : Build V),
    attributes.foldlM (b.setAttribute c target place) build.anonymous =
      (attributes.foldlM (b.setAttribute c target place) build).map Build.anonymous
  | [], _ => rfl
  | entry :: attributes, build => by
    rw [List.foldlM_cons, List.foldlM_cons, setAttribute_anonymous]
    cases b.setAttribute c target place build entry with
    | error e => rfl
    | ok next => exact setAttributes_anonymous attributes next

end Builder

/-! ### The first repeated id -/

/-- What a node declares: its id, and where. -/
def NodePlace.named (entry : NodePlace × Node) : Option (String × String) :=
  entry.2.id.map fun id => (id, entry.1.text)

/-- The declared ids, each with where it was declared. -/
def IdTable.places (ids : IdTable) : List (String × String) :=
  ids.entries.map fun (id, entry) => (id, entry.keyPath)

/-- Of nodes that come after those which have declared `seen`, one has an id that
is taken, and none before it has. The error has its place, and the place of the
other. -/
def FirstRepeat (seen : List (String × String)) (listed : List (NodePlace × Node))
    (e : MarkupError) : Prop :=
  ∃ before place n after id first, listed = before ++ (place, n) :: after ∧ n.id = some id ∧
    ((seen ++ before.filterMap NodePlace.named).map Prod.fst).Nodup ∧
    (id, first) ∈ seen ++ before.filterMap NodePlace.named ∧ e = ⟨.duplicateId id first, place.text⟩

/-- How it ends to build the listed nodes after `seen` was declared, if they can be
built without their ids, which gives `plain`. -/
inductive Build.Outcome (seen : List (String × String)) (listed : List (NodePlace × Node))
    (plain : Build V) : Except MarkupError (Build V) → Prop
  | built {build : Build V} (hplain : build.anonymous = plain)
    (hplaces : build.ids.places = seen ++ listed.filterMap NodePlace.named)
    (hnodup : (build.ids.places.map Prod.fst).Nodup) : Outcome seen listed plain (.ok build)
  | repeated {e : MarkupError} (h : FirstRepeat seen listed e) :
    Outcome seen listed plain (.error e)

namespace FirstRepeat

variable {seen : List (String × String)} {listed others : List (NodePlace × Node)} {e : MarkupError}

theorem append_right (h : FirstRepeat seen listed e) (others : List (NodePlace × Node)) :
    FirstRepeat seen (listed ++ others) e := by
  obtain ⟨before, place, n, after, id, first, rfl, hid, hnodup, hfirst, rfl⟩ := h
  exact ⟨before, place, n, after ++ others, id, first, by simp, hid, hnodup, hfirst, rfl⟩

theorem append_left (h : FirstRepeat (seen ++ listed.filterMap NodePlace.named) others e) :
    FirstRepeat seen (listed ++ others) e := by
  obtain ⟨before, place, n, after, id, first, rfl, hid, hnodup, hfirst, rfl⟩ := h
  rw [List.append_assoc, ← List.filterMap_append] at hnodup hfirst
  exact ⟨listed ++ before, place, n, after, id, first, by simp, hid, hnodup, hfirst, rfl⟩

end FirstRepeat

/-- Nodes that are built one after the other. -/
theorem Build.Outcome.bind {seen : List (String × String)} {plain plain' : Build V}
    {listed others : List (NodePlace × Node)} {r : Except MarkupError (Build V)}
    {f : Build V → Except MarkupError (Build V)} (h : Build.Outcome seen listed plain r)
    (hf : ∀ next : Build V, next.anonymous = plain → (next.ids.places.map Prod.fst).Nodup →
      Build.Outcome next.ids.places others plain' (f next)) :
    Build.Outcome seen (listed ++ others) plain' (r >>= f) := by
  cases h with
  | repeated h => exact .repeated (h.append_right others)
  | @built next hplain hplaces hnodup =>
    have hnext := hf next hplain hnodup
    show Build.Outcome seen (listed ++ others) plain' (f next)
    generalize f next = r at hnext ⊢
    cases hnext with
    | repeated h =>
      rw [hplaces] at h
      exact .repeated h.append_left
    | built hplain' hplaces' hnodup' =>
      refine .built hplain' ?_ hnodup'
      rw [hplaces', hplaces, List.filterMap_append, List.append_assoc]

namespace Builder

variable {b : Builder V} {kind : String} {id : Option String} {attributes : List (String × Json)}
  {parent : Handle} {place : NodePlace}

theorem declare_outcome (build : Build V) {entry : IdEntry} {children : List Node}
    (hkeyPath : entry.keyPath = place.text)
    (hnodup : (build.ids.places.map Prod.fst).Nodup) :
    Build.Outcome build.ids.places [(place, .mk kind id attributes children)] build.anonymous
      (build.declare id entry) := by
  have hkeys (ids : IdTable) : ids.places.map Prod.fst = ids.entries.map Prod.fst := by
    rw [IdTable.places, List.map_map]
    rfl
  cases h : build.declare id entry with
  | ok build' =>
    obtain ⟨htree, hbindings⟩ := Build.declare_eq h
    obtain ⟨hids, hkept⟩ := Build.declare_ids h
    refine .built ?_ ?_ ?_
    · rw [Build.anonymous, Build.anonymous, htree, hbindings]
    · rw [IdTable.places, hids, List.map_append]
      cases id with
      | none => rfl
      | some name =>
        show build.ids.places ++ [(name, entry.keyPath)] = _
        rw [hkeyPath]
        rfl
    · rw [hkeys] at hnodup ⊢
      exact hkept hnodup
  | error e =>
    unfold Build.declare at h
    split at h
    · cases h
    · rename_i name
      split at h
      · cases h
      · rename_i first hfirst
        cases h
        have hentry : build.ids.entries.lookup name = some first := by
          unfold IdTable.declare at hfirst
          split at hfirst
          · rename_i found hfound
            cases hfirst
            exact hfound
          · cases hfirst
        obtain ⟨before, after, hsplit, -⟩ := List.lookup_eq_some_iff.1 hentry
        have hmem : (name, first.keyPath) ∈ build.ids.places := by
          rw [IdTable.places, hsplit, List.map_append]
          exact List.mem_append_right _ List.mem_cons_self
        refine .repeated ⟨[], place, _, [], name, first.keyPath, rfl, rfl, ?_, ?_, by rw [hkeyPath]⟩
        · rw [List.filterMap_nil, List.append_nil]
          exact hnodup
        · rw [List.filterMap_nil, List.append_nil]
          exact hmem

/-- Attributes that can be set on the node without its id can be set on it. -/
theorem setAttributes_outcome {c : ViewClass V} {target : Handle} {build plain : Build V}
    (hnodup : (build.ids.places.map Prod.fst).Nodup)
    (h : attributes.foldlM (b.setAttribute c target place) build.anonymous = .ok plain) :
    Build.Outcome build.ids.places [] plain (attributes.foldlM (b.setAttribute c target place) build) := by
  rw [setAttributes_anonymous] at h
  obtain ⟨build', hset, hplain⟩ := map_eq_ok_iff.1 h
  obtain ⟨-, hids⟩ := setAttributes_keep hset
  rw [hset]
  refine .built hplain ?_ ?_
  · rw [hids, List.filterMap_nil, List.append_nil]
  · rw [hids]
    exact hnodup

/-- A node by itself: its view is attached, its id declared, its attributes are
set. -/
theorem own_eq {c : ViewClass V} (hc : b.registry.class? kind = some c) (build : Build V) :
    b.own kind id attributes parent place build =
      ((build.attach parent kind id c.create).declare id ⟨⟨build.tree.size⟩, parent, place.text⟩ >>=
        attributes.foldlM (b.setAttribute c ⟨build.tree.size⟩ place)).map
          fun next => (⟨build.tree.size⟩, next) := by
  unfold own
  rw [hc]
  show ((build.attach parent kind id c.create).declare id ⟨⟨build.tree.size⟩, parent, place.text⟩ >>=
    _) = _
  cases (build.attach parent kind id c.create).declare id ⟨⟨build.tree.size⟩, parent, place.text⟩ with
  | error e => rfl
  | ok declared =>
    show (attributes.foldlM (b.setAttribute c ⟨build.tree.size⟩ place) declared >>= _) =
      (attributes.foldlM (b.setAttribute c ⟨build.tree.size⟩ place) declared).map _
    cases attributes.foldlM (b.setAttribute c ⟨build.tree.size⟩ place) declared <;> rfl

/-- A node by itself is built as without its id, unless its id is taken. -/
theorem own_outcome {build plain : Build V} {children : List Node} {new : Handle}
    (hnodup : (build.ids.places.map Prod.fst).Nodup)
    (h : b.own kind none attributes parent place build.anonymous = .ok (new, plain)) :
    new = ⟨build.tree.size⟩ ∧
      Build.Outcome build.ids.places [(place, .mk kind id attributes children)] plain
        ((b.own kind id attributes parent place build).map Prod.snd) := by
  cases hc : b.registry.class? kind with
  | none =>
    unfold own at h
    rw [hc] at h
    cases h
  | some c =>
    rw [own_eq hc] at h
    obtain ⟨_, hset, heq⟩ := map_eq_ok_iff.1 h
    obtain ⟨rfl, rfl⟩ := Prod.mk.inj heq
    have hsize : build.anonymous.tree.size = build.tree.size := build.tree.size_anonymous
    have hattached : build.anonymous.attach parent kind none c.create =
        (build.attach parent kind id c.create).anonymous :=
      congrArg (Build.mk · .empty build.bindings)
        (build.tree.anonymous_insert parent kind id c.create).symm
    rw [hattached, hsize] at hset
    refine ⟨congrArg Handle.mk hsize, ?_⟩
    have hdeclared : Build.Outcome build.ids.places [(place, .mk kind id attributes children)]
        (build.attach parent kind id c.create).anonymous
        ((build.attach parent kind id c.create).declare id
          ⟨⟨build.tree.size⟩, parent, place.text⟩) :=
      declare_outcome (build.attach parent kind id c.create) rfl hnodup
    have hboth := hdeclared.bind fun next hnext hnodup' =>
      setAttributes_outcome hnodup' (hnext ▸ hset)
    rw [own_eq hc]
    generalize (_ >>= _ : Except MarkupError (Build V)) = r at hboth ⊢
    cases r <;> exact hboth

/-! ### Nodes -/

mutual

theorem node_outcome : ∀ (n : Node) {parent : Handle} {place : NodePlace} {build plain : Build V},
    (build.ids.places.map Prod.fst).Nodup →
      b.node n.anonymous parent place build.anonymous = .ok plain →
      Build.Outcome build.ids.places (n.listing place) plain (b.node n parent place build)
  | .mk kind id attributes children, parent, place, build, plain, hnodup, h => by
    rw [Node.anonymous, node] at h
    obtain ⟨⟨new, own⟩, hown, h⟩ := bind_eq_ok_iff.1 h
    obtain ⟨rfl, houtcome⟩ := own_outcome hnodup hown
    have hboth := houtcome.bind fun next hnext hnodup' =>
      siblings_outcome children hnodup' (hnext ▸ h)
    rw [node, Node.listing]
    cases hown' : b.own kind id attributes parent place build with
    | error e =>
      rw [hown'] at hboth
      exact hboth
    | ok own' =>
      obtain ⟨new, own'⟩ := own'
      obtain ⟨rfl, -⟩ := own_skeleton hown'
      rw [hown'] at hboth
      exact hboth
termination_by structural n => n

theorem siblings_outcome : ∀ (ns : List Node) {parent : Handle} {place : NodePlace} {index : Nat}
    {build plain : Build V}, (build.ids.places.map Prod.fst).Nodup →
      b.siblings (Node.anonymousAll ns) parent place index build.anonymous = .ok plain →
      Build.Outcome build.ids.places (Node.listingAll place index ns) plain
        (b.siblings ns parent place index build)
  | [], _, _, _, build, _, hnodup, h => by
    cases h
    exact .built rfl (List.append_nil _).symm hnodup
  | n :: rest, parent, place, index, build, plain, hnodup, h => by
    rw [Node.anonymousAll, siblings] at h
    obtain ⟨next, hnext, h⟩ := bind_eq_ok_iff.1 h
    rw [siblings, Node.listingAll]
    exact (node_outcome n hnodup hnext).bind fun next' hplain hnodup' =>
      siblings_outcome rest hnodup' (hplain ▸ h)
termination_by structural ns => ns

end

theorem all_outcome {doc : Document} {plain : Build V}
    (h : b.all (Node.anonymousAll doc.layout) = .ok plain) :
    Build.Outcome [] doc.listing plain (b.all doc.layout) := by
  have hstart : (Build.start b.config.root : Build V).anonymous = .start b.config.root := rfl
  have hnodup : ((Build.start b.config.root : Build V).ids.places.map Prod.fst).Nodup :=
    List.nodup_nil
  rw [all, ← hstart] at h
  exact siblings_outcome doc.layout hnodup h

end Builder

/-! ### Documents -/

theorem map_fst_named (listed : List (NodePlace × Node)) :
    (listed.filterMap NodePlace.named).map Prod.fst = listed.filterMap fun entry => entry.2.id := by
  rw [List.map_filterMap]
  refine List.filterMap_congr fun entry _ => ?_
  rw [NodePlace.named]
  cases entry.2.id <;> rfl

/-- The node that an error of the first repeated id is about, and the one that has
the id before it. -/
theorem FirstRepeat.split {listed : List (NodePlace × Node)} {e : MarkupError}
    (h : FirstRepeat [] listed e) :
    ∃ before p n between q m after id, listed = before ++ (p, n) :: between ++ (q, m) :: after ∧
      n.id = some id ∧ m.id = some id ∧
      ((before ++ (p, n) :: between).filterMap fun entry => entry.2.id).Nodup ∧
      e = ⟨.duplicateId id p.text, q.text⟩ := by
  obtain ⟨earlier, q, m, after, id, first, rfl, hid, hnodup, hfirst, rfl⟩ := h
  rw [List.nil_append] at hnodup hfirst
  obtain ⟨⟨p, n⟩, hmem, hnamed⟩ := List.mem_filterMap.1 hfirst
  obtain ⟨id', hn, heq⟩ := Option.map_eq_some_iff.1 hnamed
  obtain ⟨rfl, rfl⟩ := Prod.mk.inj heq
  obtain ⟨before, between, rfl⟩ := List.append_of_mem hmem
  rw [map_fst_named] at hnodup
  exact ⟨before, p, n, between, q, m, after, id', rfl, hn, hid, hnodup, rfl⟩

/-- **A repeated id ends the build, and nothing else about ids does.** If a
document can be built without its ids, it can be built with them unless two of
its nodes have the same one. The error is then at the first node in document
order whose id an earlier node has, and names the place of that node, which is
the only one before it with this id. -/
theorem Builder.repeated_id_ends_build {b : Builder V} {doc : Document} {plain : Build V}
    (h : b.all (Node.anonymousAll doc.layout) = .ok plain) :
    ((∃ e, b.all doc.layout = .error e) ↔
      ∃ p q n m id, p ≠ q ∧ doc.node? p = some n ∧ doc.node? q = some m ∧
        n.id = some id ∧ m.id = some id) ∧
    ∀ e, b.all doc.layout = .error e →
      render b.registry b.config doc b.data = .error e ∧
      ∃ before p n between q m after id,
        doc.listing = before ++ (p, n) :: between ++ (q, m) :: after ∧
        n.id = some id ∧ m.id = some id ∧
        ((before ++ (p, n) :: between).filterMap fun entry => entry.2.id).Nodup ∧
        e = ⟨.duplicateId id p.text, q.text⟩ := by
  have houtcome := all_outcome h
  have hrepeat : ∀ e, b.all doc.layout = .error e → FirstRepeat [] doc.listing e := by
    intro e he
    rw [he] at houtcome
    cases houtcome with
    | repeated hfirst => exact hfirst
  refine ⟨⟨?_, ?_⟩, fun e he => ⟨bind_eq_error_iff.2 (.inl he), (hrepeat e he).split⟩⟩
  · rintro ⟨e, he⟩
    obtain ⟨before, p, n, between, q, m, after, id, hlisting, hn, hm, -, -⟩ := (hrepeat e he).split
    have hp : (p, n) ∈ doc.listing := by
      rw [hlisting]
      simp
    have hq : (q, m) ∈ doc.listing := by
      rw [hlisting]
      simp
    refine ⟨p, q, n, m, id, ?_, doc.mem_listing_iff.1 hp, doc.mem_listing_iff.1 hq, hn, hm⟩
    rintro rfl
    have hplaces := doc.nodup_listing_places
    rw [hlisting, List.map_append, List.map_cons, List.nodup_append] at hplaces
    exact hplaces.2.2 p (by simp) p List.mem_cons_self rfl
  · rintro ⟨p, q, n, m, id, hne, hp, hq, hn, hm⟩
    cases hall : b.all doc.layout with
    | error e => exact ⟨e, rfl⟩
    | ok build =>
      rw [hall] at houtcome
      cases houtcome with
      | built _ hplaces hnodup =>
        -- no two nodes of a finished build have one id
        rw [hplaces, List.nil_append, map_fst_named] at hnodup
        have hdistinct := List.pairwise_filterMap.1 hnodup
        have hsymm : Std.Symm fun x y : NodePlace × Node =>
            ∀ a, x.2.id = some a → ∀ a', y.2.id = some a' → a ≠ a' :=
          ⟨fun x y hxy a ha a' ha' => (hxy a' ha' a ha).symm⟩
        have hentries : (p, n) ≠ (q, m) := fun heq => hne (congrArg Prod.fst heq)
        exact absurd rfl (hdistinct.forall (doc.mem_listing_iff.2 hp)
          (doc.mem_listing_iff.2 hq) hentries id hn id hm)

/-! ### A document with three repeated ids -/

/-- The second `b` comes before the second `c`, which is below the first, and the
second `d`. -/
def familyDocument : Document where
  layout :=
    [.mk "UIView" (some "a") []
      [.mk "UIView" none []
        [.mk "UILabel" (some "b") [("text", .string "#{@bind(user)}")] []]],
      .mk "UIView" (some "c") []
        [.mk "UILabel" (some "d") [] [],
          .mk "UIView" none [] [.mk "UIView" (some "b") [] [.mk "UIView" (some "c") [] []]]],
      .mk "UILabel" (some "d") [] []]
  constraints := []

def familyBuilder : Builder StandardView :=
  ⟨.standard, {}, Json.lookup (.object [("user", .string "Ada")])⟩

theorem familyDocument_fails :
    (∃ e, familyBuilder.all familyDocument.layout = .error e ∧
      render .standard {} familyDocument familyBuilder.data = .error e ∧
      e = ⟨.duplicateId "b" "@layout[0].@subviews[0].@subviews[0]",
        "@layout[1].@subviews[1].@subviews[0]"⟩ ∧
      ∃ before p n between q m after id,
        familyDocument.listing = before ++ (p, n) :: between ++ (q, m) :: after ∧
        n.id = some id ∧ m.id = some id ∧
        ((before ++ (p, n) :: between).filterMap fun entry => entry.2.id).Nodup ∧
        e = ⟨.duplicateId id p.text, q.text⟩) ∧
      ∃ p q n m id, p ≠ q ∧ familyDocument.node? p = some n ∧ familyDocument.node? q = some m ∧
        n.id = some id ∧ m.id = some id := by
  have hplain : ((familyBuilder.all (Node.anonymousAll familyDocument.layout)).map
      fun _ => ()).toOption = some () := by decide +kernel
  obtain ⟨plain, hplain, -⟩ := map_eq_ok_iff.1 (toOption_eq_some_iff.1 hplain)
  have hfails : (familyBuilder.all familyDocument.layout).map (fun _ => ()) =
      .error ⟨.duplicateId "b" "@layout[0].@subviews[0].@subviews[0]",
        "@layout[1].@subviews[1].@subviews[0]"⟩ := by decide +kernel
  have hfails := map_eq_error_iff.1 hfails
  obtain ⟨hiff, herror⟩ := Builder.repeated_id_ends_build hplain
  obtain ⟨hrender, hsplit⟩ := herror _ hfails
  exact ⟨⟨_, hfails, hrender, rfl, hsplit⟩, hiff.1 ⟨_, hfails⟩⟩

end ViewMarkup
