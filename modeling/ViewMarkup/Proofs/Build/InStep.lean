/-
# A build leaves its bindings in step

A template is bound right after its text was set, and a node's attributes have
different names, so whatever a build binds is shown by the finished tree: what
is set afterwards goes to other properties, and nodes that are attached later
get handles of their own.

Key theorems: `Builder.setAttribute_cases`, `Builder.own_inStep`,
`Builder.node_inStep`, `Builder.all_inStep`.
-/
import ViewMarkup.Build
import ViewMarkup.Proofs.Binding.InStep
import ViewMarkup.Proofs.Document.Distinct

namespace ViewMarkup

variable {V : Type}

theorem ViewClass.set_eq_ok_iff {c : ViewClass V} {view view' : V} {name : String}
    {value : PropertyValue} {keyPath : String} :
    c.set view name value keyPath = (.ok (), view') ↔
      c.apply view name value = (some (.ok ()), view') := by
  unfold ViewClass.set
  split <;> simp_all

/-- An orderly class leaves a view as it was when it reports an error. -/
theorem ViewClass.Orderly.set_refused {c : ViewClass V} (hc : c.Orderly) {view view' : V}
    {name : String} {value : PropertyValue} {keyPath : String} {e : MarkupError}
    (h : c.set view name value keyPath = (.error e, view')) : view' = view := by
  unfold ViewClass.set at h
  split at h
  · cases h
  · rename_i hx
    cases h
    exact hc.apply_refused hx
  · rename_i hx
    cases h
    exact ViewClass.eq_of_apply_none hx

/-! ### Binding what was set -/

namespace Build

variable (build : Build V) (target : Handle) (name keyPath : String) (value : AttributeValue)
  (shown : PropertyValue)

theorem bind_tree : (build.bind target name keyPath value shown).tree = build.tree := by
  unfold bind
  split <;> rfl

/-- What is bound, if anything is, is the live template of the value, with the text
that was set. -/
theorem bind_bindings :
    (build.bind target name keyPath value shown).bindings.bindings = build.bindings.bindings ∨
      ∃ t text, value = .template t ∧ shown = .text text ∧ t.isLive = true ∧
        (build.bind target name keyPath value shown).bindings.bindings =
          build.bindings.bindings ++ [⟨target, name, t, keyPath, text⟩] := by
  unfold bind
  split
  · rename_i t text
    simp only [BindingGraph.register_bindings]
    split
    · rename_i hlive
      exact Or.inr ⟨t, text, rfl, rfl, hlive, rfl⟩
    · exact Or.inl (List.append_nil _)
  · exact Or.inl rfl

/-- The slots that are bound. -/
def slots (build : Build V) : List (Handle × String) := build.bindings.bindings.map Binding.slot

theorem declare_eq {build build' : Build V} {id : Option String} {entry : IdEntry}
    (h : build.declare id entry = .ok build') :
    build'.tree = build.tree ∧ build'.bindings = build.bindings := by
  unfold declare at h
  split at h
  · cases h
    exact ⟨rfl, rfl⟩
  · split at h
    · cases h
      exact ⟨rfl, rfl⟩
    · cases h

end Build

/-! ### One attribute -/

namespace Builder

variable {b : Builder V} {c : ViewClass V} {kind : String} {target : Handle} {place : NodePlace}
  {build build' : Build V}

/-- To set an attribute of a view is to set the property that the attribute's
value has become, and to bind it. -/
theorem setAttribute_cases {entry : String × Json} {view : V}
    (hf : build.tree.face? target = some (kind, view))
    (h : b.setAttribute c target place build entry = .ok build') :
    ∃ value shown view', AttributeValue.resolve entry.2 b.config.palette = .ok value ∧
      value.compose b.data build.bindings.root = .ok shown ∧
      c.apply view entry.1 shown = (some (.ok ()), view') ∧
      build' = { build with tree := build.tree.setView target view' }.bind target entry.1
        (place.property entry.1) value shown := by
  obtain ⟨name, raw⟩ := entry
  unfold setAttribute at h
  simp only at h
  split at h
  · obtain ⟨value, hvalue, h⟩ := bind_eq_ok_iff.1 h
    obtain ⟨shown, hshown, h⟩ := bind_eq_ok_iff.1 h
    rw [ViewTree.view?_of_face? hf] at h
    obtain ⟨_, hanswer, h⟩ := bind_eq_ok_iff.1 h
    cases h
    have hset : c.set view name shown (place.property name) = (.ok (), _) :=
      Prod.ext hanswer rfl
    exact ⟨value, shown, _, mapError_eq_ok_iff.1 hvalue, mapError_eq_ok_iff.1 hshown,
      ViewClass.set_eq_ok_iff.1 hset, rfl⟩
  · cases h

section

variable (hreg : b.registry.Orderly) (hc : b.registry.class? kind = some c)
include hreg hc

theorem setAttribute_inStep {entry : String × Json} {view : V}
    (hs : InStep b.registry build.tree build.bindings.bindings)
    (hf : build.tree.face? target = some (kind, view)) (hfree : (target, entry.1) ∉ build.slots)
    (h : b.setAttribute c target place build entry = .ok build') :
    InStep b.registry build'.tree build'.bindings.bindings ∧
      (∃ view', build'.tree.face? target = some (kind, view')) ∧
      ∀ s ∈ build'.slots, s ∈ build.slots ∨ s = (target, entry.1) := by
  obtain ⟨value, shown, view', -, -, hset, rfl⟩ := setAttribute_cases hf h
  have hface := ViewTree.face?_setView_self hf view'
  rw [Build.bind_tree]
  unfold Build.slots
  rcases Build.bind_bindings { build with tree := build.tree.setView target view' } target
      entry.1 (place.property entry.1) value shown with heq | ⟨t, text, -, rfl, -, heq⟩
  · rw [heq]
    exact ⟨hs.set hreg hf hc hset hfree, ⟨view', hface⟩, fun s hmem => Or.inl hmem⟩
  · rw [heq]
    refine ⟨hs.bind hreg hf hc hset rfl hfree, ⟨view', hface⟩, fun s hmem => ?_⟩
    rw [List.map_append, List.map_singleton, List.mem_append, List.mem_singleton] at hmem
    exact hmem

/-- The attributes of a view, none of which is bound yet. -/
theorem setAttributes_inStep : ∀ {attributes : List (String × Json)} {build build' : Build V}
    {view : V}, InStep b.registry build.tree build.bindings.bindings →
      build.tree.face? target = some (kind, view) →
      (attributes.map Prod.fst).Nodup →
      (∀ name ∈ attributes.map Prod.fst, (target, name) ∉ build.slots) →
      attributes.foldlM (b.setAttribute c target place) build = .ok build' →
      InStep b.registry build'.tree build'.bindings.bindings
  | [], _, _, _, hs, _, _, _, h => by
    cases h
    exact hs
  | entry :: attributes, build, build', view, hs, hf, hnames, hfree, h => by
    rw [List.map_cons, List.nodup_cons] at hnames
    rw [List.foldlM_cons] at h
    obtain ⟨next, hnext, h⟩ := bind_eq_ok_iff.1 h
    obtain ⟨hs', ⟨view', hf'⟩, hslots⟩ := setAttribute_inStep hreg hc hs hf
      (hfree entry.1 List.mem_cons_self) hnext
    refine setAttributes_inStep hs' hf' hnames.2 (fun name hname hmem => ?_) h
    rcases hslots _ hmem with hmem | heq
    · exact hfree name (List.mem_cons_of_mem _ hname) hmem
    · obtain ⟨-, rfl⟩ := Prod.mk.inj heq
      exact hnames.1 hname

end

/-! ### Nodes -/

theorem own_inStep (hreg : b.registry.Orderly) {id : Option String}
    {attributes : List (String × Json)} {parent handle : Handle}
    (hs : InStep b.registry build.tree build.bindings.bindings)
    (hnames : (attributes.map Prod.fst).Nodup)
    (h : b.own kind id attributes parent place build = .ok (handle, build')) :
    InStep b.registry build'.tree build'.bindings.bindings := by
  unfold own at h
  split at h
  · cases h
  · rename_i c hc
    obtain ⟨declared, hd, h⟩ := bind_eq_ok_iff.1 h
    obtain ⟨done, hdone, h⟩ := bind_eq_ok_iff.1 h
    cases h
    obtain ⟨htree, hbindings⟩ := Build.declare_eq hd
    -- the new handle is beyond every handle that anything is bound to
    have hfresh : ∀ name, ((⟨build.tree.size⟩ : Handle), name) ∉ declared.slots := by
      intro name hmem
      unfold Build.slots at hmem
      rw [hbindings] at hmem
      obtain ⟨x, hx, hslot⟩ := List.mem_map.1 hmem
      have hlt := (hs.shown x hx).target_lt
      rw [(Prod.mk.inj hslot).1] at hlt
      exact Nat.lt_irrefl _ hlt
    have hin : InStep b.registry declared.tree declared.bindings.bindings := by
      rw [htree, hbindings]
      exact hs.insert parent kind id c.create
    have hface : declared.tree.face? ⟨build.tree.size⟩ = some (kind, c.create) := by
      rw [htree]
      exact build.tree.face?_insert_self parent kind id c.create
    exact setAttributes_inStep hreg hc hin hface hnames (fun name _ => hfresh name) hdone

mutual

theorem node_inStep (hreg : b.registry.Orderly) : ∀ (n : Node) {parent : Handle}
    {place : NodePlace} {build build' : Build V}, n.NamesDistinct →
      InStep b.registry build.tree build.bindings.bindings →
      b.node n parent place build = .ok build' →
      InStep b.registry build'.tree build'.bindings.bindings
  | .mk kind id attributes children, parent, place, build, build', hn, hs, h => by
    rw [node] at h
    obtain ⟨⟨handle, own⟩, hown, h⟩ := bind_eq_ok_iff.1 h
    exact siblings_inStep hreg children hn.2 (own_inStep hreg hs hn.1 hown) h
termination_by structural n => n

theorem siblings_inStep (hreg : b.registry.Orderly) : ∀ (ns : List Node) {parent : Handle}
    {place : NodePlace} {index : Nat} {build build' : Build V}, Node.AllNamesDistinct ns →
      InStep b.registry build.tree build.bindings.bindings →
      b.siblings ns parent place index build = .ok build' →
      InStep b.registry build'.tree build'.bindings.bindings
  | [], _, _, _, _, _, _, hs, h => by
    cases h
    exact hs
  | n :: rest, _, _, _, _, _, hn, hs, h => by
    rw [siblings] at h
    obtain ⟨next, hnext, h⟩ := bind_eq_ok_iff.1 h
    exact siblings_inStep hreg rest hn.2 (node_inStep hreg n hn.1 hs hnext) h
termination_by structural ns => ns

end

theorem all_inStep (hreg : b.registry.Orderly) {nodes : List Node} {build : Build V}
    (hn : Node.AllNamesDistinct nodes) (h : b.all nodes = .ok build) :
    InStep b.registry build.tree build.bindings.bindings :=
  siblings_inStep hreg nodes hn .nil h

end Builder

end ViewMarkup
