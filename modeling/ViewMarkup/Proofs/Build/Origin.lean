/-
# Where bindings come from

Every binding of a build is that of an attribute of the document. The attribute's
value has been read as the binding's template, the template is live, and the text
of the binding is what the template composes to against the data of the build.

Parts that are taken up one after the other add to the bindings and take none
away, and only an attribute adds any.

Key definitions: `Binding.Binds`, `Builder.BoundBy`.
Key theorems: `Builder.takeUp_boundBy`, `render_binds`.
-/
import ViewMarkup.Proofs.Build.Parts

namespace ViewMarkup

variable {V : Type}

/-- The binding is that of this attribute of the node at `place`. -/
structure Binding.Binds (b : Binding) (config : Config) (data : DataSource)
    (handle : NodePlace → Handle) (place : NodePlace) (name : String) (raw : Json) : Prop where
  target : b.target = handle place
  property : b.property = name
  keyPath : b.keyPath = place.property name
  resolved : AttributeValue.resolve raw config.palette = .ok (.template b.template)
  live : b.template.isLive = true
  composed : b.template.compose data config.root = .ok b.composed

theorem AttributeValue.compose_template_eq_ok_iff {t : Template} {data : DataSource}
    {root text : String} : (AttributeValue.template t).compose data root = .ok (.text text) ↔
      t.compose data root = .ok text := by
  rw [compose, map_eq_ok_iff]
  simp

theorem Build.bind_root (build : Build V) (target : Handle) (name keyPath : String)
    (value : AttributeValue) (shown : PropertyValue) :
    (build.bind target name keyPath value shown).bindings.root = build.bindings.root := by
  unfold bind
  split
  · exact BindingGraph.register_root _ _ _ _ _ _
  · rfl

namespace Builder

variable {b : Builder V} {handle : NodePlace → Handle}

/-- An attribute that is set is bound or nothing is. -/
theorem setAttribute_binds {c : ViewClass V} {place : NodePlace} {build build' : Build V}
    {entry : String × Json} (hroot : build.bindings.root = b.config.root)
    (h : b.setAttribute c (handle place) place build entry = .ok build') :
    build'.bindings.root = b.config.root ∧ ∀ x ∈ build'.bindings.bindings,
      x ∈ build.bindings.bindings ∨ x.Binds b.config b.data handle place entry.1 entry.2 := by
  obtain ⟨name, raw⟩ := entry
  have hbind : ∀ {value shown tree}, AttributeValue.resolve raw b.config.palette = .ok value →
      value.compose b.data build.bindings.root = .ok shown →
      build' = { build with tree }.bind (handle place) name (place.property name) value shown →
      build'.bindings.root = b.config.root ∧ ∀ x ∈ build'.bindings.bindings,
        x ∈ build.bindings.bindings ∨ x.Binds b.config b.data handle place name raw := by
    rintro value shown tree hvalue hshown rfl
    refine ⟨(Build.bind_root _ _ _ _ _ _).trans hroot, fun x hx => ?_⟩
    rcases Build.bind_bindings { build with tree } (handle place) name (place.property name) value
      shown with heq | ⟨t, text, rfl, rfl, hlive, heq⟩
    · exact Or.inl (heq ▸ hx)
    · rw [heq, List.mem_append, List.mem_singleton] at hx
      refine hx.imp_right ?_
      rintro rfl
      rw [hroot] at hshown
      exact ⟨rfl, rfl, rfl, hvalue, hlive, AttributeValue.compose_template_eq_ok_iff.1 hshown⟩
  unfold setAttribute at h
  dsimp only at h
  split at h
  · obtain ⟨value, hvalue, h⟩ := bind_eq_ok_iff.1 h
    obtain ⟨shown, hshown, h⟩ := bind_eq_ok_iff.1 h
    have hvalue := mapError_eq_ok_iff.1 hvalue
    have hshown := mapError_eq_ok_iff.1 hshown
    split at h
    · cases h
      exact hbind hvalue hshown rfl
    · obtain ⟨view, -, h⟩ := bind_eq_ok_iff.1 h
      cases h
      exact hbind hvalue hshown rfl
  · cases h

/-- Every binding so far is that of an attribute among these parts. -/
def BoundBy (b : Builder V) (handle : NodePlace → Handle) (parts : List Part)
    (state : Build V × List Descriptor) : Prop :=
  state.1.bindings.root = b.config.root ∧ ∀ x ∈ state.1.bindings.bindings,
    ∃ place kind name raw, .property place kind name raw ∈ parts ∧
      x.Binds b.config b.data handle place name raw

theorem takeUp_boundBy {parts : List Part} {part : Part} (hpart : part ∈ parts)
    {state state' : Build V × List Descriptor} (hs : b.BoundBy handle parts state)
    (h : b.takeUp handle state part = .ok state') : b.BoundBy handle parts state' := by
  cases part with
  | node place kind id =>
    obtain ⟨⟨new, build⟩, hown, rfl⟩ := map_eq_ok_iff.1 h
    unfold own at hown
    split at hown
    · cases hown
    · obtain ⟨declared, hdeclared, hown⟩ := bind_eq_ok_iff.1 hown
      cases hown
      have hbindings := (Build.declare_eq hdeclared).2
      unfold BoundBy
      rw [hbindings]
      exact hs
  | property place kind name raw =>
    rw [takeUp] at h
    split at h
    · cases h
      exact hs
    · obtain ⟨build, hbuild, rfl⟩ := map_eq_ok_iff.1 h
      obtain ⟨hroot, hbinds⟩ := setAttribute_binds hs.1 hbuild
      refine ⟨hroot, fun x hx => ?_⟩
      rcases hbinds x hx with hx | hx
      · exact hs.2 x hx
      · exact ⟨place, kind, name, raw, hpart, hx⟩
  | spec index spec =>
    obtain ⟨ds, -, rfl⟩ := map_eq_ok_iff.1 h
    exact hs

end Builder

/-- **Bindings come from attributes.** Every binding of a document that is rendered
is that of an attribute of one of its nodes. -/
theorem render_binds {registry : ViewRegistry V} {config : Config} {doc : Document}
    {data : DataSource} {r : Rendered V} (h : render registry config doc data = .ok r) :
    r.bindings.root = config.root ∧ ∀ b ∈ r.bindings.bindings, ∃ place n name raw,
      doc.node? place = some n ∧ (name, raw) ∈ n.attributes ∧
        b.Binds config data doc.handleAt place name raw := by
  rw [render_eq_takeUp registry config data doc.handleAt_nil (numbers_handleAt doc)] at h
  obtain ⟨state, hstate, rfl⟩ := map_eq_ok_iff.1 h
  have hbound : Builder.BoundBy ⟨registry, config, data⟩ doc.handleAt doc.parts state :=
    foldlM_preserves (fun part hpart _ _ => Builder.takeUp_boundBy hpart)
      ⟨rfl, fun b hb => absurd hb List.not_mem_nil⟩ hstate
  refine ⟨hbound.1, fun b hb => ?_⟩
  obtain ⟨place, kind, name, raw, hpart, hb⟩ := hbound.2 b hb
  obtain ⟨n, hn, -, hmem⟩ := doc.property_mem_parts_iff.1 hpart
  exact ⟨place, n, name, raw, hn, hmem, hb⟩

end ViewMarkup
