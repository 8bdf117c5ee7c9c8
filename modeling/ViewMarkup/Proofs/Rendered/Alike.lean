/-
# What announced changes leave alone

Whatever is announced, a document keeps its shape and its bindings; what a view
shows changes under the names that something is bound to and under no others.
Since a view in step shows the texts of its bindings, a document that has gone on
from another in this way is told by its texts alone: with the texts of the one it
is the other.

Key definitions: `Rendered.shows`, `Rendered.Alike`.
Key theorems: `Rendered.set_alike`, `Rendered.Alike.shows_of_apply`,
`Rendered.Alike.ext_of_bindings`.
-/
import ViewMarkup.Proofs.Rendered.InStep
import ViewMarkup.Proofs.View.Legible
import ViewMarkup.Proofs.View.Skeleton

namespace ViewMarkup

/-- The binding without its text. -/
def Binding.untold (b : Binding) : Binding := { b with composed := "" }

namespace BindingGraph

theorem commit_untold (graph : BindingGraph) (id : Nat) (value : String) :
    (graph.commit id value).bindings.map Binding.untold = graph.bindings.map Binding.untold :=
  map_modify_of_absorbed fun _ _ => rfl

end BindingGraph

/-- Trees with one skeleton have views of the same kinds. -/
theorem ViewTree.face?_of_skeleton {V : Type} {s t : ViewTree V} (h : t.skeleton = s.skeleton)
    {handle : Handle} {kind : String} {view : V} (hf : s.face? handle = some (kind, view)) :
    ∃ view', t.face? handle = some (kind, view') := by
  obtain ⟨n, hn, rfl, hv⟩ := face?_eq_some_iff.1 hf
  have hbare := s.node?_skeleton handle
  rw [← h, node?_skeleton, hn] at hbare
  obtain ⟨m, hm, hmn⟩ := Option.map_eq_some_iff.1 hbare
  obtain ⟨hkind, -, -, -, hview⟩ := ViewNode.mk.inj hmn
  rw [hv] at hview
  obtain ⟨view', hview', -⟩ := Option.map_eq_some_iff.1 hview
  exact ⟨view', face?_eq_some_iff.2 ⟨m, hm, hkind, hview'⟩⟩

namespace Rendered

variable {V S : Type} {look : V → String → Option S} {r r' r'' : Rendered V}
  {registry : ViewRegistry V}

/-- What is shown in a slot: the state of a property of a view. -/
def shows (look : V → String → Option S) (r : Rendered V) (slot : Handle × String) : Option S :=
  (r.tree.view? slot.1).bind fun view => look view slot.2

/-- The slots that something is bound to. -/
def slots (r : Rendered V) : List (Handle × String) := r.bindings.bindings.map Binding.slot

/-- A document that has gone on from another: it may differ in the texts of its
bindings and in what is shown in their slots. -/
structure Alike (look : V → String → Option S) (r r' : Rendered V) : Prop where
  registry : r'.registry = r.registry
  ids : r'.ids = r.ids
  constraints : r'.constraints = r.constraints
  root : r'.bindings.root = r.bindings.root
  edges : r'.bindings.edges = r.bindings.edges
  bindings : r'.bindings.bindings.map Binding.untold = r.bindings.bindings.map Binding.untold
  skeleton : r'.tree.skeleton = r.tree.skeleton
  unbound : ∀ slot ∉ r.slots, r'.shows look slot = r.shows look slot

namespace Alike

theorem refl (look : V → String → Option S) (r : Rendered V) : Alike look r r :=
  ⟨rfl, rfl, rfl, rfl, rfl, rfl, rfl, fun _ _ => rfl⟩

theorem slots (h : Alike look r r') : r'.slots = r.slots := by
  have hslots := congrArg (List.map Binding.slot) h.bindings
  rwa [List.map_map, List.map_map] at hslots

theorem symm (h : Alike look r r') : Alike look r' r where
  registry := h.registry.symm
  ids := h.ids.symm
  constraints := h.constraints.symm
  root := h.root.symm
  edges := h.edges.symm
  bindings := h.bindings.symm
  skeleton := h.skeleton.symm
  unbound slot hslot := (h.unbound slot (h.slots ▸ hslot)).symm

theorem trans (h : Alike look r r') (h' : Alike look r' r'') : Alike look r r'' where
  registry := h'.registry.trans h.registry
  ids := h'.ids.trans h.ids
  constraints := h'.constraints.trans h.constraints
  root := h'.root.trans h.root
  edges := h'.edges.trans h.edges
  bindings := h'.bindings.trans h.bindings
  skeleton := h'.skeleton.trans h.skeleton
  unbound slot hslot := (h'.unbound slot (h.slots ▸ hslot)).trans (h.unbound slot hslot)

/-- Each binding has its own on the other side, which differs in the text at
most. -/
theorem binding? (h : Alike look r r') {id : Nat} {b : Binding}
    (hb : r.bindings.binding? id = some b) :
    ∃ text, r'.bindings.binding? id = some { b with composed := text } := by
  have huntold := congrArg (·[id]?) h.bindings
  simp only [List.getElem?_map] at huntold
  rw [show r.bindings.bindings[id]? = some b from hb] at huntold
  obtain ⟨b', hb', heq⟩ := Option.map_eq_some_iff.1 huntold
  refine ⟨b'.composed, hb'.trans (congrArg some ?_)⟩
  obtain ⟨target, property, template, keyPath, text⟩ := b'
  obtain ⟨target', property', template', keyPath', text'⟩ := b
  simp only [Binding.untold, Binding.mk.injEq] at heq ⊢
  exact ⟨heq.1, heq.2.1, heq.2.2.1, heq.2.2.2.1, trivial⟩

theorem dependents (h : Alike look r r') (path : String) :
    r'.bindings.dependents path = r.bindings.dependents path := by
  have hsize : r'.bindings.size = r.bindings.size := by
    have hlength := congrArg List.length h.bindings
    rwa [List.length_map, List.length_map] at hlength
  simp only [BindingGraph.dependents, BindingGraph.dependentsOn, h.root, h.edges, hsize]

end Alike

/-! ### What is shown -/

theorem shows_of_face? {kind name : String} {view : V} {target : Handle}
    (hf : r.tree.face? target = some (kind, view)) : r.shows look (target, name) = look view name := by
  rw [shows, ViewTree.view?_of_face? hf]
  rfl

/-- A view is set anew under the name of a binding, and a text is recorded. -/
theorem set_alike (hlegible : r.registry.Legible look) {target : Handle} {kind name : String}
    {view view' : V} {c : ViewClass V} {value : PropertyValue}
    (hslot : (target, name) ∈ r.slots) (hf : r.tree.face? target = some (kind, view))
    (hc : r.registry.class? kind = some c) (hset : c.apply view name value = (some (.ok ()), view'))
    (id : Nat) (text : String) :
    Alike look r { r with
      tree := r.tree.setView target view'
      bindings := r.bindings.commit id text } where
  registry := rfl
  ids := rfl
  constraints := rfl
  root := rfl
  edges := rfl
  bindings := r.bindings.commit_untold id text
  skeleton := ViewTree.skeleton_setView (ViewTree.view?_of_face? hf) view'
  unbound := by
    rintro ⟨h, n⟩ hfree
    by_cases ht : target = h
    · subst ht
      have hn : n ≠ name := fun heq => hfree (heq ▸ hslot)
      rw [shows_of_face? hf, ← (hlegible.classes hc).elsewhere hset hn]
      exact shows_of_face? (ViewTree.face?_setView_self hf view')
    · rw [shows, shows, ViewTree.view?_eq_map_face?, ViewTree.view?_eq_map_face?,
        ViewTree.face?_setView_ne _ ht]

namespace Alike

variable (h : Alike look r r') (hlegible : registry.Legible look)
  (hr : r.StandsInStep registry) (hr' : r'.StandsInStep registry)
include h hlegible hr'

/-- What the other document shows for a binding is what a view of the class shows
once the text of the binding is set on it, whatever the view. -/
theorem shows_of_apply {id : Nat} {b : Binding} (hb : r'.bindings.binding? id = some b)
    {kind : String} {view v w : V} {c : ViewClass V}
    (hf : r.tree.face? b.target = some (kind, view)) (hc : registry.class? kind = some c)
    (hset : c.apply v b.property (.text b.composed) = (some (.ok ()), w)) :
    r'.shows look b.slot = look w b.property := by
  obtain ⟨u, hu⟩ := ViewTree.face?_of_skeleton h.skeleton hf
  have hshown := (hr'.shown hb).apply_eq hu hc
  calc r'.shows look b.slot = look u b.property := shows_of_face? hu
    _ = look w b.property := (hlegible.classes hc).here hshown hset

include hr

/-- A binding with the same text is shown by the same state. -/
theorem shows_eq {id : Nat} {b : Binding} (hb : r.bindings.binding? id = some b)
    (hb' : r'.bindings.binding? id = some b) : r'.shows look b.slot = r.shows look b.slot := by
  obtain ⟨kind, view, c, hf, hc, hshown⟩ := hr.shown hb
  calc r'.shows look b.slot = look view b.property :=
        h.shows_of_apply hlegible hr' hb' hf hc hshown
    _ = r.shows look b.slot := (shows_of_face? hf).symm

/-- The texts tell the documents apart. -/
theorem ext_of_bindings (hbindings : r'.bindings.bindings = r.bindings.bindings) :
    r' = { r with inbox := r'.inbox } := by
  have hshows : ∀ slot, r'.shows look slot = r.shows look slot := by
    intro slot
    by_cases hslot : slot ∈ r.slots
    · obtain ⟨b, hb, rfl⟩ := List.mem_map.1 hslot
      obtain ⟨id, hid⟩ := List.mem_iff_getElem?.1 hb
      exact h.shows_eq hlegible hr hr' hid (by rw [BindingGraph.binding?, hbindings, hid])
    · exact h.unbound slot hslot
  have htree : r'.tree = r.tree := by
    refine ViewTree.ext_of_skeleton h.skeleton fun target => ?_
    have hthere := congrArg (·.view? target) h.skeleton
    simp only [ViewTree.view?_skeleton] at hthere
    have hlooks : ∀ name, (r'.tree.view? target).bind (look · name) =
        (r.tree.view? target).bind (look · name) := fun name => hshows (target, name)
    cases hv : r.tree.view? target with
    | none =>
      rw [hv] at hthere
      exact Option.map_eq_none_iff.1 hthere
    | some v =>
      rw [hv] at hthere hlooks
      obtain ⟨v', hv', -⟩ := Option.map_eq_some_iff.1 hthere
      rw [hv'] at hlooks ⊢
      exact congrArg some (hlegible.injective (funext hlooks))
  obtain ⟨registry', tree', ids', constraints', ⟨root', bindings', edges'⟩, inbox'⟩ := r'
  cases h.registry
  cases h.ids
  cases h.constraints
  cases h.root
  cases h.edges
  cases hbindings
  cases htree
  rfl

end Alike

end Rendered

end ViewMarkup
