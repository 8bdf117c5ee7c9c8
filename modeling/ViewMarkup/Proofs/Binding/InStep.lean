/-
# Bindings in step with their views

A view shows the text of a binding if to set the text once more would succeed
and change nothing. Bindings are in step with a tree if every one of them is
shown and no two of them are bound to the same property of the same view. Over
orderly classes this survives whatever a build or an announced change does to
the tree and to the graph: another node is attached, a property is set, a
binding is added for what was set, a text is recorded for what was set.

Key definitions: `Binding.ShownBy`, `InStep`.
Key theorems: `InStep.insert`, `InStep.set`, `InStep.bind`, `InStep.update`.
-/
import ViewMarkup.Proofs.Binding.Graph
import ViewMarkup.Proofs.View.Face
import ViewMarkup.Proofs.View.Setting

namespace ViewMarkup

variable {V : Type} {registry : ViewRegistry V} {tree : ViewTree V}

/-- The view of the binding shows its text: the class of the view takes the text
for the property, and leaves the view exactly as it is. -/
def Binding.ShownBy (b : Binding) (registry : ViewRegistry V) (tree : ViewTree V) : Prop :=
  ∃ kind view c, tree.face? b.target = some (kind, view) ∧ registry.class? kind = some c ∧
    c.apply view b.property (.text b.composed) = (some (.ok ()), view)

/-- Every binding is shown, and no two of them have the same slot. -/
structure InStep (registry : ViewRegistry V) (tree : ViewTree V) (bindings : List Binding) :
    Prop where
  shown : ∀ b ∈ bindings, b.ShownBy registry tree
  apart : (bindings.map Binding.slot).Nodup

/-! ### One binding -/

namespace Binding

variable {b : Binding}

theorem ShownBy.target_lt (h : b.ShownBy registry tree) : b.target.index < tree.size := by
  obtain ⟨kind, view, c, hf, -⟩ := h
  exact ViewTree.lt_size_of_face? hf

/-- The text is shown by the view that is there. -/
theorem ShownBy.apply_eq (h : b.ShownBy registry tree) {kind : String} {view : V} {c : ViewClass V}
    (hf : tree.face? b.target = some (kind, view)) (hc : registry.class? kind = some c) :
    c.apply view b.property (.text b.composed) = (some (.ok ()), view) := by
  obtain ⟨kind', view', c', hf', hc', ha⟩ := h
  obtain ⟨rfl, rfl⟩ := Prod.mk.inj (Option.some.inj (hf.symm.trans hf'))
  obtain rfl := Option.some.inj (hc.symm.trans hc')
  exact ha

theorem ShownBy.insert (h : b.ShownBy registry tree) (parent : Handle) (kind : String)
    (id : Option String) (view : V) : b.ShownBy registry (tree.insert parent kind id view).2 := by
  have hlt := h.target_lt
  obtain ⟨k, v, c, hf, hc, ha⟩ := h
  exact ⟨k, v, c, by rw [ViewTree.face?_insert_of_lt _ _ _ _ _ hlt, hf], hc, ha⟩

variable {target : Handle} {kind name : String} {view view' : V} {c : ViewClass V}
  {value : PropertyValue}

/-- A property was set, and the binding is bound to another one. -/
theorem ShownBy.set (hreg : registry.Orderly) (h : b.ShownBy registry tree)
    (hf : tree.face? target = some (kind, view)) (hc : registry.class? kind = some c)
    (hset : c.apply view name value = (some (.ok ()), view')) (hne : b.slot ≠ (target, name)) :
    b.ShownBy registry (tree.setView target view') := by
  by_cases ht : target = b.target
  · subst ht
    have hname : name ≠ b.property := fun heq => hne (by rw [slot, heq])
    exact ⟨kind, view', c, ViewTree.face?_setView_self hf view', hc,
      (hreg hc).apply_apart hname hset (h.apply_eq hf hc)⟩
  · obtain ⟨k, v, d, hf', hd, ha⟩ := h
    exact ⟨k, v, d, by rw [ViewTree.face?_setView_ne _ ht, hf'], hd, ha⟩

/-- The text of the binding was set. -/
theorem shownBy_set_self (hreg : registry.Orderly) (hf : tree.face? target = some (kind, view))
    (hc : registry.class? kind = some c)
    (hset : c.apply view name (.text b.composed) = (some (.ok ()), view'))
    (hb : b.slot = (target, name)) : b.ShownBy registry (tree.setView target view') := by
  obtain ⟨rfl, rfl⟩ := Prod.mk.inj hb
  exact ⟨kind, view', c, ViewTree.face?_setView_self hf view', hc, (hreg hc).apply_again hset⟩

end Binding

/-! ### All bindings -/

namespace InStep

variable {bindings : List Binding} {target : Handle} {kind name : String} {view view' : V}
  {c : ViewClass V} {value : PropertyValue}

theorem nil : InStep registry tree [] := ⟨fun _ h => absurd h List.not_mem_nil, List.nodup_nil⟩

theorem insert (h : InStep registry tree bindings) (parent : Handle) (kind : String)
    (id : Option String) (view : V) :
    InStep registry (tree.insert parent kind id view).2 bindings :=
  ⟨fun b hb => (h.shown b hb).insert parent kind id view, h.apart⟩

/-- A property was set to which nothing is bound. -/
theorem set (hreg : registry.Orderly) (h : InStep registry tree bindings)
    (hf : tree.face? target = some (kind, view)) (hc : registry.class? kind = some c)
    (hset : c.apply view name value = (some (.ok ()), view'))
    (hfree : (target, name) ∉ bindings.map Binding.slot) :
    InStep registry (tree.setView target view') bindings where
  shown b hb := (h.shown b hb).set hreg hf hc hset fun heq =>
    hfree (List.mem_map.2 ⟨b, hb, heq⟩)
  apart := h.apart

/-- A text was set, and is now bound where nothing was. -/
theorem bind (hreg : registry.Orderly) (h : InStep registry tree bindings) {b : Binding}
    (hf : tree.face? target = some (kind, view)) (hc : registry.class? kind = some c)
    (hset : c.apply view name (.text b.composed) = (some (.ok ()), view')) (hb : b.slot = (target, name))
    (hfree : (target, name) ∉ bindings.map Binding.slot) :
    InStep registry (tree.setView target view') (bindings ++ [b]) where
  shown := by
    intro x hx
    rcases List.mem_append.1 hx with hx | hx
    · exact (h.set hreg hf hc hset hfree).shown x hx
    · rw [List.mem_singleton.1 hx]
      exact Binding.shownBy_set_self hreg hf hc hset hb
  apart := by
    rw [List.map_append, List.map_singleton, hb]
    refine List.nodup_append.2 ⟨h.apart, by simp, fun s hs s' hs' heq => ?_⟩
    rw [heq, List.mem_singleton.1 hs'] at hs
    exact hfree hs

/-- The slots tell bindings apart. -/
theorem eq_of_slot_eq (h : InStep registry tree bindings) {i j : Nat} {b b' : Binding}
    (hi : bindings[i]? = some b) (hj : bindings[j]? = some b') (heq : b.slot = b'.slot) :
    i = j := by
  have hli : i < (bindings.map Binding.slot).length := by
    rw [List.length_map]
    exact (List.getElem?_eq_some_iff.1 hi).1
  refine (List.getElem?_inj hli h.apart).1 ?_
  rw [List.getElem?_map, List.getElem?_map, hi, hj, Option.map_some, Option.map_some, heq]

/-- A text was set for a binding, and is now recorded as its text. -/
theorem update (hreg : registry.Orderly) {graph : BindingGraph}
    (h : InStep registry tree graph.bindings) {id : Nat} {b : Binding} {text : String}
    (hid : graph.binding? id = some b) (hf : tree.face? target = some (kind, view))
    (hc : registry.class? kind = some c)
    (hset : c.apply view name (.text text) = (some (.ok ()), view')) (hb : b.slot = (target, name)) :
    InStep registry (tree.setView target view') (graph.commit id text).bindings where
  shown := by
    intro x hx
    obtain ⟨i, hi⟩ := List.mem_iff_getElem?.1 hx
    rw [BindingGraph.commit] at hi
    by_cases hii : id = i
    · rw [← hii, List.getElem?_modify_eq, show graph.bindings[id]? = some b from hid] at hi
      obtain rfl := Option.some.inj hi
      exact Binding.shownBy_set_self hreg hf hc hset hb
    · rw [List.getElem?_modify_ne _ _ hii] at hi
      refine (h.shown x (List.mem_of_getElem? hi)).set hreg hf hc hset fun heq => hii ?_
      exact h.eq_of_slot_eq hid hi (hb.trans heq.symm)
  apart := by
    rw [BindingGraph.commit_slots]
    exact h.apart

end InStep

end ViewMarkup
