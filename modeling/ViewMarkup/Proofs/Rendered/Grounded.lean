/-
# No update is recorded without being shown

To show a text, the node of its binding is looked up, then the class of the
node's kind, then the property; a lookup that misses would leave the text unshown
and yet have it recorded. None ever misses. An attribute is bound only after its
text was set, so the bound slot is one that the class of the node has a setter
for (`Grounds`), and neither attaching nodes nor setting views nor recording
texts takes that away. This asks nothing of the classes.

Key definitions: `Grounds`, `Build.Grounded`, `Rendered.Grounded`,
`Rendered.Takes`.
Key theorems: `Builder.all_grounded`, `Rendered.refresh_of_grounds`,
`Rendered.refreshAll_grounded`, `run_never_commits_unshown`.
-/
import ViewMarkup.Proofs.Build.InStep
import ViewMarkup.Proofs.Rendered.InStep

namespace ViewMarkup

variable {V : Type}

/-- A slot is grounded if its node is there and has a view, and the class of the
node's kind has the property. -/
def Grounds (registry : ViewRegistry V) (tree : ViewTree V) (slot : Handle × String) : Prop :=
  ∃ kind view c, tree.face? slot.1 = some (kind, view) ∧ registry.class? kind = some c ∧
    c.hasProperty slot.2 = true

namespace Grounds

variable {registry : ViewRegistry V} {tree : ViewTree V} {slot : Handle × String}

theorem insert (h : Grounds registry tree slot) (parent : Handle) (kind : String)
    (id : Option String) (view : V) :
    Grounds registry (tree.insert parent kind id view).2 slot := by
  obtain ⟨kind', view', c, hf, hc⟩ := h
  refine ⟨kind', view', c, ?_, hc⟩
  rw [tree.face?_insert_of_lt parent kind id view (ViewTree.lt_size_of_face? hf)]
  exact hf

theorem setView (h : Grounds registry tree slot) {target : Handle} {kind : String} {view : V}
    (hf : tree.face? target = some (kind, view)) (view' : V) :
    Grounds registry (tree.setView target view') slot := by
  obtain ⟨kind', view₀, c, hf', hc⟩ := h
  by_cases heq : target = slot.1
  · subst heq
    obtain ⟨rfl, -⟩ := Prod.mk.inj (Option.some.inj (hf.symm.trans hf'))
    exact ⟨kind, view', c, ViewTree.face?_setView_self hf view', hc⟩
  · refine ⟨kind', view₀, c, ?_, hc⟩
    rw [tree.face?_setView_ne heq]
    exact hf'

end Grounds

/-! ### Builds -/

/-- All slots that are bound are grounded. -/
def Build.Grounded (registry : ViewRegistry V) (build : Build V) : Prop :=
  ∀ slot ∈ build.slots, Grounds registry build.tree slot

namespace Builder

variable {b : Builder V} {c : ViewClass V} {kind : String} {target : Handle} {place : NodePlace}

/-- An attribute is bound to a property that the class has. -/
theorem setAttribute_grounded {build build' : Build V} {entry : String × Json} {view : V}
    (hc : b.registry.class? kind = some c) (hs : build.Grounded b.registry)
    (hf : build.tree.face? target = some (kind, view))
    (h : b.setAttribute c target place build entry = .ok build') :
    build'.Grounded b.registry ∧ ∃ view', build'.tree.face? target = some (kind, view') := by
  obtain ⟨value, shown, view', -, -, hset, rfl⟩ := setAttribute_cases hf h
  have hface := ViewTree.face?_setView_self hf view'
  have hproperty : c.hasProperty entry.1 = true := by
    obtain ⟨set, hsetter, -⟩ := ViewClass.apply_eq_some_iff.1 hset
    rw [ViewClass.hasProperty, hsetter]
    rfl
  rw [Build.Grounded, Build.bind_tree]
  refine ⟨fun slot hslot => ?_, view', hface⟩
  have hbefore : slot ∈ build.slots → Grounds b.registry (build.tree.setView target view') slot :=
    fun hslot => (hs slot hslot).setView hf view'
  unfold Build.slots at hslot
  rcases Build.bind_bindings { build with tree := build.tree.setView target view' } target
      entry.1 (place.property entry.1) value shown with heq | ⟨t, text, -, -, -, heq⟩
  · rw [heq] at hslot
    exact hbefore hslot
  · rw [heq, List.map_append, List.map_singleton, List.mem_append, List.mem_singleton] at hslot
    rcases hslot with hslot | rfl
    · exact hbefore hslot
    · exact ⟨kind, view', c, hface, hc, hproperty⟩

theorem own_grounded {id : Option String} {attributes : List (String × Json)}
    {parent handle : Handle} {build build' : Build V} (hs : build.Grounded b.registry)
    (h : b.own kind id attributes parent place build = .ok (handle, build')) :
    build'.Grounded b.registry := by
  unfold own at h
  split at h
  · cases h
  · rename_i c hc
    obtain ⟨declared, hd, h⟩ := bind_eq_ok_iff.1 h
    obtain ⟨done, hdone, h⟩ := bind_eq_ok_iff.1 h
    cases h
    obtain ⟨htree, hbindings⟩ := Build.declare_eq hd
    have hattached : declared.Grounded b.registry := by
      intro slot hslot
      rw [Build.slots, hbindings] at hslot
      rw [htree]
      exact (hs slot hslot).insert parent kind id c.create
    have hface : declared.tree.face? ⟨build.tree.size⟩ = some (kind, c.create) := by
      rw [htree]
      exact build.tree.face?_insert_self parent kind id c.create
    -- an attribute leaves the node a view of its kind
    have hstep {next next' : Build V} {entry : String × Json} (hnext : next.Grounded b.registry ∧
        ∃ view, next.tree.face? ⟨build.tree.size⟩ = some (kind, view))
        (hset : b.setAttribute c ⟨build.tree.size⟩ place next entry = .ok next') :
        next'.Grounded b.registry ∧
          ∃ view, next'.tree.face? ⟨build.tree.size⟩ = some (kind, view) := by
      obtain ⟨hgrounded, view, hf⟩ := hnext
      exact setAttribute_grounded hc hgrounded hf hset
    exact (foldlM_preserves (fun _ _ => hstep) ⟨hattached, _, hface⟩ hdone).1

mutual

theorem node_grounded : ∀ (n : Node) {parent : Handle} {place : NodePlace} {build build' : Build V},
    build.Grounded b.registry → b.node n parent place build = .ok build' →
      build'.Grounded b.registry
  | .mk kind id attributes children, parent, place, build, build', hs, h => by
    rw [node] at h
    obtain ⟨⟨handle, own⟩, hown, h⟩ := bind_eq_ok_iff.1 h
    exact siblings_grounded children (own_grounded hs hown) h
termination_by structural n => n

theorem siblings_grounded : ∀ (ns : List Node) {parent : Handle} {place : NodePlace} {index : Nat}
    {build build' : Build V}, build.Grounded b.registry →
      b.siblings ns parent place index build = .ok build' → build'.Grounded b.registry
  | [], _, _, _, _, _, hs, h => by
    cases h
    exact hs
  | n :: rest, _, _, _, _, _, hs, h => by
    rw [siblings] at h
    obtain ⟨next, hnext, h⟩ := bind_eq_ok_iff.1 h
    exact siblings_grounded rest (node_grounded n hs hnext) h
termination_by structural ns => ns

end

theorem all_grounded {nodes : List Node} {build : Build V} (h : b.all nodes = .ok build) :
    build.Grounded b.registry :=
  siblings_grounded nodes (fun _ hslot => absurd hslot List.not_mem_nil) h

end Builder

/-! ### Updates -/

namespace Rendered

variable {registry : ViewRegistry V}

/-- The document has this registry, and all its bound slots are grounded. -/
def Grounded (registry : ViewRegistry V) (r : Rendered V) : Prop :=
  r.registry = registry ∧
    ∀ slot ∈ r.bindings.bindings.map Binding.slot, Grounds registry r.tree slot

/-- A setter of the view that the update is for takes its text. -/
def Takes (r : Rendered V) (update : BindingUpdate) : Prop :=
  ∃ node view c set view', r.tree.node? update.target = some node ∧ node.view = some view ∧
    r.registry.class? node.kind = some c ∧ c.setter? update.property = some set ∧
    set view (.text update.value) = (.ok (), view')

theorem Grounded.grounds {r : Rendered V} (h : r.Grounded registry) {update : BindingUpdate}
    (hknows : r.Knows update) : Grounds registry r.tree (update.target, update.property) :=
  h.2 _ (List.mem_of_getElem? hknows)

/-- No lookup misses: the answer of a setter decides what becomes of an update. The
view is left as the setter has it either way. -/
theorem refresh_of_grounds {r : Rendered V} {update : BindingUpdate}
    (hchanged : update.changed = true)
    (h : Grounds r.registry r.tree (update.target, update.property)) :
    ∃ node view c set answer view', r.tree.node? update.target = some node ∧
      node.view = some view ∧ r.registry.class? node.kind = some c ∧
      c.setter? update.property = some set ∧ set view (.text update.value) = (answer, view') ∧
      r.refresh (.ok update) = match answer with
        | .ok () => (.ok update, { r with
            tree := r.tree.setView update.target view'
            bindings := r.bindings.commit update.binding update.value })
        | .error e => (.error ⟨.unsupportedAttribute c.kind update.property e.message,
            r.placeOf update.binding⟩, { r with tree := r.tree.setView update.target view' }) := by
  obtain ⟨kind, view, c, hf, hc, hproperty⟩ := h
  obtain ⟨node, hn, rfl, hv⟩ := ViewTree.face?_eq_some_iff.1 hf
  obtain ⟨set, hset⟩ := Option.isSome_iff_exists.1 hproperty
  have hn : r.tree.node? update.target = some node := hn
  have hset : c.setter? update.property = some set := hset
  cases hanswer : set view (.text update.value) with
  | mk answer view' =>
    refine ⟨node, view, c, set, answer, view', hn, hv, hc, hset, hanswer, ?_⟩
    simp only [refresh, hchanged, if_true, display, hn, hc, hv, ViewClass.set, ViewClass.apply,
      hset, hanswer]
    cases answer <;> rfl

/-- What is shown leaves the slots where they are, and grounded. -/
theorem display_grounded {r : Rendered V} (h : r.Grounded registry) (update : BindingUpdate) :
    (r.display update).2.Grounded registry ∧ (r.display update).2.bindings = r.bindings := by
  rcases r.display_cases update with ⟨-, heq⟩ | ⟨node, c, view, answer, view', hn, hv, -, -, heq⟩
  · rw [heq]
    exact ⟨h, rfl⟩
  · rw [heq]
    have hface := ViewTree.face?_eq_some_iff.2 ⟨node, hn, rfl, hv⟩
    exact ⟨⟨h.1, fun slot hslot => (h.2 slot hslot).setView hface view'⟩, rfl⟩

theorem refresh_grounded {r : Rendered V} (h : r.Grounded registry)
    (result : Except MarkupError BindingUpdate) : (r.refresh result).2.Grounded registry ∧
      (r.refresh result).2.bindings.bindings.map Binding.slot =
        r.bindings.bindings.map Binding.slot := by
  rcases r.refresh_cases result with heq | ⟨update, e, -, hshown⟩ | ⟨update, shown, -, hshown, heq⟩
  · rw [heq]
    exact ⟨h, rfl⟩
  · obtain ⟨hgrounded, hbindings⟩ := display_grounded h update
    rw [hshown] at hgrounded hbindings
    exact ⟨hgrounded, congrArg (·.bindings.map Binding.slot) hbindings⟩
  · obtain ⟨hgrounded, hbindings⟩ := display_grounded h update
    rw [hshown] at hgrounded hbindings
    rw [heq, Grounded, BindingGraph.commit_slots]
    exact ⟨hgrounded, congrArg (·.bindings.map Binding.slot) hbindings⟩

theorem refreshAll_grounded : ∀ (results : List (Except MarkupError BindingUpdate))
    {r : Rendered V}, r.Grounded registry → (r.refreshAll results).2.Grounded registry ∧
      (r.refreshAll results).2.bindings.bindings.map Binding.slot =
        r.bindings.bindings.map Binding.slot
  | [], _, h => ⟨h, rfl⟩
  | result :: results, r, h => by
    obtain ⟨hnext, hslots⟩ := refresh_grounded h result
    obtain ⟨hall, hslots'⟩ := refreshAll_grounded results hnext
    exact ⟨hall, hslots'.trans hslots⟩

theorem invalidate_grounded {r : Rendered V} (h : r.Grounded registry) (path : String)
    (data : DataSource) : (r.invalidate path data).2.Grounded registry :=
  (refreshAll_grounded _ h).1

theorem run_grounded {r : Rendered V} (h : r.Grounded registry) (events : List Event) :
    (r.run events).Grounded registry :=
  run_of_invalidate (P := Grounded registry) (fun _ _ h => h)
    (fun _ path data h => invalidate_grounded h path data) events h

/-! ### What is recorded -/

/-- The document as an announced change has left it once the first `k` of the
recomposed bindings are taken up. -/
def stage (r : Rendered V) (path : String) (data : DataSource) (k : Nat) : Rendered V :=
  (r.refreshAll ((r.bindings.recompose path data).take k)).2

/-- Each recomposed binding is taken up in the document as those before it have
left it. -/
theorem refreshAll_getElem? : ∀ (results : List (Except MarkupError BindingUpdate)) (k : Nat)
    (r : Rendered V), (r.refreshAll results).1[k]? = results[k]?.map fun result =>
      ((r.refreshAll (results.take k)).2.refresh result).1
  | [], _, _ => rfl
  | _ :: _, 0, _ => rfl
  | result :: results, k + 1, r => refreshAll_getElem? results k (r.refresh result).2

/-- An update that is answered is the one that was taken up. -/
theorem eq_ok_of_refresh {r : Rendered V} {result : Except MarkupError BindingUpdate}
    {update : BindingUpdate} (h : (r.refresh result).1 = .ok update) : result = .ok update := by
  unfold refresh at h
  split at h
  · cases h
  · split at h
    · split at h
      · cases h
      · exact h
    · exact h

/-- An update that is new and is answered was taken by a setter. -/
theorem takes_of_refresh {r : Rendered V} {update : BindingUpdate}
    (hchanged : update.changed = true)
    (hgrounds : Grounds r.registry r.tree (update.target, update.property))
    (h : (r.refresh (.ok update)).1 = .ok update) : r.Takes update := by
  obtain ⟨node, view, c, set, answer, view', hn, hv, hc, hset, hanswer, heq⟩ :=
    refresh_of_grounds hchanged hgrounds
  rw [heq] at h
  cases answer with
  | ok _ => exact ⟨node, view, c, set, view', hn, hv, hc, hset, hanswer⟩
  | error e => cases h

/-- A text that is recorded anew is one that a setter has taken. -/
theorem takes_of_composed_ne {r : Rendered V} {result : Except MarkupError BindingUpdate} {id : Nat}
    {b b' : Binding} (h : r.Grounded registry)
    (hknows : ∀ update, result = .ok update → r.Knows update) (hb : r.bindings.binding? id = some b)
    (hb' : (r.refresh result).2.bindings.binding? id = some b') (hne : b'.composed ≠ b.composed) :
    ∃ update, result = .ok update ∧ (r.refresh result).1 = .ok update ∧ update.changed = true ∧
      update.binding = id ∧ update.value = b'.composed ∧ r.Takes update := by
  have hsame : (r.refresh result).2.bindings = r.bindings → False := by
    intro heq
    rw [heq, hb] at hb'
    exact hne (congrArg Binding.composed (Option.some.inj hb')).symm
  cases result with
  | error e => exact absurd rfl hsame
  | ok update =>
    by_cases hchanged : update.changed = true
    · have hgrounds := h.1.symm ▸ h.grounds (hknows update rfl)
      obtain ⟨node, view, c, set, answer, view', hn, hv, hc, hset, hanswer, heq⟩ :=
        refresh_of_grounds hchanged hgrounds
      cases answer with
      | ok _ =>
        refine ⟨update, rfl, by rw [heq], hchanged, ?_⟩
        rw [heq] at hb'
        have hb' : (r.bindings.commit update.binding update.value).binding? id = some b' := hb'
        rw [BindingGraph.commit_binding?, hb, Option.map_some] at hb'
        by_cases hid : update.binding = id
        · rw [if_pos hid] at hb'
          refine ⟨hid, ?_, node, view, c, set, view', hn, hv, hc, hset, hanswer⟩
          rw [← Option.some.inj hb']
        · rw [if_neg hid] at hb'
          exact absurd (congrArg Binding.composed (Option.some.inj hb')).symm hne
      | error e => exact absurd (congrArg (·.2.bindings) heq) hsame
    · refine absurd ?_ hsame
      simp only [refresh, hchanged]
      rfl

theorem exists_takes_of_composed_ne : ∀ {results : List (Except MarkupError BindingUpdate)}
    {r : Rendered V} {id : Nat} {b b' : Binding}, r.Grounded registry →
      (∀ update, .ok update ∈ results → r.Knows update) → r.bindings.binding? id = some b →
      (r.refreshAll results).2.bindings.binding? id = some b' → b'.composed ≠ b.composed →
      ∃ k update, results[k]? = some (.ok update) ∧
        (r.refreshAll results).1[k]? = some (.ok update) ∧ update.changed = true ∧
        update.binding = id ∧ update.value = b'.composed ∧
        (r.refreshAll (results.take k)).2.Takes update
  | [], r, id, b, b', _, _, hb, hb', hne => by
    obtain rfl := Option.some.inj (hb.symm.trans hb')
    exact absurd rfl hne
  | result :: results, r, id, b, b', h, hknows, hb, hb', hne => by
    obtain ⟨hnext, hslots⟩ := refresh_grounded h result
    obtain ⟨b₁, hb₁⟩ : ∃ b₁, (r.refresh result).2.bindings.binding? id = some b₁ := by
      have hslot := congrArg (·[id]?) hslots
      simp only [List.getElem?_map] at hslot
      rw [show r.bindings.bindings[id]? = some b from hb] at hslot
      obtain ⟨b₁, hb₁, -⟩ := Option.map_eq_some_iff.1 hslot
      exact ⟨b₁, hb₁⟩
    by_cases hsame : b'.composed = b₁.composed
    · rw [hsame] at hne ⊢
      obtain ⟨update, rfl, hanswer, hrest⟩ := takes_of_composed_ne h
        (fun update heq => hknows update (heq ▸ List.mem_cons_self)) hb hb₁ hne
      exact ⟨0, update, rfl, congrArg some hanswer, hrest⟩
    · have hknows' : ∀ update, .ok update ∈ results → (r.refresh result).2.Knows update := by
        intro update hmem
        have hk := hknows update (List.mem_cons_of_mem _ hmem)
        rw [Knows, ← hslots] at hk
        exact hk
      obtain ⟨k, hk⟩ := exists_takes_of_composed_ne hnext hknows' hb₁ hb' hsame
      exact ⟨k + 1, hk⟩

end Rendered

theorem render_grounded {registry : ViewRegistry V} {config : Config} {doc : Document}
    {data : DataSource} {r : Rendered V} (h : render registry config doc data = .ok r) :
    r.Grounded registry := by
  obtain ⟨build, hbuild, h⟩ := bind_eq_ok_iff.1 h
  obtain ⟨constraints, -, h⟩ := bind_eq_ok_iff.1 h
  cases h
  exact ⟨rfl, Builder.all_grounded hbuild⟩

/-- **No update is recorded without being shown.** With whatever classes, after
every run of a rendered document, each binding is one of a view that is there,
whose kind has a class, which has the bound property. So when a change is
announced, the answer of a setter decides of each new text whether it is shown
and recorded or refused and reported, whatever the setter makes of the view; and
whatever text an announced change has recorded, a setter has taken it on the
way. -/
theorem run_never_commits_unshown {registry : ViewRegistry V} {config : Config} {doc : Document}
    {data : DataSource} {r₀ r : Rendered V} {events : List Rendered.Event}
    (h : render registry config doc data = .ok r₀) (hrun : r₀.run events = r) :
    (∀ b ∈ r.bindings.bindings, ∃ node view c, r.tree.node? b.target = some node ∧
      node.view = some view ∧ registry.class? node.kind = some c ∧
      c.hasProperty b.property = true) ∧
    ∀ path data',
      (∀ (k : Nat) update, (r.bindings.recompose path data')[k]? = some (.ok update) →
        update.changed = true → ∃ node view c answer view',
          (r.stage path data' k).tree.node? update.target = some node ∧ node.view = some view ∧
          (r.stage path data' k).registry.class? node.kind = some c ∧
          c.apply view update.property (.text update.value) = (some answer, view') ∧
          (r.stage path data' k).refresh (.ok update) = match answer with
            | .ok () => (.ok update, { r.stage path data' k with
                tree := (r.stage path data' k).tree.setView update.target view'
                bindings := (r.stage path data' k).bindings.commit update.binding update.value })
            | .error e => (.error ⟨.unsupportedAttribute c.kind update.property e.message,
                (r.stage path data' k).placeOf update.binding⟩, { r.stage path data' k with
                tree := (r.stage path data' k).tree.setView update.target view' })) ∧
      (∀ (k : Nat) update, (r.invalidate path data').1[k]? = some (.ok update) →
        update.changed = true → (r.stage path data' k).Takes update) ∧
      ∀ id b b', r.bindings.binding? id = some b →
        (r.invalidate path data').2.bindings.binding? id = some b' → b'.composed ≠ b.composed →
          ∃ (k : Nat) (update : BindingUpdate),
            (r.invalidate path data').1[k]? = some (.ok update) ∧
            update.changed = true ∧ update.binding = id ∧ update.value = b'.composed ∧
            (r.stage path data' k).Takes update := by
  have hgrounded : r.Grounded registry := hrun ▸ Rendered.run_grounded (render_grounded h) events
  refine ⟨fun b hb => ?_, fun path data' => ?_⟩
  · obtain ⟨kind, view, c, hf, hc, hproperty⟩ := hgrounded.2 _ (List.mem_map_of_mem hb)
    obtain ⟨node, hn, rfl, hv⟩ := ViewTree.face?_eq_some_iff.1 hf
    exact ⟨node, view, c, hn, hv, hc, hproperty⟩
  · have hstage (k : Nat) {update : BindingUpdate}
        (hk : .ok update ∈ r.bindings.recompose path data') :
        Grounds (r.stage path data' k).registry (r.stage path data' k).tree
          (update.target, update.property) := by
      obtain ⟨hthen, hslots⟩ := Rendered.refreshAll_grounded
        ((r.bindings.recompose path data').take k) hgrounded
      have hknows := Rendered.knows_of_mem_recompose hk
      rw [Rendered.Knows, ← hslots] at hknows
      exact hthen.1.symm ▸ hthen.grounds hknows
    refine ⟨fun k update hk hchanged => ?_, fun k update hk hchanged => ?_,
      fun id b b' hb hb' hne => ?_⟩
    · obtain ⟨node, view, c, set, answer, view', hn, hv, hc, hset, hanswer, heq⟩ :=
        Rendered.refresh_of_grounds hchanged (hstage k (List.mem_of_getElem? hk))
      exact ⟨node, view, c, answer, view', hn, hv, hc,
        ViewClass.apply_eq_some_iff.2 ⟨set, hset, hanswer⟩, heq⟩
    · rw [Rendered.invalidate, Rendered.refreshAll_getElem?] at hk
      obtain ⟨result, hresult, hanswer⟩ := Option.map_eq_some_iff.1 hk
      obtain rfl := Rendered.eq_ok_of_refresh hanswer
      exact Rendered.takes_of_refresh hchanged (hstage k (List.mem_of_getElem? hresult)) hanswer
    · obtain ⟨k, update, -, hanswer, hrest⟩ := Rendered.exists_takes_of_composed_ne hgrounded
        (fun _ => Rendered.knows_of_mem_recompose) hb hb' hne
      exact ⟨k, update, hanswer, hrest⟩

/-! ### Classes of a host -/

/-- Views that keep all they were shown. No mark but red and blue is taken; another
is refused, but leaves a trace. -/
def tickerRegistry : ViewRegistry (List String) :=
  ⟨[(ViewClass.ofKind "Ticker" []).withProperties
    [("line", .of PropertyValue.asString fun lines line => lines ++ [line]),
      ("mark", fun lines value =>
        match value.string? with
        | some "red" => (.ok (), lines ++ ["red"])
        | some "blue" => (.ok (), lines ++ ["blue"])
        | _ => (.error (.outOfRange value.describe "no mark"), lines ++ ["?"]))]]⟩

def tickerDocument : Document where
  layout := [.mk "Ticker" none
    [("line", .string "#{@bind(news.title)}"), ("mark", .string "#{@bind(news.mark)}")] []]
  constraints := []

def tickerData (title mark : String) : DataSource :=
  Json.lookup (.object [("news", .object [("title", .string title), ("mark", .string mark)])])

/-- A new line is shown and recorded; a mark that is refused is not recorded, though
the view has changed. -/
theorem tickerDocument_run : ∃ r₀ r,
    render tickerRegistry {} tickerDocument (tickerData "rain" "red") = .ok r₀ ∧
      r₀.run [.invalidate "news" (tickerData "snow" "blue")] = r ∧
      (∀ b ∈ r.bindings.bindings, ∃ node view c, r.tree.node? b.target = some node ∧
        node.view = some view ∧ tickerRegistry.class? node.kind = some c ∧
        c.hasProperty b.property = true) ∧
      (r.invalidate "news" (tickerData "sun" "green")).2.tree.nodes.map ViewNode.view =
        [none, some ["rain", "red", "snow", "blue", "sun", "?"]] ∧
      ∃ (k : Nat) (update : BindingUpdate),
        (r.invalidate "news" (tickerData "sun" "green")).1[k]? = some (.ok update) ∧
          update.changed = true ∧ update.binding = 0 ∧ update.value = "sun" ∧
          (r.stage "news" (tickerData "sun" "green") k).Takes update := by
  have hrun : ((render tickerRegistry {} tickerDocument (tickerData "rain" "red")).map fun r₀ =>
      let r := r₀.run [.invalidate "news" (tickerData "snow" "blue")]
      let s := (r.invalidate "news" (tickerData "sun" "green")).2
      (s.tree.nodes.map ViewNode.view, r.bindings.bindings.map Binding.composed,
        s.bindings.bindings.map Binding.composed)).toOption =
      some ([none, some ["rain", "red", "snow", "blue", "sun", "?"]], ["snow", "blue"],
        ["sun", "blue"]) := by decide +kernel
  obtain ⟨r₀, hr₀, hfound⟩ := map_eq_ok_iff.1 (toOption_eq_some_iff.1 hrun)
  obtain ⟨hviews, hfound⟩ := Prod.mk.inj hfound
  obtain ⟨hbefore, hafter⟩ := Prod.mk.inj hfound
  obtain ⟨hground, hinvalidate⟩ := run_never_commits_unshown hr₀ rfl
  obtain ⟨-, -, hcommitted⟩ := hinvalidate "news" (tickerData "sun" "green")
  have hfirst {bindings : List Binding} {text : String} {others : List String}
      (h : bindings.map Binding.composed = text :: others) :
      ∃ b, bindings[0]? = some b ∧ b.composed = text := by
    obtain ⟨b, rest, rfl, hb, -⟩ := List.map_eq_cons_iff.1 h
    exact ⟨b, rfl, hb⟩
  obtain ⟨b, hb, hsnow⟩ := hfirst hbefore
  obtain ⟨b', hb', hsun⟩ := hfirst hafter
  obtain ⟨k, update, hk, hchanged, hid, hvalue, htakes⟩ := hcommitted 0 b b' hb hb' (by
    rw [hsnow, hsun]
    decide)
  exact ⟨r₀, _, hr₀, rfl, hground, hviews, k, update, hk, hchanged, hid, hvalue.trans hsun, htakes⟩

end ViewMarkup
