/-
# A rendered document stays in step

Whatever is announced, in whatever order and against whatever data, every view
shows the text that is recorded for the bindings it has. A text is recorded only
after the view has taken it; a binding that does not compose or whose view
refuses the text keeps the text before, and its view with it.

Key definitions: `Rendered.StandsInStep`, `Rendered.Knows`, `Rendered.Reached`.
Key theorems: `Rendered.refresh_inStep`, `Rendered.invalidate_inStep`,
`render_run_inStep`.
-/
import ViewMarkup.Proofs.Build.InStep
import ViewMarkup.Proofs.Rendered.Run
import ViewMarkup.Proofs.View.Skeleton

namespace ViewMarkup

namespace Rendered

variable {V : Type} {registry : ViewRegistry V}

/-- The document has this registry, and its bindings are in step with its
tree. -/
def StandsInStep (registry : ViewRegistry V) (r : Rendered V) : Prop :=
  r.registry = registry ∧ InStep registry r.tree r.bindings.bindings

theorem StandsInStep.shown {r : Rendered V} (h : r.StandsInStep registry) {id : Nat} {b : Binding}
    (hb : r.bindings.binding? id = some b) : b.ShownBy registry r.tree :=
  h.2.shown b (List.mem_of_getElem? hb)

/-- The slot of an update is that of its binding. -/
def Knows (r : Rendered V) (update : BindingUpdate) : Prop :=
  (r.bindings.bindings.map Binding.slot)[update.binding]? = some (update.target, update.property)

theorem knows_of_mem_recompose {r : Rendered V} {path : String} {data : DataSource}
    {update : BindingUpdate} (h : .ok update ∈ r.bindings.recompose path data) :
    r.Knows update := by
  obtain ⟨b, hb, hone⟩ := BindingGraph.ok_mem_recompose h
  obtain ⟨value, -, heq⟩ := BindingGraph.recomposeOne_eq_ok_iff.1 hone
  have hb : r.bindings.bindings[update.binding]? = some b := hb
  rw [Knows, List.getElem?_map, hb, heq]
  rfl

variable (hreg : registry.Orderly)
include hreg

/-- A text that is refused leaves the document as it was. -/
theorem display_of_refused {r shown : Rendered V} {update : BindingUpdate} {e : MarkupError}
    (h : r.StandsInStep registry) (hshown : r.display update = (.error e, shown)) : shown = r := by
  obtain ⟨rfl, -⟩ := h
  rcases r.display_cases update with ⟨-, hdisplay⟩ |
    ⟨node, c, view, answer, view', hn, hv, hc, hset, hdisplay⟩
  · cases hdisplay.symm.trans hshown
  · obtain ⟨rfl, rfl⟩ := Prod.mk.inj (hdisplay.symm.trans hshown)
    have hview : r.tree.view? update.target = some view := by
      rw [ViewTree.view?, hn]
      exact hv
    rw [(hreg hc).set_refused hset, ViewTree.setView_self hview]

theorem refresh_inStep {r : Rendered V} {result : Except MarkupError BindingUpdate}
    (h : r.StandsInStep registry) (hknows : ∀ update, result = .ok update → r.Knows update) :
    (r.refresh result).2.StandsInStep registry ∧
      (r.refresh result).2.bindings.bindings.map Binding.slot =
        r.bindings.bindings.map Binding.slot := by
  rcases r.refresh_cases result with heq | ⟨update, e, rfl, hshown⟩ |
      ⟨update, shown, rfl, hshown, heq⟩
  · rw [heq]
    exact ⟨h, rfl⟩
  · rw [display_of_refused hreg h hshown]
    exact ⟨h, rfl⟩
  · rw [heq]
    obtain ⟨rfl, hs⟩ := h
    have hk := hknows update rfl
    rw [Knows, List.getElem?_map] at hk
    obtain ⟨b, hb, hslot⟩ := Option.map_eq_some_iff.1 hk
    -- the view of a binding in step is there, so the text was set on it
    obtain ⟨kind, view, c, hf, hc, -⟩ := hs.shown b (List.mem_of_getElem? hb)
    rw [(Prod.mk.inj hslot).1] at hf
    obtain ⟨node, hn, rfl, hv⟩ := ViewTree.face?_eq_some_iff.1 hf
    rcases r.display_cases update with ⟨hnone, -⟩ |
      ⟨node', c', view₀, answer, view', hn', hv', hc', hset, hdisplay⟩
    · exact absurd hv (hnone node c view hn hc)
    · obtain rfl := Option.some.inj (hn.symm.trans hn')
      obtain rfl := Option.some.inj (hv.symm.trans hv')
      obtain rfl := Option.some.inj (hc.symm.trans hc')
      obtain ⟨rfl, rfl⟩ := Prod.mk.inj (hshown.symm.trans hdisplay)
      exact ⟨⟨rfl, hs.update hreg hb hf hc (ViewClass.set_eq_ok_iff.1 hset) hslot⟩,
        BindingGraph.commit_slots _ _ _⟩

theorem refreshAll_inStep : ∀ (results : List (Except MarkupError BindingUpdate)) {r : Rendered V},
    r.StandsInStep registry → (∀ update, .ok update ∈ results → r.Knows update) →
      (r.refreshAll results).2.StandsInStep registry
  | [], _, h, _ => h
  | result :: results, r, h, hknows => by
    obtain ⟨h', hslots⟩ := refresh_inStep hreg h fun update heq =>
      hknows update (heq ▸ List.mem_cons_self)
    refine refreshAll_inStep results h' fun update hmem => ?_
    have hk := hknows update (List.mem_cons_of_mem _ hmem)
    rw [Knows, ← hslots] at hk
    exact hk

theorem invalidate_inStep {r : Rendered V} (path : String) (data : DataSource)
    (h : r.StandsInStep registry) : (r.invalidate path data).2.StandsInStep registry :=
  refreshAll_inStep hreg _ h fun _ => knows_of_mem_recompose

theorem run_inStep {r : Rendered V} (h : r.StandsInStep registry) (events : List Event) :
    (r.run events).StandsInStep registry :=
  run_of_invalidate (fun _ _ h => h) (fun _ path data h => invalidate_inStep hreg path data h)
    events h

end Rendered

theorem render_inStep {V : Type} {registry : ViewRegistry V} {config : Config} {doc : Document}
    {data : DataSource} {r : Rendered V} (hreg : registry.Orderly) (hdoc : doc.NamesDistinct)
    (h : render registry config doc data = .ok r) : r.StandsInStep registry := by
  obtain ⟨build, hbuild, h⟩ := bind_eq_ok_iff.1 h
  obtain ⟨constraints, -, h⟩ := bind_eq_ok_iff.1 h
  cases h
  exact ⟨rfl, Builder.all_inStep hreg hdoc hbuild⟩

/-- The documents that come about: one is rendered, and then whatever happens to
it. -/
def Rendered.Reached {V : Type} (registry : ViewRegistry V) (r : Rendered V) : Prop :=
  ∃ config doc data r₀ events, doc.NamesDistinct ∧ render registry config doc data = .ok r₀ ∧
    r = r₀.run events

theorem Rendered.Reached.inStep {V : Type} {registry : ViewRegistry V} {r : Rendered V}
    (hreg : registry.Orderly) (h : r.Reached registry) : r.StandsInStep registry := by
  obtain ⟨config, doc, data, r₀, events, hdoc, hrender, rfl⟩ := h
  exact run_inStep hreg (render_inStep hreg hdoc hrender) events

/-- **Views show what is recorded.** After every run of a document rendered with
the standard views, to set the text of a binding on its view once more succeeds
and leaves the view as it is, and no two bindings are bound to the same property
of the same view. -/
theorem render_run_inStep {config : Config} {doc : Document} {data : DataSource}
    {r : Rendered StandardView} (hdoc : doc.NamesDistinct)
    (h : render .standard config doc data = .ok r) (events : List Rendered.Event) :
    InStep .standard (r.run events).tree (r.run events).bindings.bindings :=
  (Rendered.run_inStep ViewRegistry.standard_orderly
    (render_inStep ViewRegistry.standard_orderly hdoc h) events).2

/-! ### A run in which a text is refused -/

/-- A label with two bindings. -/
def taskLabel : Document where
  layout := [.mk "UILabel" none
    [("text", .string "#{@bind(task.due)} #{@bind(task.state)}"),
      ("textAlignment", .string "#{@bind(task.side)}")] []]
  constraints := []

def taskData (due side : String) : DataSource :=
  Json.lookup (.object [("task", .object
    [("due", .string due), ("state", .string "open"), ("side", .string side)])])

/-- No text is aligned upwards, and without data nothing composes. -/
def taskEvents : List Rendered.Event :=
  [.invalidate "task.side" (taskData "today" "up"), .post "task.due", .post "task.side",
    .invalidate "task.state" fun _ => none, .processPending (taskData "now" "right")]

theorem taskLabel_run_inStep : taskLabel.NamesDistinct ∧
    ∃ r, render .standard {} taskLabel (taskData "today" "left") = .ok r ∧
      (r.run taskEvents).bindings.bindings.map Binding.composed = ["now open", "right"] ∧
      InStep .standard (r.run taskEvents).tree (r.run taskEvents).bindings.bindings := by
  have hdoc : taskLabel.NamesDistinct := ⟨⟨by decide, trivial⟩, trivial⟩
  have hrun : ((render .standard {} taskLabel (taskData "today" "left")).map fun r =>
      (r.run taskEvents).bindings.bindings.map Binding.composed).toOption =
        some ["now open", "right"] := by decide +kernel
  cases hr : render .standard {} taskLabel (taskData "today" "left") with
  | error e =>
    rw [hr] at hrun
    cases hrun
  | ok r =>
    rw [hr] at hrun
    exact ⟨hdoc, r, rfl, Option.some.inj hrun, render_run_inStep hdoc hr taskEvents⟩

end ViewMarkup
