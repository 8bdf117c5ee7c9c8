/-
# A change announced to a document and to its graph

The graph of a document can be told of a change by itself: it records every text
that composes. The document records a text once its view has taken it, one
binding after the other, and leaves alone what is recorded already. The two come
to the same but for the texts that a view refuses. There the document keeps the
text before and reports why, and the graph by itself has the new one.

Key definitions: `Rendered.Refuses`, `Rendered.refusal?`, `Rendered.AgreesApart`.
Key theorems: `Rendered.Outcome.agrees`, `Rendered.invalidate_agrees`.
-/
import ViewMarkup.Proofs.Rendered.Outcome

namespace ViewMarkup

theorem getElem?_of_forall₂ {α β : Type} {R : α → β → Prop} {xs : List α} {ys : List β}
    (h : List.Forall₂ R xs ys) : ∀ {k : Nat} {x : α}, xs[k]? = some x →
      ∃ y, ys[k]? = some y ∧ R x y := by
  induction h with
  | nil => simp
  | cons hxy _ ih =>
    intro k x hk
    cases k with
    | zero =>
      obtain rfl := Option.some.inj hk
      exact ⟨_, rfl, hxy⟩
    | succ k => exact ih hk

/-- The binding with the text that it composes to, if it does. -/
def Binding.recomposed (b : Binding) (root : String) (data : DataSource) : Binding :=
  match b.template.compose data root with
  | .ok text => { b with composed := text }
  | .error _ => b

namespace BindingGraph

variable {graph : BindingGraph} {data : DataSource}

theorem foldl_commitUpdate_edges : ∀ (results : List (Except MarkupError BindingUpdate))
    (graph : BindingGraph), (results.foldl commitUpdate graph).edges = graph.edges
  | [], _ => rfl
  | .error _ :: results, graph => foldl_commitUpdate_edges results graph
  | .ok update :: results, graph =>
    foldl_commitUpdate_edges results (graph.commit update.binding update.value)

theorem invalidate_of_error {path : String} {e : MarkupError} (h : graph.dependents path = .error e)
    (data : DataSource) : graph.invalidate path data = ([.error e], graph) := by
  rw [invalidate, recompose, h]
  rfl

theorem invalidate_binding?_of_mem {path : String} {ids : List Nat}
    (h : graph.dependents path = .ok ids) {id : Nat} (hid : id ∈ ids) {b : Binding}
    (hb : graph.binding? id = some b) :
    (graph.invalidate path data).2.binding? id = some (b.recomposed graph.root data) := by
  obtain ⟨p, hp, rfl⟩ := map_eq_ok_iff.1 h
  unfold Binding.recomposed
  cases hcompose : b.template.compose data graph.root with
  | ok text => exact invalidate_binding?_of_ok hp hb hid hcompose
  | error e => exact invalidate_binding?_of_not hp hb (.inr ⟨e, hcompose⟩)

theorem invalidate_binding?_of_not_mem {path : String} {ids : List Nat}
    (h : graph.dependents path = .ok ids) {id : Nat} (hid : id ∉ ids) :
    (graph.invalidate path data).2.binding? id = graph.binding? id := by
  obtain ⟨p, hp, rfl⟩ := map_eq_ok_iff.1 h
  rw [invalidate]
  refine foldl_commitUpdate_of_ne fun update hmem heq => hid ?_
  rw [← heq]
  exact mem_dependentsOn_of_ok_mem hp hmem

/-- The results of a change that concerns these bindings. -/
theorem invalidate_results {path : String} {ids : List Nat} (h : graph.dependents path = .ok ids)
    (data : DataSource) :
    List.Forall₂ (fun id result => ∃ b, graph.binding? id = some b ∧
      result = recomposeOne graph.root data id b) ids (graph.invalidate path data).1 := by
  obtain ⟨p, hp, rfl⟩ := map_eq_ok_iff.1 h
  exact recompose_results hp

end BindingGraph

namespace Rendered

variable {V S : Type} {look : V → String → Option S} {registry : ViewRegistry V}
  {r r' : Rendered V} {data : DataSource} {id : Nat} {b : Binding} {text : String} {e : MarkupError}

/-- The binding composes to this text, its view refuses it, and this error is
placed at its property. -/
inductive Refuses (r : Rendered V) (data : DataSource) (b : Binding) (text : String) :
    MarkupError → Prop
  | intro {kind : String} {view : V} {c : ViewClass V} {e : PropertyError}
    (compose : b.template.compose data r.bindings.root = .ok text)
    (face : r.tree.face? b.target = some (kind, view))
    (found : r.registry.class? kind = some c)
    (apply : (c.apply view b.property (.text text)).1 = some (.error e)) :
    Refuses r data b text ⟨.unsupportedAttribute kind b.property e.message, b.keyPath⟩

/-! ### One binding -/

/-- A text that is refused is not the one that the binding has. -/
theorem Refuses.ne_composed (h : r.Refuses data b text e) (hr : r.StandsInStep registry)
    (hb : r.bindings.binding? id = some b) : text ≠ b.composed := by
  rintro rfl
  obtain ⟨-, hf, hc, happly⟩ := h
  rw [(hr.shown hb).apply_eq hf (hr.1 ▸ hc)] at happly
  cases happly

theorem Refuses.recomposeOne_eq (h : r.Refuses data b text e) (hr : r.StandsInStep registry)
    (hb : r.bindings.binding? id = some b) :
    BindingGraph.recomposeOne r.bindings.root data id b =
      .ok ⟨id, b.target, b.property, text, true⟩ := by
  have hne := h.ne_composed hr hb
  obtain ⟨hcompose, -, -, -⟩ := h
  rw [BindingGraph.recomposeOne, hcompose]
  simp [hne]

theorem Refuses.recomposed_eq (h : r.Refuses data b text e) :
    b.recomposed r.bindings.root data = { b with composed := text } := by
  obtain ⟨hcompose, -, -, -⟩ := h
  rw [Binding.recomposed, hcompose]

/-- The text of the binding that its view refuses, and the error, if it is so. -/
def refusal? (r : Rendered V) (data : DataSource) (b : Binding) : Option (String × MarkupError) := do
  let text ← (b.template.compose data r.bindings.root).toOption
  let (kind, view) ← r.tree.face? b.target
  let c ← r.registry.class? kind
  match (c.apply view b.property (.text text)).1 with
  | some (.error e) => some (text, ⟨.unsupportedAttribute kind b.property e.message, b.keyPath⟩)
  | _ => none

theorem refuses_iff : r.Refuses data b text e ↔ r.refusal? data b = some (text, e) := by
  constructor
  · rintro ⟨hcompose, hf, hc, happly⟩
    simp [refusal?, hcompose, Except.toOption, hf, hc, happly]
  · intro h
    obtain ⟨value, hcompose, h⟩ := Option.bind_eq_some_iff.1 h
    obtain ⟨⟨kind, view⟩, hf, h⟩ := Option.bind_eq_some_iff.1 h
    obtain ⟨c, hc, h⟩ := Option.bind_eq_some_iff.1 h
    split at h
    · rename_i happly
      obtain ⟨rfl, rfl⟩ := Prod.mk.inj (Option.some.inj h)
      exact .intro (toOption_eq_some_iff.1 hcompose) hf hc happly
    · cases h

/-- The outcome for a binding is what comes of its recomposition alone, unless its
view refuses the text. -/
theorem Outcome.agrees {result : Except MarkupError BindingUpdate}
    (h : Outcome look r r' data id b result) :
    ((∀ text e, ¬ r.Refuses data b text e) ∧
        result = BindingGraph.recomposeOne r.bindings.root data id b ∧
        r'.bindings.binding? id = some (b.recomposed r.bindings.root data)) ∨
      ∃ text e, r.Refuses data b text e ∧ result = .error e ∧ r'.bindings.binding? id = some b := by
  cases h with
  | uncomposed compose kept =>
    obtain ⟨path, reason, rfl⟩ := Template.unresolved_of_compose compose
    refine .inl ⟨fun text e hrefuses => ?_, ?_⟩
    · obtain ⟨hcompose, -, -, -⟩ := hrefuses
      rw [compose] at hcompose
      cases hcompose
    · rw [BindingGraph.recomposeOne, Binding.recomposed, compose]
      exact ⟨congrArg Except.error (MarkupError.placedAt_unresolved ..).symm, kept.binding⟩
  | refused compose face found apply kept =>
    exact .inr ⟨_, _, .intro compose face found (congrArg Prod.fst apply), rfl, kept.binding⟩
  | @taken text kind view view' c compose face found apply binding shown =>
    refine .inl ⟨fun text' e hrefuses => ?_, ?_⟩
    · obtain ⟨hcompose, hf, hc, happly⟩ := hrefuses
      obtain rfl := Except.ok.inj (compose.symm.trans hcompose)
      obtain ⟨rfl, rfl⟩ := Prod.mk.inj (Option.some.inj (face.symm.trans hf))
      obtain rfl := Option.some.inj (found.symm.trans hc)
      rw [apply] at happly
      cases happly
    · rw [BindingGraph.recomposeOne, Binding.recomposed, compose]
      exact ⟨rfl, binding⟩

/-! ### All bindings -/

section

variable (horderly : registry.Orderly) (hlegible : registry.Legible look)
  (hr : r.StandsInStep registry) {path : String} {ids : List Nat}
  (hids : r.bindings.dependents path = .ok ids)
include horderly hlegible hr hids

/-- A binding that a change concerns: the document and the graph answer the same
and have the same for it, or its text is refused. -/
theorem invalidate_agrees_at (data : DataSource) {k : Nat} (hk : ids[k]? = some id)
    (hb : r.bindings.binding? id = some b) :
    ((∀ text e, ¬ r.Refuses data b text e) ∧
        (r.invalidate path data).1[k]? = (r.bindings.invalidate path data).1[k]? ∧
        (r.invalidate path data).2.bindings.binding? id =
          (r.bindings.invalidate path data).2.binding? id) ∨
      ∃ text e, r.Refuses data b text e ∧
        (r.invalidate path data).1[k]? = some (.error e) ∧
        (r.bindings.invalidate path data).1[k]? =
          some (.ok ⟨id, b.target, b.property, text, true⟩) ∧
        (r.invalidate path data).2.bindings.binding? id = some b ∧
        (r.bindings.invalidate path data).2.binding? id = some { b with composed := text } := by
  have hid : id ∈ ids := List.mem_of_getElem? hk
  obtain ⟨result, hresult, b', hb', rfl⟩ :=
    getElem?_of_forall₂ (invalidate_results horderly hlegible hr hids data) hk
  obtain rfl := Option.some.inj (hb.symm.trans hb')
  obtain ⟨result, hgraph, b', hb', rfl⟩ :=
    getElem?_of_forall₂ (BindingGraph.invalidate_results hids data) hk
  obtain rfl := Option.some.inj (hb.symm.trans hb')
  have hbinding : (r.bindings.invalidate path data).2.binding? id =
      some (b.recomposed r.bindings.root data) :=
    BindingGraph.invalidate_binding?_of_mem hids hid hb
  have hanswered := (invalidate_answers horderly hlegible hr hids data).2
  rcases (outcome_of_answered hlegible hr horderly hanswered hid hb).agrees with
    ⟨hnone, hsame, htold⟩ | ⟨text, e, hrefuses, herror, hkept⟩
  · exact .inl ⟨hnone, by rw [hresult, hgraph, hsame], by rw [htold, hbinding]⟩
  · rw [herror] at hresult
    rw [hrefuses.recomposeOne_eq hr hb] at hgraph
    rw [hrefuses.recomposed_eq] at hbinding
    exact .inr ⟨text, e, hrefuses, hresult, hgraph, hkept, hbinding⟩

end

/-- What a document and its graph come to, each told of the same change: they
differ in the bindings whose texts are refused, and in nothing else. -/
structure AgreesApart (r : Rendered V) (path : String) (data : DataSource) : Prop where
  length : (r.invalidate path data).1.length = (r.bindings.invalidate path data).1.length
  root : (r.invalidate path data).2.bindings.root = (r.bindings.invalidate path data).2.root
  edges : (r.invalidate path data).2.bindings.edges = (r.bindings.invalidate path data).2.edges
  /-- A result that differs is about a binding whose text is refused. -/
  results : ∀ k : Nat, (r.invalidate path data).1[k]? = (r.bindings.invalidate path data).1[k]? ∨
    ∃ id b text e, (r.concerned path)[k]? = some id ∧ r.bindings.binding? id = some b ∧
      r.Refuses data b text e
  /-- A binding that differs is one that the change concerns and whose text is
  refused. -/
  bindings : ∀ id, (r.invalidate path data).2.bindings.binding? id =
      (r.bindings.invalidate path data).2.binding? id ∨
    ∃ b text e, id ∈ r.concerned path ∧ r.bindings.binding? id = some b ∧ r.Refuses data b text e
  /-- Where a text is refused, the document reports it and keeps the one before,
  and the graph has the new one. -/
  refused : ∀ (k id : Nat) (b : Binding) (text : String) (e : MarkupError),
    (r.concerned path)[k]? = some id → r.bindings.binding? id = some b → r.Refuses data b text e →
      (r.invalidate path data).1[k]? = some (.error e) ∧
      (r.bindings.invalidate path data).1[k]? = some (.ok ⟨id, b.target, b.property, text, true⟩) ∧
      (r.invalidate path data).2.bindings.binding? id = some b ∧
      (r.bindings.invalidate path data).2.binding? id = some { b with composed := text } ∧
      text ≠ b.composed

/-- Where nothing is refused, nothing differs. -/
theorem AgreesApart.eq_of_not_refuses {path : String} (h : r.AgreesApart path data)
    (hnone : ∀ id ∈ r.concerned path, ∀ b, r.bindings.binding? id = some b →
      ∀ text e, ¬ r.Refuses data b text e) :
    (r.invalidate path data).1 = (r.bindings.invalidate path data).1 ∧
      (r.invalidate path data).2.bindings = (r.bindings.invalidate path data).2 := by
  constructor
  · refine List.ext_getElem? fun k => (h.results k).resolve_right ?_
    rintro ⟨id, b, text, e, hk, hb, hrefuses⟩
    exact hnone id (List.mem_of_getElem? hk) b hb text e hrefuses
  · have hbindings : (r.invalidate path data).2.bindings.bindings =
        (r.bindings.invalidate path data).2.bindings := by
      refine List.ext_getElem? fun id => (h.bindings id).resolve_right ?_
      rintro ⟨b, text, e, hid, hb, hrefuses⟩
      exact hnone id hid b hb text e hrefuses
    have hroot := h.root
    have hedges := h.edges
    cases hgraph : (r.invalidate path data).2.bindings
    cases hcopy : (r.bindings.invalidate path data).2
    simp only [hgraph, hcopy] at hroot hedges hbindings
    rw [hroot, hedges, hbindings]

section

variable (horderly : registry.Orderly) (hlegible : registry.Legible look)
  (hr : r.StandsInStep registry)
include horderly hlegible hr

theorem agreesApart (path : String) (data : DataSource) : r.AgreesApart path data := by
  cases hids : r.bindings.dependents path with
  | error e =>
    have hrendered := invalidate_of_error hids data
    have hgraph := BindingGraph.invalidate_of_error hids data
    constructor <;> rw [hrendered, hgraph]
    · exact fun k => .inl rfl
    · exact fun id => .inl rfl
    · intro k id b text e' hk
      rw [concerned, hids] at hk
      cases hk
  | ok ids =>
    have hconcerned : r.concerned path = ids := by rw [concerned, hids]
    have hresults := invalidate_results horderly hlegible hr hids data
    have hgraph := BindingGraph.invalidate_results hids data
    have hanswered := (invalidate_answers horderly hlegible hr hids data).2
    have hlength := hresults.length_eq.symm.trans hgraph.length_eq
    have hbound : ∀ {k id : Nat}, ids[k]? = some id → ∃ b, r.bindings.binding? id = some b := by
      intro k id hk
      obtain ⟨_, -, b, hb, -⟩ := getElem?_of_forall₂ hgraph hk
      exact ⟨b, hb⟩
    refine ⟨hlength, ?_, ?_, fun k => ?_, fun id => ?_, fun k id b text e hk hb hrefuses => ?_⟩
    · rw [hanswered.alike.root, BindingGraph.invalidate, BindingGraph.foldl_commitUpdate_root]
    · rw [hanswered.alike.edges, BindingGraph.invalidate, BindingGraph.foldl_commitUpdate_edges]
    · rw [hconcerned]
      cases hk : ids[k]? with
      | none =>
        have hlast : ids.length ≤ k := List.getElem?_eq_none_iff.1 hk
        left
        rw [List.getElem?_eq_none (hresults.length_eq ▸ hlast),
          List.getElem?_eq_none (hgraph.length_eq ▸ hlast)]
      | some id =>
        obtain ⟨b, hb⟩ := hbound hk
        rcases invalidate_agrees_at horderly hlegible hr hids data hk hb with
          ⟨-, hsame, -⟩ | ⟨text, e, hrefuses, -⟩
        · exact .inl hsame
        · exact .inr ⟨id, b, text, e, rfl, hb, hrefuses⟩
    · rw [hconcerned]
      by_cases hid : id ∈ ids
      · obtain ⟨k, hk⟩ := List.mem_iff_getElem?.1 hid
        obtain ⟨b, hb⟩ := hbound hk
        rcases invalidate_agrees_at horderly hlegible hr hids data hk hb with
          ⟨-, -, hsame⟩ | ⟨text, e, hrefuses, -⟩
        · exact .inl hsame
        · exact .inr ⟨b, text, e, hid, hb, hrefuses⟩
      · left
        rw [hanswered.binding?_of_not_mem hid, BindingGraph.invalidate_binding?_of_not_mem hids hid]
    · rw [hconcerned] at hk
      rcases invalidate_agrees_at horderly hlegible hr hids data hk hb with
        ⟨hnone, -⟩ | ⟨text', e', hrefuses', hresult, hcopy, hkept, hnew⟩
      · exact absurd hrefuses (hnone text e)
      · obtain ⟨rfl, rfl⟩ := Prod.mk.inj
          (Option.some.inj ((refuses_iff.1 hrefuses).symm.trans (refuses_iff.1 hrefuses')))
        exact ⟨hresult, hcopy, hkept, hnew, hrefuses.ne_composed hr hb⟩

end

/-- **Document and graph agree.** In every document that comes about from the
standard views, at every path and against all data: where no view refuses a text
that something the change concerns composes to, the document answers a change as
its graph does by itself, and has afterwards the graph that the graph by itself
becomes. And where texts are refused, answers and graphs differ for those bindings
alone: there the document reports the refusal and keeps the text before, which the
graph by itself replaces. -/
theorem invalidate_agrees {r : Rendered StandardView} (hr : r.Reached .standard) (path : String)
    (data : DataSource) :
    ((∀ id ∈ r.concerned path, ∀ b, r.bindings.binding? id = some b →
        ∀ text e, ¬ r.Refuses data b text e) →
      (r.invalidate path data).1 = (r.bindings.invalidate path data).1 ∧
        (r.invalidate path data).2.bindings = (r.bindings.invalidate path data).2) ∧
    r.AgreesApart path data := by
  have horderly : ViewRegistry.standard.Orderly := ViewRegistry.standard_orderly
  have happart := agreesApart horderly ViewRegistry.standard_legible (hr.inStep horderly) path data
  exact ⟨happart.eq_of_not_refuses, happart⟩

/-- The card again: when its text alone changes, document and graph come to the
same; when the task changes, they part over the alignment, which the label
refuses. -/
theorem taskCard_agrees : ∃ r : Rendered StandardView, r.Reached .standard ∧
    (r.invalidate "task.due" cardDue).1 = (r.bindings.invalidate "task.due" cardDue).1 ∧
    (r.invalidate "task.due" cardDue).2.bindings = (r.bindings.invalidate "task.due" cardDue).2 ∧
    (∃ b e, r.bindings.binding? 1 = some b ∧ r.Refuses cardAfter b "up" e) ∧
    r.AgreesApart "task" cardAfter := by
  have hdoc : taskCard.NamesDistinct := ⟨⟨by decide, trivial⟩, trivial⟩
  have hrun : ((render .standard {} taskCard cardBefore).map fun r =>
      (r.concerned "task.due", (r.bindings.binding? 0).map (r.refusal? cardDue),
        ((r.bindings.binding? 1).bind (r.refusal? cardAfter)).map Prod.fst)).toOption =
      some ([0], some none, some "up") := by decide +kernel
  obtain ⟨r, hr, hfound⟩ := map_eq_ok_iff.1 (toOption_eq_some_iff.1 hrun)
  obtain ⟨hconcerned, hfound⟩ := Prod.mk.inj hfound
  obtain ⟨hnone, hsome⟩ := Prod.mk.inj hfound
  have hreached : r.Reached .standard := ⟨_, _, _, r, [], hdoc, hr, rfl⟩
  have hdue : ∀ id ∈ r.concerned "task.due", ∀ b, r.bindings.binding? id = some b →
      ∀ text e, ¬ r.Refuses cardDue b text e := by
    intro id hid b hb text e hrefuses
    rw [hconcerned, List.mem_singleton] at hid
    subst hid
    rw [hb, Option.map_some, Option.some.injEq, refuses_iff.1 hrefuses] at hnone
    cases hnone
  obtain ⟨⟨text, e⟩, hrefusal, rfl⟩ := Option.map_eq_some_iff.1 hsome
  obtain ⟨b, hb, hrefusal⟩ := Option.bind_eq_some_iff.1 hrefusal
  obtain ⟨hresults, hgraph⟩ := (invalidate_agrees hreached "task.due" cardDue).1 hdue
  exact ⟨r, hreached, hresults, hgraph, ⟨b, e, hb, refuses_iff.2 hrefusal⟩,
    (invalidate_agrees hreached "task" cardAfter).2⟩

end Rendered

end ViewMarkup
