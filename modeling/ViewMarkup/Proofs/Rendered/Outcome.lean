/-
# The outcome of an announced change

A change at a path is answered for each of the bindings that it concerns, in the
order of their registration: the template does not compose, or the view refuses
the text, and all stays as it was; or the text is taken, recorded and shown. What
becomes of a binding hangs on its own composition alone, whatever becomes of the
others. Where no path is spelled, nothing happens.

Key definitions: `Rendered.Outcome`.
Key theorems: `Rendered.outcome_of_answered`, `Rendered.mem_zip_invalidate_iff`,
`Rendered.invalidate_outcomes`.
-/
import ViewMarkup.Proofs.Rendered.Verdict
import ViewMarkup.Proofs.Template.Compose

namespace ViewMarkup

theorem MarkupError.placedAt_unresolved (path reason keyPath : String) :
    (MarkupError.unresolved path reason).placedAt keyPath =
      { MarkupError.unresolved path reason with keyPath } := by
  simp [placedAt, unresolved]

theorem ViewRegistry.kind_of_class? {V : Type} {registry : ViewRegistry V} {kind : String}
    {c : ViewClass V} (h : registry.class? kind = some c) : c.kind = kind := by
  unfold class? at h
  simpa using List.find?_some h

namespace Rendered

variable {V S : Type} {look : V → String → Option S} {registry : ViewRegistry V}
  {r r' : Rendered V} {data : DataSource} {id : Nat} {b : Binding}

/-- The binding has the text it had, and its slot shows what it showed. -/
structure Kept (look : V → String → Option S) (before after : Rendered V) (id : Nat)
    (b : Binding) : Prop where
  binding : after.bindings.binding? id = some b
  shown : after.shows look b.slot = before.shows look b.slot

/-- What becomes of a binding when a change that concerns it is announced: the
result for it, what the graph has for it afterwards, and what is shown in its
slot afterwards. -/
inductive Outcome (look : V → String → Option S) (before after : Rendered V) (data : DataSource)
    (id : Nat) (b : Binding) : Except MarkupError BindingUpdate → Prop
  /-- The template does not compose, and the binding and its property stay. -/
  | uncomposed {e : MarkupError} (compose : b.template.compose data before.bindings.root = .error e)
    (kept : Kept look before after id b) :
    Outcome look before after data id b (.error { e with keyPath := b.keyPath })
  /-- The view refuses the text, and the binding and its property stay. -/
  | refused {text kind : String} {view : V} {c : ViewClass V} {e : PropertyError}
    (compose : b.template.compose data before.bindings.root = .ok text)
    (face : before.tree.face? b.target = some (kind, view))
    (found : before.registry.class? kind = some c)
    (apply : c.apply view b.property (.text text) = (some (.error e), view))
    (kept : Kept look before after id b) :
    Outcome look before after data id b
      (.error ⟨.unsupportedAttribute kind b.property e.message, b.keyPath⟩)
  /-- The view takes the text: it is recorded, and shown as the setter has it. -/
  | taken {text kind : String} {view view' : V} {c : ViewClass V}
    (compose : b.template.compose data before.bindings.root = .ok text)
    (face : before.tree.face? b.target = some (kind, view))
    (found : before.registry.class? kind = some c)
    (apply : c.apply view b.property (.text text) = (some (.ok ()), view'))
    (binding : after.bindings.binding? id = some { b with composed := text })
    (shown : after.shows look b.slot = look view' b.property) :
    Outcome look before after data id b
      (.ok ⟨id, b.target, b.property, text, decide (text ≠ b.composed)⟩)

section

variable (hlegible : registry.Legible look) (hr : r.StandsInStep registry)
include hlegible hr

theorem Alike.kept (h : Alike look r r') (hr' : r'.StandsInStep registry)
    (hb : r.bindings.binding? id = some b) (hb' : r'.bindings.binding? id = some b) :
    Kept look r r' id b := ⟨hb', h.shows_eq hlegible hr hr' hb hb'⟩

/-- The outcome for a binding that was taken up among others. -/
theorem outcome_of_answered (horderly : registry.Orderly) {ids : List Nat} (h : Answered look registry r data ids r')
    (hid : id ∈ ids) (hb : r.bindings.binding? id = some b) :
    Outcome look r r' data id b (r.answer data id b) := by
  obtain ⟨kind, view, c, hf, hc, hshown⟩ := hr.shown hb
  have hfound : r.registry.class? kind = some c := hr.1 ▸ hc
  have hverdict := verdict_eq data hb hf hfound
  have htold : r'.bindings.binding? id = some (r.retold data id b) := by
    rw [h.told id, hb, Option.map_some, if_pos hid]
  have hkept : ∀ e, r.verdict data id b = .error e → Kept look r r' id b := by
    intro e he
    exact h.alike.kept hlegible hr h.inStep hb (by rw [htold, retold, he])
  unfold answer
  cases hcompose : b.template.compose data r.bindings.root with
  | error e =>
    obtain ⟨path, reason, rfl⟩ := Template.unresolved_of_compose hcompose
    simp only [hcompose, MarkupError.placedAt_unresolved] at hverdict
    have hsame := hkept _ hverdict
    rw [hverdict]
    exact .uncomposed hcompose hsame
  | ok text =>
    simp only [hcompose, ViewClass.set] at hverdict
    cases hx : c.apply view b.property (.text text) with
    | mk answer view' =>
      rcases answer with _ | (e | _)
      · -- the class has the property, for the view shows a text under it
        obtain ⟨set, hset, -⟩ := ViewClass.apply_eq_some_iff.1 hshown
        rw [ViewClass.apply_of_setter? hset] at hx
        cases hx
      · obtain rfl := (horderly hc).apply_refused hx
        simp only [hx, ViewRegistry.kind_of_class? hc] at hverdict
        have hsame := hkept _ hverdict
        rw [hverdict]
        exact .refused hcompose hf hfound hx hsame
      · simp only [hx] at hverdict
        have hbinding : r'.bindings.binding? id = some { b with composed := text } := by
          rw [htold, retold, hverdict]
          rfl
        rw [hverdict]
        exact .taken hcompose hf hfound hx hbinding
          (h.alike.shows_of_apply hlegible h.inStep hbinding hf hc hx)

omit hlegible in
/-- The verdict hangs on what the template composes to. -/
theorem verdict_eq_of_compose_eq {data' : DataSource} (hb : r.bindings.binding? id = some b)
    (h : b.template.compose data' r.bindings.root = b.template.compose data r.bindings.root) :
    r.verdict data' id b = r.verdict data id b := by
  obtain ⟨kind, view, c, hf, hc, -⟩ := hr.shown hb
  have hfound : r.registry.class? kind = some c := hr.1 ▸ hc
  rw [verdict_eq data' hb hf hfound, verdict_eq data hb hf hfound, h]

/-- Two documents in which the binding was taken up, each among others, have it
and show it alike if it composed alike. -/
theorem same_of_answered {data' : DataSource} {ids ids' : List Nat} {r'' : Rendered V}
    (h : Answered look registry r data ids r') (h' : Answered look registry r data' ids' r'')
    (hid : id ∈ ids) (hid' : id ∈ ids') (hb : r.bindings.binding? id = some b)
    (hcompose : b.template.compose data' r.bindings.root =
      b.template.compose data r.bindings.root) :
    r''.bindings.binding? id = r'.bindings.binding? id ∧
      r''.shows look b.slot = r'.shows look b.slot := by
  have htold : r'.bindings.binding? id = some (r.retold data id b) := by
    rw [h.told id, hb, Option.map_some, if_pos hid]
  have htold' : r''.bindings.binding? id = some (r.retold data id b) := by
    rw [h'.told id, hb, Option.map_some, if_pos hid', retold, retold,
      verdict_eq_of_compose_eq hr hb hcompose]
  have halike : Alike look r' r'' := h.alike.symm.trans h'.alike
  have hslot : (r.retold data id b).slot = b.slot := by
    obtain ⟨text, htext⟩ := r.retold_eq data id b
    rw [htext]
    rfl
  have hshows := halike.shows_eq hlegible h.inStep h'.inStep htold htold'
  rw [hslot] at hshows
  exact ⟨htold'.trans htold.symm, hshows⟩

end

/-! ### Results -/

section

variable (horderly : registry.Orderly) (hlegible : registry.Legible look)
  (hr : r.StandsInStep registry) {path : String} {ids : List Nat}
  (hids : r.bindings.dependents path = .ok ids)
include horderly hlegible hr hids

/-- Each binding that a change concerns has its answer, in the same order. -/
theorem invalidate_results (data : DataSource) :
    List.Forall₂ (fun id result => ∃ b, r.bindings.binding? id = some b ∧
      result = r.answer data id b) ids (r.invalidate path data).1 := by
  obtain ⟨p, -, rfl⟩ := map_eq_ok_iff.1 hids
  rw [(invalidate_answers horderly hlegible hr hids data).1]
  exact BindingGraph.results_of_bindings fun id => BindingGraph.binding?_of_mem_dependentsOn

theorem mem_zip_invalidate_iff (data : DataSource) (hid : id ∈ ids)
    (hb : r.bindings.binding? id = some b) (result : Except MarkupError BindingUpdate) :
    (id, result) ∈ ids.zip (r.invalidate path data).1 ↔ result = r.answer data id b := by
  have hresults := invalidate_results horderly hlegible hr hids data
  have honly : ∀ {result}, (id, result) ∈ ids.zip (r.invalidate path data).1 →
      result = r.answer data id b := by
    intro result hmem
    obtain ⟨b', hb', heq⟩ := (List.forall₂_iff_zip.1 hresults).2 hmem
    obtain rfl := Option.some.inj (hb.symm.trans hb')
    exact heq
  constructor
  · exact honly
  · rintro rfl
    obtain ⟨result, hmem, -⟩ := exists_mem_zip hresults hid
    rwa [← honly hmem]

end

/-- **The outcome of an announced change.** In every document that comes about
from the standard views: a text that spells no path is answered by one error, and
nothing changes. A path is answered by one result for each binding that a change
there concerns, in the order of their registration, and each of these has its
outcome. What a change does not concern keeps its text and its state. And two
changes that concern a binding, whatever their paths and their data, have the
same outcome for it if it composes alike against both. -/
theorem invalidate_outcomes {r : Rendered StandardView} (hr : r.Reached .standard) (path : String)
    (data : DataSource) :
    ((∀ segments, ¬ Path.Spells path segments) → ∃ e, r.invalidate path data = ([.error e], r)) ∧
    (∀ segments, Path.Spells path segments → ∃ ids, r.bindings.dependents path = .ok ids ∧
      ids.Pairwise (· < ·) ∧
      List.Forall₂ (fun id result => ∃ b, r.bindings.binding? id = some b ∧
        Outcome StandardView.property? r (r.invalidate path data).2 data id b result)
        ids (r.invalidate path data).1 ∧
      ∀ id b, id ∉ ids → r.bindings.binding? id = some b →
        Kept StandardView.property? r (r.invalidate path data).2 id b) ∧
    ∀ path' data' ids ids' id b, r.bindings.dependents path = .ok ids →
      r.bindings.dependents path' = .ok ids' → id ∈ ids → id ∈ ids' →
      r.bindings.binding? id = some b →
      b.template.compose data' r.bindings.root = b.template.compose data r.bindings.root →
        (∀ result, (id, result) ∈ ids'.zip (r.invalidate path' data').1 ↔
          (id, result) ∈ ids.zip (r.invalidate path data).1) ∧
        (r.invalidate path' data').2.bindings.binding? id =
          (r.invalidate path data).2.bindings.binding? id ∧
        (r.invalidate path' data').2.shows StandardView.property? b.slot =
          (r.invalidate path data).2.shows StandardView.property? b.slot := by
  have horderly : ViewRegistry.standard.Orderly := ViewRegistry.standard_orderly
  have hlegible := ViewRegistry.standard_legible
  have hs := hr.inStep horderly
  refine ⟨fun hnone => ?_, fun segments hspells => ?_, ?_⟩
  · obtain ⟨e, he⟩ := BindingGraph.dependents_eq_error_iff.2 fun ⟨segments, h⟩ => hnone segments h
    exact ⟨e, invalidate_of_error he data⟩
  · have hids : r.bindings.dependents path =
        .ok (r.bindings.dependentsOn (Path.relative ⟨segments⟩ r.bindings.root)) :=
      BindingGraph.dependents_of_parse (Path.parse_of_spells hspells)
    have hresults := invalidate_results horderly hlegible hs hids data
    have hanswered := (invalidate_answers horderly hlegible hs hids data).2
    refine ⟨_, hids, BindingGraph.dependentsOn_increasing _, ?_, fun id b hid hb => ?_⟩
    · refine List.forall₂_iff_zip.2 ⟨hresults.length_eq, fun hmem => ?_⟩
      obtain ⟨b, hb, rfl⟩ := (List.forall₂_iff_zip.1 hresults).2 hmem
      exact ⟨b, hb, outcome_of_answered hlegible hs horderly hanswered (List.of_mem_zip hmem).1 hb⟩
    · have hsame := hanswered.told id
      rw [hb, Option.map_some, if_neg hid] at hsame
      exact hanswered.alike.kept hlegible hs hanswered.inStep hb hsame
  · intro path' data' ids ids' id b hids hids' hid hid' hb hcompose
    have hanswered := (invalidate_answers horderly hlegible hs hids data).2
    have hanswered' := (invalidate_answers horderly hlegible hs hids' data').2
    refine ⟨fun result => ?_, same_of_answered hlegible hs hanswered hanswered' hid hid' hb hcompose⟩
    rw [mem_zip_invalidate_iff horderly hlegible hs hids' data' hid' hb,
      mem_zip_invalidate_iff horderly hlegible hs hids data hid hb, answer, answer,
      verdict_eq_of_compose_eq hs hb hcompose]

/-! ### A card with something of everything -/

/-- A label with four bindings. -/
def taskCard : Document where
  layout := [.mk "UILabel" (some "card")
    [("text", .string "#{@bind(task.due)} #{@bind(task.state)}"),
      ("textAlignment", .string "#{@bind(task.side)}"),
      ("numberOfLines", .string "#{@bind(task.lines)}"),
      ("fontSize", .string "#{@bind(task.size)}")] []]
  constraints := []

def cardData (members : List (String × String)) : DataSource :=
  Json.lookup (.object [("task", .object (members.map fun (key, text) => (key, .string text)))])

/-- The card at first. -/
def cardBefore : DataSource :=
  cardData [("due", "today"), ("state", "open"), ("side", "left"), ("lines", "2"), ("size", "12")]

/-- Another state, an alignment that is none, the same number of lines, and no
size. -/
def cardAfter : DataSource :=
  cardData [("due", "today"), ("state", "done"), ("side", "up"), ("lines", "2")]

/-- What is answered when the task has changed: the text is new, the alignment is
refused, the number of lines stays and the size is missing. -/
def cardResults : List (Except MarkupError BindingUpdate) :=
  [.ok ⟨0, ⟨1⟩, "text", "today done", true⟩,
    .error ⟨.unsupportedAttribute "UILabel" "textAlignment"
      "value up out of range: expected left, center, right, justified or natural",
      "@layout[0].textAlignment"⟩,
    .ok ⟨2, ⟨1⟩, "numberOfLines", "2", false⟩,
    .error ⟨.unresolvedPath "task.size" "no value for 'size'", "@layout[0].fontSize"⟩]

/-- The binding of the text. -/
def cardText : Binding where
  target := ⟨1⟩
  property := "text"
  template := BindingGraph.templateOf "#{@bind(task.due)} #{@bind(task.state)}"
  keyPath := "@layout[0].text"
  composed := "today open"

/-- A task of which no more is known than the text needs. -/
def cardDue : DataSource := cardData [("due", "today"), ("state", "done")]

theorem taskCard_outcomes : ∃ r, r.Reached .standard ∧
    (∃ e, r.invalidate "task..size" cardAfter = ([.error e], r)) ∧
    (r.invalidate "task" cardAfter).1 = cardResults ∧
    List.Forall₂ (fun id result => ∃ b, r.bindings.binding? id = some b ∧
      Outcome StandardView.property? r (r.invalidate "task" cardAfter).2 cardAfter id b result)
      [0, 1, 2, 3] cardResults ∧
    (r.invalidate "task.due" cardDue).2.bindings.binding? 0 =
      (r.invalidate "task" cardAfter).2.bindings.binding? 0 := by
  have hdoc : taskCard.NamesDistinct := ⟨⟨by decide, trivial⟩, trivial⟩
  have hrun : ((render .standard {} taskCard cardBefore).map fun r =>
      (r.invalidate "task" cardAfter).1).toOption = some cardResults := by decide +kernel
  have hgraph : ((render .standard {} taskCard cardBefore).map fun r =>
      ((r.bindings.dependents "task").toOption, (r.bindings.dependents "task.due").toOption,
        r.bindings.binding? 0, r.bindings.root)).toOption =
      some (some [0, 1, 2, 3], some [0], some cardText, "object") := by decide +kernel
  have hspells : Path.Spells "task" ["task"] :=
    Path.spells_of_parse (toOption_eq_some_iff.1 (by decide +kernel :
      (Path.parse "task").toOption = some ⟨["task"]⟩))
  have hnot : ∀ segments, ¬ Path.Spells "task..size" segments := by
    intro segments h
    have hparse := Path.parse_of_spells (p := ⟨segments⟩) h
    have hnone : (Path.parse "task..size").toOption = none := by decide +kernel
    rw [hparse] at hnone
    cases hnone
  have hcompose : cardText.template.compose cardDue "object" =
      cardText.template.compose cardAfter "object" := by decide +kernel
  obtain ⟨r, hr, hresults⟩ := map_eq_ok_iff.1 (toOption_eq_some_iff.1 hrun)
  rw [hr] at hgraph
  obtain ⟨htask, hdue, hbinding, hroot⟩ : (r.bindings.dependents "task").toOption = _ ∧
      (r.bindings.dependents "task.due").toOption = _ ∧ r.bindings.binding? 0 = _ ∧
      r.bindings.root = _ := by simpa [Except.map, Except.toOption] using hgraph
  have hreached : r.Reached .standard := ⟨_, _, _, r, [], hdoc, hr, rfl⟩
  obtain ⟨-, houtcomes, hsame⟩ := invalidate_outcomes hreached "task" cardAfter
  have hunspelled := (invalidate_outcomes hreached "task..size" cardAfter).1 hnot
  obtain ⟨ids, hids, -, hall, -⟩ := houtcomes _ hspells
  have htask := toOption_eq_some_iff.1 htask
  have hdue := toOption_eq_some_iff.1 hdue
  obtain rfl := Except.ok.inj (hids.symm.trans htask)
  rw [hresults] at hall
  obtain ⟨-, hfirst, -⟩ := hsame "task.due" cardDue _ _ 0 cardText htask hdue (by decide)
    (by decide) hbinding (hroot ▸ hcompose)
  exact ⟨r, hreached, hunspelled, hresults, hall, hfirst⟩

end Rendered

end ViewMarkup
