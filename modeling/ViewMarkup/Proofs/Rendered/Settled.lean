/-
# Announcing what is known already

A document is settled against data if each of its bindings composes to the text
that it has. A document is built so: its bindings come from attributes, and have
the texts that these were set to. Against such data nothing that is announced
changes anything, and every answer says so.

From then on a document need not be settled, for there may be templates that do
not compose and texts that a view refuses. To announce a change twice in a row
comes to the same even so: the second time the same texts are taken, the same
bindings fail for the same reasons, and nothing changes.

Key definitions: `Rendered.reports`, `Rendered.Settled`, `Rendered.Event.Against`,
`BindingUpdate.silent`.
Key theorems: `render_settled`, `Rendered.Settled.invalidate`,
`Rendered.Settled.run`, `Rendered.invalidate_again`, `known_data_noop`.
-/
import ViewMarkup.Proofs.Build.Origin
import ViewMarkup.Proofs.Rendered.Outcome
import ViewMarkup.Proofs.Rendered.Pending

namespace ViewMarkup

/-- The update with a text that is no news. -/
def BindingUpdate.silent (update : BindingUpdate) : BindingUpdate := { update with changed := false }

namespace Rendered

variable {V S : Type} {look : V → String → Option S} {registry : ViewRegistry V} {r : Rendered V}
  {data : DataSource}

/-- What an event is answered with. -/
def report (r : Rendered V) : Event → List (Except MarkupError BindingUpdate)
  | .invalidate path data => (r.invalidate path data).1
  | .post _ => []
  | .processPending data => (r.processPending data).1

/-- All that is answered in the course of a run. -/
def reports (r : Rendered V) : List Event → List (Except MarkupError BindingUpdate)
  | [] => []
  | event :: events => r.report event ++ (r.after event).reports events

/-- Every binding composes to the text that it has. -/
def Settled (r : Rendered V) (data : DataSource) : Prop :=
  ∀ b ∈ r.bindings.bindings, b.template.compose data r.bindings.root = .ok b.composed

/-- The event is about this data, and its path is one. -/
inductive Event.Against (data : DataSource) : Event → Prop
  | invalidate {path : String} {segments : List String} (spelled : Path.Spells path segments) :
    Against data (.invalidate path data)
  | post {path : String} {segments : List String} (spelled : Path.Spells path segments) :
    Against data (.post path)
  | processPending : Against data (.processPending data)

/-- The answer is no error and no news. -/
def Silent (result : Except MarkupError BindingUpdate) : Prop :=
  ∃ update, result = .ok update ∧ update.changed = false

/-! ### Settled documents -/

theorem refreshAll_of_silent : ∀ {results : List (Except MarkupError BindingUpdate)},
    (∀ result ∈ results, Silent result) → r.refreshAll results = (results, r)
  | [], _ => rfl
  | result :: rest, h => by
    obtain ⟨update, rfl, hchanged⟩ := h result List.mem_cons_self
    have hrefresh : r.refresh (.ok update) = (.ok update, r) := by simp [refresh, hchanged]
    rw [refreshAll, hrefresh]
    show (_ :: (r.refreshAll rest).1, (r.refreshAll rest).2) = _
    rw [refreshAll_of_silent fun result hmem => h result (List.mem_cons_of_mem _ hmem)]

namespace Settled

variable (h : r.Settled data)
include h

theorem recompose_silent {path : String} {segments : List String}
    (hpath : Path.Spells path segments) :
    ∀ result ∈ r.bindings.recompose path data, Silent result := by
  intro result hmem
  rw [BindingGraph.recompose, BindingGraph.dependents_of_parse (Path.parse_of_spells hpath)] at hmem
  obtain ⟨id, -, hid⟩ := List.mem_filterMap.1 hmem
  obtain ⟨b, hb, rfl⟩ := Option.map_eq_some_iff.1 hid
  have hcompose := h b (List.mem_of_getElem? hb)
  unfold BindingGraph.recomposeOne
  rw [hcompose]
  exact ⟨_, rfl, by simp⟩

/-- A change that is announced at a path is answered and changes nothing. -/
theorem invalidate {path : String} {segments : List String} (hpath : Path.Spells path segments) :
    (∀ result ∈ (r.invalidate path data).1, Silent result) ∧ (r.invalidate path data).2 = r := by
  have hsilent := h.recompose_silent hpath
  rw [Rendered.invalidate, refreshAll_of_silent hsilent]
  exact ⟨hsilent, rfl⟩

theorem invalidateAll : ∀ {paths : List String},
    (∀ path ∈ paths, ∃ segments, Path.Spells path segments) →
      (∀ result ∈ (r.invalidateAll data paths).1, Silent result) ∧
        (r.invalidateAll data paths).2 = r
  | [], _ => ⟨fun _ hmem => absurd hmem List.not_mem_nil, rfl⟩
  | path :: paths, hpaths => by
    obtain ⟨segments, hpath⟩ := hpaths path List.mem_cons_self
    obtain ⟨hfirst, hstate⟩ := h.invalidate hpath
    obtain ⟨hothers, hend⟩ := invalidateAll fun path hmem =>
      hpaths path (List.mem_cons_of_mem _ hmem)
    rw [Rendered.invalidateAll]
    dsimp only
    rw [hstate]
    exact ⟨List.forall_mem_append.2 ⟨hfirst, hothers⟩, hend⟩

/-- One event: nothing but the inbox changes, and the paths in it are still
paths. -/
theorem after {event : Event} (hevent : event.Against data)
    (hqueue : ∀ path ∈ r.inbox.paths, ∃ segments, Path.Spells path segments) :
    (∀ result ∈ r.report event, Silent result) ∧
      ∃ inbox : Inbox, r.after event = { r with inbox } ∧
        ∀ path ∈ inbox.paths, ∃ segments, Path.Spells path segments := by
  cases hevent with
  | invalidate hpath =>
    obtain ⟨hsilent, hstate⟩ := h.invalidate hpath
    exact ⟨hsilent, r.inbox, hstate, hqueue⟩
  | @post path segments hpath =>
    refine ⟨fun _ hmem => absurd hmem List.not_mem_nil, (r.inbox.post path).2, rfl, ?_⟩
    unfold Inbox.post
    split
    · exact List.forall_mem_append.2
        ⟨hqueue, fun other hother => ⟨segments, List.mem_singleton.1 hother ▸ hpath⟩⟩
    · exact hqueue
  | processPending =>
    have hquiet : ({ r with inbox := r.inbox.emptied } : Rendered V).Settled data := h
    obtain ⟨hsilent, hstate⟩ := hquiet.invalidateAll fun path hmem =>
      hqueue path (Inbox.mem_distinct_iff.1 hmem)
    exact ⟨hsilent, r.inbox.emptied, hstate, fun _ hmem => absurd hmem List.not_mem_nil⟩

end Settled

/-- A run against data that a document is settled against. -/
theorem Settled.run : ∀ {events : List Event} {r : Rendered V}, r.Settled data →
    (∀ path ∈ r.inbox.paths, ∃ segments, Path.Spells path segments) →
    (∀ event ∈ events, event.Against data) →
      (∀ result ∈ r.reports events, Silent result) ∧
        r.run events = { r with inbox := (r.run events).inbox }
  | [], r, _, _, _ => ⟨fun _ hmem => absurd hmem List.not_mem_nil, rfl⟩
  | event :: events, r, h, hqueue, hevents => by
    obtain ⟨hfirst, inbox, hafter, hqueue'⟩ := h.after (hevents event List.mem_cons_self) hqueue
    have hsettled : ({ r with inbox } : Rendered V).Settled data := h
    obtain ⟨hothers, hrun⟩ := Settled.run (r := { r with inbox }) hsettled hqueue'
      fun event hmem => hevents event (List.mem_cons_of_mem _ hmem)
    have hstart : r.run (event :: events) = ({ r with inbox } : Rendered V).run events := by
      rw [← hafter]
      rfl
    rw [hstart]
    refine ⟨List.forall_mem_append.2 ⟨hfirst, ?_⟩, hrun⟩
    rw [hafter]
    exact hothers

/-! ### The same change twice -/

/-- **Twice is once.** In a document in step, to announce a change again changes
nothing, and is answered as before, except that no text is news. -/
theorem invalidate_again (horderly : registry.Orderly) (hlegible : registry.Legible look)
    (hr : r.StandsInStep registry) (path : String) (data : DataSource) :
    (r.invalidate path data).2.invalidate path data =
      ((r.invalidate path data).1.map (·.map BindingUpdate.silent), (r.invalidate path data).2) := by
  cases hids : r.bindings.dependents path with
  | error e =>
    rw [invalidate_of_error hids, invalidate_of_error hids]
    rfl
  | ok ids =>
    obtain ⟨hresults, hfirst⟩ := invalidate_answers horderly hlegible hr hids data
    generalize (r.invalidate path data).2 = r' at hfirst ⊢
    have hids' : r'.bindings.dependents path = .ok ids := (hfirst.alike.dependents path).trans hids
    obtain ⟨hresults', hsecond⟩ := invalidate_answers horderly hlegible hfirst.inStep hids' data
    have hstate : (r'.invalidate path data).2 = r' :=
      (hfirst.trans hlegible hr hsecond).unique hlegible hfirst fun id => by simp
    refine Prod.ext ?_ hstate
    rw [hresults', hresults, answers, answers, List.map_filterMap]
    refine List.filterMap_congr fun id hid => ?_
    have htold := hfirst.told id
    cases hb : r.bindings.binding? id with
    | none =>
      rw [hb] at htold
      rw [htold]
      rfl
    | some b =>
      rw [hb, Option.map_some, if_pos hid] at htold
      obtain ⟨text, htext⟩ := r.retold_eq data id b
      have hverdict := verdict_eq_of_alike hlegible hfirst.alike hr hfirst.inStep data hb
        (htold.trans (congrArg some htext))
      rw [← htext] at hverdict
      rw [htold]
      show some (r'.answer data id (r.retold data id b)) =
        some ((r.answer data id b).map BindingUpdate.silent)
      unfold answer
      rw [hverdict]
      cases hv : r.verdict data id b with
      | error e => rfl
      | ok text =>
        have hretold : r.retold data id b = { b with composed := text } := by
          rw [retold, hv]
        rw [hretold]
        simp [Except.map, BindingUpdate.silent]

end Rendered

/-- A document is settled against the data it was rendered with. -/
theorem render_settled {V : Type} {registry : ViewRegistry V} {config : Config} {doc : Document}
    {data : DataSource} {r : Rendered V} (h : render registry config doc data = .ok r) :
    r.Settled data := by
  obtain ⟨hroot, hbinds⟩ := render_binds h
  intro b hb
  obtain ⟨place, n, name, raw, -, -, hb⟩ := hbinds b hb
  rw [hroot]
  exact hb.composed

/-- **What is known is no news.** Whatever document is rendered, with whatever
registry: a run in which paths are announced against the data of the rendering
answers every binding without error and without news, and leaves all but the
inbox as it was built. And in every document that comes about from the standard
views, a change that is announced twice in a row is answered the second time as
the first, but without news, and leaves the document as it was after the
first. -/
theorem known_data_noop :
    (∀ {V : Type} {registry : ViewRegistry V} {config : Config} {doc : Document}
      {data : DataSource} {r : Rendered V}, render registry config doc data = .ok r →
        ∀ events : List Rendered.Event, (∀ event ∈ events, event.Against data) →
          (∀ result ∈ r.reports events, Rendered.Silent result) ∧
            r.run events = { r with inbox := (r.run events).inbox }) ∧
    ∀ {r : Rendered StandardView}, r.Reached .standard → ∀ path data,
      (r.invalidate path data).2.invalidate path data =
        ((r.invalidate path data).1.map (·.map BindingUpdate.silent),
          (r.invalidate path data).2) := by
  refine ⟨fun h events hevents => ?_, fun hr path data => ?_⟩
  · refine (render_settled h).run (fun path hmem => ?_) hevents
    rw [render_inbox h] at hmem
    exact absurd hmem List.not_mem_nil
  · exact Rendered.invalidate_again ViewRegistry.standard_orderly ViewRegistry.standard_legible
      (hr.inStep ViewRegistry.standard_orderly) path data

/-! ### The card again -/

namespace Rendered

/-- Nothing of the task has changed, and all of it is announced. -/
def cardQuietEvents : List Event :=
  [.invalidate "task" cardBefore, .post "task.due", .post "task.side", .processPending cardBefore]

/-- A document is rendered from the card; the same data announces nothing new, and
other data nothing new the second time, though two bindings fail. -/
theorem taskCard_noop : ∃ r, render .standard {} taskCard cardBefore = .ok r ∧
    ((∀ result ∈ r.reports cardQuietEvents, Silent result) ∧
      r.run cardQuietEvents = { r with inbox := (r.run cardQuietEvents).inbox }) ∧
    (r.reports cardQuietEvents).length = 6 ∧
    (r.invalidate "task" cardAfter).1 = cardResults ∧
    (r.invalidate "task" cardAfter).2.invalidate "task" cardAfter =
      (cardResults.map (·.map BindingUpdate.silent), (r.invalidate "task" cardAfter).2) := by
  have hdoc : taskCard.NamesDistinct := ⟨⟨by decide, trivial⟩, trivial⟩
  have hrun : ((render .standard {} taskCard cardBefore).map fun r =>
      ((r.reports cardQuietEvents).length, (r.invalidate "task" cardAfter).1)).toOption =
        some (6, cardResults) := by decide +kernel
  have hspells : ∀ {path segments}, (Path.parse path).toOption = some ⟨segments⟩ →
      Path.Spells path segments := fun h => Path.spells_of_parse (toOption_eq_some_iff.1 h)
  have hevents : ∀ event ∈ cardQuietEvents, event.Against cardBefore := by
    have htask : Path.Spells "task" ["task"] := hspells (by decide +kernel)
    have hdue : Path.Spells "task.due" ["task", "due"] := hspells (by decide +kernel)
    have hside : Path.Spells "task.side" ["task", "side"] := hspells (by decide +kernel)
    simp only [cardQuietEvents, List.forall_mem_cons, List.not_mem_nil, false_imp_iff,
      implies_true, and_true]
    exact ⟨.invalidate htask, .post hdue, .post hside, .processPending⟩
  obtain ⟨r, hr, hfound⟩ := map_eq_ok_iff.1 (toOption_eq_some_iff.1 hrun)
  obtain ⟨hlength, hresults⟩ := Prod.mk.inj hfound
  have hreached : r.Reached .standard := ⟨_, _, _, r, [], hdoc, hr, rfl⟩
  have htwice := known_data_noop.2 hreached "task" cardAfter
  rw [hresults] at htwice
  exact ⟨r, hr, known_data_noop.1 hr cardQuietEvents hevents, hlength, hresults, htwice⟩

end Rendered

end ViewMarkup
