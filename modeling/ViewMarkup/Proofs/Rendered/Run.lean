/-
# Runs of a rendered document

What can happen to a document once it is rendered: a change is announced at a
path, a path is left for later, the paths left are announced. Each event comes
with data of its own. A run is any finite sequence of them.

Views and bindings change only where a change is announced, and there only by
`refresh`, one recomposed binding after the other.

Key definitions: `Rendered.Event`, `Rendered.after`, `Rendered.run`.
Key theorems: `Rendered.refresh_cases`, `Rendered.display_cases`,
`Rendered.run_of_invalidate`.
-/
import ViewMarkup.Outcome
import ViewMarkup.Rendered

namespace ViewMarkup.Rendered

variable {V : Type}

/-- What can happen to a rendered document. -/
inductive Event where
  | invalidate (path : String) (data : DataSource)
  | post (path : String)
  | processPending (data : DataSource)

/-- The document after an event. -/
def after (r : Rendered V) : Event → Rendered V
  | .invalidate path data => (r.invalidate path data).2
  | .post path => (r.post path).2
  | .processPending data => (r.processPending data).2

/-- The document after several events, one after the other. -/
def run (r : Rendered V) (events : List Event) : Rendered V := events.foldl after r

/-! ### One recomposed binding -/

/-- A recomposed binding changes nothing; or its text is refused, and the document is
left as the view has it by then; or its text is shown and recorded. -/
theorem refresh_cases (r : Rendered V) (result : Except MarkupError BindingUpdate) :
    (r.refresh result).2 = r ∨
      (∃ update e, result = .ok update ∧ r.display update = (.error e, (r.refresh result).2)) ∨
      ∃ update shown, result = .ok update ∧ r.display update = (.ok (), shown) ∧
        (r.refresh result).2 =
          { shown with bindings := shown.bindings.commit update.binding update.value } := by
  unfold refresh
  split
  · exact .inl rfl
  · rename_i update
    split
    · split
      · rename_i e shown hshown
        exact .inr (.inl ⟨update, e, rfl, hshown⟩)
      · rename_i shown hshown
        exact .inr (.inr ⟨update, shown, rfl, hshown, rfl⟩)
    · exact .inl rfl

/-- What is shown is set on the view of the update, if there is such a view. -/
theorem display_cases (r : Rendered V) (update : BindingUpdate) :
    ((∀ node c view, r.tree.node? update.target = some node →
        r.registry.class? node.kind = some c → node.view ≠ some view) ∧
        r.display update = (.ok (), r)) ∨
      ∃ node c view answer view', r.tree.node? update.target = some node ∧
        node.view = some view ∧ r.registry.class? node.kind = some c ∧
        c.set view update.property (.text update.value) (r.placeOf update.binding) =
          (answer, view') ∧
        r.display update = (answer, { r with tree := r.tree.setView update.target view' }) := by
  unfold display
  cases hn : r.tree.node? update.target with
  | none => exact .inl ⟨nofun, rfl⟩
  | some node =>
    cases hc : r.registry.class? node.kind with
    | none =>
      refine .inl ⟨fun node' c view hnode hc' => ?_, by simp only [hc]⟩
      cases hnode
      cases hc.symm.trans hc'
    | some c =>
      cases hv : node.view with
      | none =>
        refine .inl ⟨fun node' c view hnode _ hv' => ?_, by simp only [hc, hv]⟩
        cases hnode
        cases hv.symm.trans hv'
      | some view =>
        cases hset :
            c.set view update.property (.text update.value) (r.placeOf update.binding) with
        | mk answer view' =>
          exact .inr ⟨node, c, view, answer, view', rfl, hv, hc, hset, by simp only [hc, hv, hset]⟩

/-! ### Whole runs -/

section

variable {P : Rendered V → Prop} (hinbox : ∀ r inbox, P r → P { r with inbox })
  (hinvalidate : ∀ r path data, P r → P (r.invalidate path data).2)
include hinvalidate

theorem invalidateAll_of_invalidate (data : DataSource) : ∀ (paths : List String) {r : Rendered V},
    P r → P (r.invalidateAll data paths).2
  | [], _, h => h
  | path :: paths, r, h => invalidateAll_of_invalidate data paths (hinvalidate r path data h)

include hinbox

theorem after_of_invalidate {r : Rendered V} (h : P r) : ∀ event : Event, P (r.after event)
  | .invalidate path data => hinvalidate r path data h
  | .post path => hinbox r (r.inbox.post path).2 h
  | .processPending data =>
    invalidateAll_of_invalidate hinvalidate data _ (hinbox r r.inbox.emptied h)

/-- What does not depend on the inbox and outlasts every announced change holds
after every run. -/
theorem run_of_invalidate : ∀ (events : List Event) {r : Rendered V}, P r → P (r.run events)
  | [], _, h => h
  | event :: events, _, h =>
    run_of_invalidate events (after_of_invalidate hinbox hinvalidate h event)

end

end ViewMarkup.Rendered
