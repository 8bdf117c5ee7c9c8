/-
# What a run leaves as it was built

Whatever happens to a rendered document, its tree keeps its nodes, its ids and
its constraints stay, and a binding keeps all but its text. A property changes
only if a live template was bound to it. So an attribute without such a template,
above all one whose paths are all read once, shows for ever what it showed first.

Key theorems: `Rendered.run_alike`, `Document.attribute_unique`,
`not_mem_slots_of_implicit`, `render_run_frame`.
-/
import ViewMarkup.Proofs.Build.Origin
import ViewMarkup.Proofs.Document.KeyPath
import ViewMarkup.Proofs.Rendered.Verdict

namespace ViewMarkup

/-! ### Runs -/

namespace Rendered

variable {V S : Type} {look : V → String → Option S} {registry : ViewRegistry V}
  {r r' : Rendered V}

theorem Alike.withInbox (h : Alike look r r') (inbox : Inbox) : Alike look r { r' with inbox } :=
  ⟨h.registry, h.ids, h.constraints, h.root, h.edges, h.bindings, h.skeleton, h.unbound⟩

/-- A document after a run has gone on from the document before. -/
theorem run_alike (horderly : registry.Orderly) (hlegible : registry.Legible look)
    (hr : r.StandsInStep registry) (events : List Event) : Alike look r (r.run events) := by
  have hinvalidate : ∀ (r' : Rendered V) path data, Alike look r r' ∧ r'.StandsInStep registry →
      Alike look r (r'.invalidate path data).2 ∧
        (r'.invalidate path data).2.StandsInStep registry := by
    rintro r' path data ⟨halike, hr'⟩
    have hanswered := invalidate_answered horderly hlegible hr' path data
    exact ⟨halike.trans hanswered.alike, hanswered.inStep⟩
  exact (run_of_invalidate (fun r' inbox h => ⟨h.1.withInbox inbox, h.2⟩) hinvalidate events
    ⟨.refl look r, hr⟩).1

end Rendered

/-! ### Attributes of a node -/

namespace Document

variable {doc : Document}

/-- An attribute is told by its node and its name. -/
theorem attribute_unique (hdoc : doc.NamesDistinct) {place : NodePlace} {n : Node}
    (hn : doc.node? place = some n) {name : String} {raw raw' : Json}
    (h : (name, raw) ∈ n.attributes) (h' : (name, raw') ∈ n.attributes) : raw = raw' := by
  exact (Prod.mk.inj (List.inj_on_of_nodup_map (attributes_nodup hdoc hn) h h' rfl)).2

/-- A node is told by its handle. -/
theorem place_eq_of_handleAt_eq {place place' : NodePlace} {n : Node}
    (hn : doc.node? place = some n) (h : doc.handleAt place = doc.handleAt place') :
    place = place' := by
  have hmem : place ∈ [] :: doc.listing.map Prod.fst :=
    List.mem_cons_of_mem _ (List.mem_map.2 ⟨_, doc.mem_listing_iff.2 hn, rfl⟩)
  exact (List.idxOf_inj hmem).1 (congrArg Handle.index h)

end Document

theorem Template.isLive_eq_false {t : Template} (h : ∀ e ∈ t.expressions, e.mode = .implicit) :
    t.isLive = false := by
  rw [isLive, List.any_eq_false]
  intro e he
  simp [Expression.isExplicit, h e he]

/-- Nothing is bound to an attribute without a path that is followed. -/
theorem not_mem_slots_of_implicit {V : Type} {registry : ViewRegistry V} {config : Config}
    {doc : Document} {data : DataSource} {r : Rendered V} (hdoc : doc.NamesDistinct)
    (h : render registry config doc data = .ok r) {place : NodePlace} {n : Node} {name : String}
    {raw : Json} {value : AttributeValue} (hn : doc.node? place = some n)
    (hname : (name, raw) ∈ n.attributes)
    (hvalue : AttributeValue.resolve raw config.palette = .ok value)
    (himplicit : ∀ t, value = .template t → ∀ e ∈ t.expressions, e.mode = .implicit) :
    (doc.handleAt place, name) ∉ r.slots := by
  intro hslot
  obtain ⟨b, hb, hslot⟩ := List.mem_map.1 hslot
  obtain ⟨htarget, hproperty⟩ := Prod.mk.inj hslot
  obtain ⟨place', n', name', raw', hn', hname', hbinds⟩ := (render_binds h).2 b hb
  obtain rfl : name' = name := hbinds.property.symm.trans hproperty
  obtain rfl := doc.place_eq_of_handleAt_eq hn (htarget.symm.trans hbinds.target)
  obtain rfl := Option.some.inj (hn.symm.trans hn')
  obtain rfl := doc.attribute_unique hdoc hn hname hname'
  obtain rfl := Except.ok.inj (hvalue.symm.trans hbinds.resolved)
  have hlive := hbinds.live
  rw [Template.isLive_eq_false (himplicit _ rfl)] at hlive
  cases hlive

/-- **What invalidation may touch.** However a document rendered with the standard
views goes on, all it is made of stays, except for the texts of its bindings and
the properties that these are bound to. A property that is set without a path to
follow, whether to a value, a color or a template that is read once, never
changes. -/
theorem render_run_frame {config : Config} {doc : Document} {data : DataSource}
    {r : Rendered StandardView} (hdoc : doc.NamesDistinct)
    (h : render .standard config doc data = .ok r) (events : List Rendered.Event) :
    Rendered.Alike StandardView.property? r (r.run events) ∧
      ∀ place n name raw value, doc.node? place = some n → (name, raw) ∈ n.attributes →
        AttributeValue.resolve raw config.palette = .ok value →
        (∀ t, value = .template t → ∀ e ∈ t.expressions, e.mode = .implicit) →
        (r.run events).shows StandardView.property? (doc.handleAt place, name) =
          r.shows StandardView.property? (doc.handleAt place, name) := by
  have halike : Rendered.Alike StandardView.property? r (r.run events) :=
    Rendered.run_alike ViewRegistry.standard_orderly ViewRegistry.standard_legible
      (render_inStep ViewRegistry.standard_orderly hdoc h) events
  refine ⟨halike, fun place n name raw value hn hname hvalue himplicit => ?_⟩
  exact halike.unbound _ (not_mem_slots_of_implicit hdoc h hn hname hvalue himplicit)

/-! ### A greeting that is read once -/

/-- The name is read once, the number of lines is followed. -/
def greeting : Document where
  layout := [.mk "UILabel" none
    [("text", .string "Hello #{user}"), ("numberOfLines", .string "#{@bind(lines)}")] []]
  constraints := []

def greetingData (user lines : String) : DataSource :=
  Json.lookup (.object [("user", .string user), ("lines", .string lines)])

/-- Both values change, and both changes are announced. -/
def greetingEvents : List Rendered.Event :=
  [.post "user", .invalidate "object" (greetingData "Bob" "3"),
    .processPending (greetingData "Eve" "2")]

theorem greeting_frame : greeting.NamesDistinct ∧
    ∃ r, render .standard {} greeting (greetingData "Ada" "1") = .ok r ∧
      (r.run greetingEvents).shows StandardView.property? (⟨1⟩, "numberOfLines") =
        some (.whole 3) ∧
      r.shows StandardView.property? (⟨1⟩, "text") = some (.text "Hello Ada") ∧
      Rendered.Alike StandardView.property? r (r.run greetingEvents) ∧
      (r.run greetingEvents).shows StandardView.property? (⟨1⟩, "text") =
        r.shows StandardView.property? (⟨1⟩, "text") := by
  have hdoc : greeting.NamesDistinct := ⟨⟨by decide, trivial⟩, trivial⟩
  have hrun : ((render .standard {} greeting (greetingData "Ada" "1")).map fun r =>
      ((r.run greetingEvents).shows StandardView.property? (⟨1⟩, "numberOfLines"),
        r.shows StandardView.property? (⟨1⟩, "text"))).toOption =
      some (some (.whole 3), some (.text "Hello Ada")) := by decide +kernel
  obtain ⟨r, hr, hfound⟩ := map_eq_ok_iff.1 (toOption_eq_some_iff.1 hrun)
  obtain ⟨hlines, htext⟩ := Prod.mk.inj hfound
  -- the only expression of the text is read once
  have hparse : ((Template.parse "Hello #{user}").map fun t =>
      t.expressions.map Expression.mode).toOption = some [.implicit] := by decide +kernel
  obtain ⟨t, ht, hmodes⟩ := map_eq_ok_iff.1 (toOption_eq_some_iff.1 hparse)
  have hresolve : AttributeValue.resolve (.string "Hello #{user}") ({} : Config).palette =
      .ok (.template t) := map_eq_ok_iff.2 ⟨t, ht, rfl⟩
  have himplicit : ∀ e ∈ t.expressions, e.mode = .implicit := fun e he =>
    List.mem_singleton.1 (hmodes ▸ List.mem_map_of_mem he)
  obtain ⟨halike, hkept⟩ := render_run_frame hdoc hr greetingEvents
  refine ⟨hdoc, r, hr, hlines, htext, halike, ?_⟩
  exact hkept [0] _ "text" _ _ rfl List.mem_cons_self hresolve
    fun t' heq e he => himplicit e (AttributeValue.template.inj heq ▸ he)

end ViewMarkup
