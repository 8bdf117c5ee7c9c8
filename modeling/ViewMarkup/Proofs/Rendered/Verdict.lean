/-
# What becomes of a binding

A binding that is composed anew is given the text that its template composes to,
if the view takes it, and keeps the one it has otherwise. In a document in step
this is decided by the template, the data and the class of the view: neither the
texts of bindings nor the states of views have a say in it. So bindings can be
taken up in any order and any number of times, and none hears of another.

Key definitions: `Rendered.verdict`, `Rendered.answer`, `Rendered.retold`,
`Rendered.Answered`.
Key theorems: `Rendered.verdict_eq_of_alike`, `Rendered.Answered.trans`,
`Rendered.Answered.unique`, `Rendered.refreshAll_answers`,
`Rendered.invalidateAll_answered`.
-/
import ViewMarkup.Proofs.Binding.Dependents
import ViewMarkup.Proofs.Rendered.Alike

namespace ViewMarkup

variable {V S : Type} {look : V → String → Option S}

namespace ViewClass

/-- Views of a class take the same values, and refuse the others for the same
reasons. -/
theorem Legible.set_same {c : ViewClass V} (h : c.Legible look) {v v' : V} (hv : c.Fits v)
    (hv' : c.Fits v') (name : String) (value : PropertyValue) (keyPath : String) :
    (c.set v' name value keyPath).1 = (c.set v name value keyPath).1 := by
  have hanswer := h.answer name value hv' hv
  unfold set
  cases hx : c.apply v name value with
  | mk answer w =>
    cases hx' : c.apply v' name value with
    | mk answer' w' =>
      rw [hx, hx'] at hanswer
      obtain rfl : answer' = answer := hanswer
      rcases answer' with _ | (e | _) <;> rfl

end ViewClass

/-! ### Setting and recording what is there -/

theorem BindingGraph.commit_self {graph : BindingGraph} {id : Nat} {b : Binding}
    (hb : graph.binding? id = some b) : graph.commit id b.composed = graph := by
  have hbindings : graph.bindings.modify id (fun x => { x with composed := b.composed }) =
      graph.bindings := modify_eq_self fun x hx => by
    obtain rfl := Option.some.inj (hx.symm.trans hb)
    rfl
  rw [commit, hbindings]

namespace Rendered

variable {registry : ViewRegistry V} {r r' r'' : Rendered V} {data : DataSource} {id : Nat}
  {b : Binding}

/-- The text that a binding is given, or why it is given none. -/
def verdict (r : Rendered V) (data : DataSource) (id : Nat) (b : Binding) :
    Except MarkupError String := do
  let update ← BindingGraph.recomposeOne r.bindings.root data id b
  (r.display update).1
  return update.value

/-- What is answered for a binding. -/
def answer (r : Rendered V) (data : DataSource) (id : Nat) (b : Binding) :
    Except MarkupError BindingUpdate :=
  (r.verdict data id b).map fun text => ⟨id, b.target, b.property, text, text ≠ b.composed⟩

/-- What is answered for the bindings of these numbers, for each as if it were the
only one. -/
def answers (r : Rendered V) (data : DataSource) (ids : List Nat) :
    List (Except MarkupError BindingUpdate) :=
  ids.filterMap fun id => (r.bindings.binding? id).map (r.answer data id)

/-- The bindings of these numbers, composed anew. -/
def recompositions (r : Rendered V) (data : DataSource) (ids : List Nat) :
    List (Except MarkupError BindingUpdate) :=
  ids.filterMap fun id =>
    (r.bindings.binding? id).map (BindingGraph.recomposeOne r.bindings.root data id)

/-- The binding with the text it is given, if it is given one. -/
def retold (r : Rendered V) (data : DataSource) (id : Nat) (b : Binding) : Binding :=
  match r.verdict data id b with
  | .ok text => { b with composed := text }
  | .error _ => b

theorem display_eq {kind : String} {view : V} {c : ViewClass V} (value : String) (changed : Bool)
    (hb : r.bindings.binding? id = some b) (hf : r.tree.face? b.target = some (kind, view))
    (hc : r.registry.class? kind = some c) :
    r.display ⟨id, b.target, b.property, value, changed⟩ =
      ((c.set view b.property (.text value) b.keyPath).1, { r with
        tree := r.tree.setView b.target (c.set view b.property (.text value) b.keyPath).2 }) := by
  obtain ⟨n, hn, rfl, hv⟩ := ViewTree.face?_eq_some_iff.1 hf
  have hplace : r.placeOf id = b.keyPath := by
    rw [placeOf, hb]
    rfl
  unfold display
  simp only [hn, hc, hv, hplace]

theorem verdict_eq {kind : String} {view : V} {c : ViewClass V} (data : DataSource)
    (hb : r.bindings.binding? id = some b) (hf : r.tree.face? b.target = some (kind, view))
    (hc : r.registry.class? kind = some c) :
    r.verdict data id b =
      match b.template.compose data r.bindings.root with
      | .error e => .error (e.placedAt b.keyPath)
      | .ok text => (c.set view b.property (.text text) b.keyPath).1.map fun _ => text := by
  unfold verdict BindingGraph.recomposeOne
  cases b.template.compose data r.bindings.root with
  | error e => rfl
  | ok text =>
    show ((r.display _).1 >>= fun _ => pure text) =
      (c.set view b.property (.text text) b.keyPath).1.map fun _ => text
    rw [display_eq text _ hb hf hc]
    cases (c.set view b.property (.text text) b.keyPath).1 <;> rfl

/-- The verdict on a binding in step does not depend on how far the document has
gone on, nor on the text that the binding has. -/
theorem verdict_eq_of_alike (hlegible : registry.Legible look) (h : Alike look r r')
    (hr : r.StandsInStep registry) (hr' : r'.StandsInStep registry) (data : DataSource)
    {text : String} (hb : r.bindings.binding? id = some b)
    (hb' : r'.bindings.binding? id = some { b with composed := text }) :
    r'.verdict data id { b with composed := text } = r.verdict data id b := by
  obtain ⟨kind, view, c, hf, hc, hshown⟩ := hr.shown hb
  obtain ⟨view', hf'⟩ := ViewTree.face?_of_skeleton h.skeleton hf
  have hshown' := (hr'.shown hb').apply_eq hf' hc
  rw [verdict_eq data hb hf (hr.1 ▸ hc), verdict_eq data hb' hf' (hr'.1 ▸ hc), h.root]
  cases b.template.compose data r.bindings.root with
  | error e => rfl
  | ok value =>
    have hsame := (hlegible.classes hc).set_same ⟨_, _, _, hshown⟩ ⟨_, _, _, hshown'⟩ b.property
      (.text value) b.keyPath
    exact congrArg (Except.map fun _ => value) hsame

/-! ### Bindings taken up -/

/-- From one document to another the bindings of these numbers have been composed
anew, and nothing else has happened. -/
structure Answered (look : V → String → Option S) (registry : ViewRegistry V) (r : Rendered V)
    (data : DataSource) (ids : List Nat) (r' : Rendered V) : Prop where
  alike : Alike look r r'
  inStep : r'.StandsInStep registry
  inbox : r'.inbox = r.inbox
  told : ∀ id, r'.bindings.binding? id =
    (r.bindings.binding? id).map fun b => if id ∈ ids then r.retold data id b else b

theorem retold_eq (r : Rendered V) (data : DataSource) (id : Nat) (b : Binding) :
    ∃ text, r.retold data id b = { b with composed := text } := by
  unfold retold
  cases r.verdict data id b with
  | error e => exact ⟨b.composed, rfl⟩
  | ok text => exact ⟨text, rfl⟩

/-- The numbers of the bindings that a change at a path concerns. A text that
spells no path concerns none. -/
def concerned (r : Rendered V) (path : String) : List Nat :=
  match r.bindings.dependents path with
  | .ok ids => ids
  | .error _ => []

namespace Answered

variable {ids ids' : List Nat}

theorem nil (hr : r.StandsInStep registry) : Answered look registry r data [] r where
  alike := .refl look r
  inStep := hr
  inbox := rfl
  told id := by simp

/-! #### The others -/

theorem binding?_of_not_mem (h : Answered look registry r data ids r') (hid : id ∉ ids) :
    r'.bindings.binding? id = r.bindings.binding? id := by
  rw [h.told id]
  simp [hid]

/-- Other bindings compose as they would have. -/
theorem recompositions_eq (h : Answered look registry r data ids r')
    (hapart : ∀ id ∈ ids', id ∉ ids) : r'.recompositions data ids' = r.recompositions data ids' :=
  List.filterMap_congr fun id hid => by
    rw [h.binding?_of_not_mem (hapart id hid), h.alike.root]

/-- Other bindings are answered as they would have been. -/
theorem answers_eq (hlegible : registry.Legible look) (hr : r.StandsInStep registry)
    (h : Answered look registry r data ids r') (hapart : ∀ id ∈ ids', id ∉ ids) :
    r'.answers data ids' = r.answers data ids' := by
  refine List.filterMap_congr fun id hid => ?_
  have hsame := h.binding?_of_not_mem (hapart id hid)
  rw [hsame]
  cases hb : r.bindings.binding? id with
  | none => rfl
  | some b =>
    have hverdict := verdict_eq_of_alike hlegible h.alike hr h.inStep data hb (hsame.trans hb)
    rw [Option.map_some, Option.map_some, answer, answer, hverdict]

/-! #### One after the other -/

/-- Bindings that were taken up may be taken up again. -/
theorem trans (hlegible : registry.Legible look) (hr : r.StandsInStep registry)
    (h : Answered look registry r data ids r') (h' : Answered look registry r' data ids' r'') :
    Answered look registry r data (ids ++ ids') r'' where
  alike := h.alike.trans h'.alike
  inStep := h'.inStep
  inbox := h'.inbox.trans h.inbox
  told id := by
    rw [h'.told id]
    cases hb : r.bindings.binding? id with
    | none => rw [h.told id, hb]; rfl
    | some b =>
      obtain ⟨text, htext⟩ := h.alike.binding? hb
      have hverdict := verdict_eq_of_alike hlegible h.alike hr h.inStep data hb htext
      have htold := h.told id
      rw [hb, htext, Option.map_some, Option.some.injEq] at htold
      rw [htext, Option.map_some, Option.map_some, Option.some.injEq]
      have hagain : r'.retold data id { b with composed := text } = r.retold data id b := by
        unfold retold at htold ⊢
        rw [hverdict]
        cases hv : r.verdict data id b with
        | ok value => rfl
        | error e => simpa [hv] using htold
      by_cases hid' : id ∈ ids'
      · rw [if_pos hid', if_pos (List.mem_append_right ids hid'), hagain]
      · have hmem : id ∈ ids ++ ids' ↔ id ∈ ids := by simp [hid']
        rw [if_neg hid', htold]
        simp only [hmem]

/-- What has been taken up decides everything. -/
theorem unique (hlegible : registry.Legible look) (h : Answered look registry r data ids r')
    (h' : Answered look registry r data ids' r'') (hids : ∀ id, id ∈ ids ↔ id ∈ ids') :
    r' = r'' := by
  have hbindings : r'.bindings.bindings = r''.bindings.bindings := by
    apply List.ext_getElem?
    intro id
    calc r'.bindings.bindings[id]? = (r.bindings.binding? id).map fun b =>
          if id ∈ ids then r.retold data id b else b := h.told id
      _ = (r.bindings.binding? id).map fun b =>
          if id ∈ ids' then r.retold data id b else b := by simp only [hids id]
      _ = r''.bindings.bindings[id]? := (h'.told id).symm
  have heq := (h'.alike.symm.trans h.alike).ext_of_bindings hlegible h'.inStep h.inStep hbindings
  rw [heq, h.inbox, ← h'.inbox]

/-- A binding that is given no text. -/
theorem kept (hr : r.StandsInStep registry) (hb : r.bindings.binding? id = some b) {e : MarkupError}
    (hverdict : r.verdict data id b = .error e) : Answered look registry r data [id] r where
  alike := .refl look r
  inStep := hr
  inbox := rfl
  told j := by
    cases hj : r.bindings.binding? j with
    | none => rfl
    | some b' =>
      by_cases hid : j = id
      · subst hid
        obtain rfl := Option.some.inj (hb.symm.trans hj)
        simp [retold, hverdict]
      · simp [hid]

/-- A binding whose text the view takes. -/
theorem given (horderly : registry.Orderly) (hlegible : registry.Legible look)
    (hr : r.StandsInStep registry) (hb : r.bindings.binding? id = some b) {kind text : String}
    {view view' : V} {c : ViewClass V} (hf : r.tree.face? b.target = some (kind, view))
    (hc : registry.class? kind = some c)
    (hset : c.apply view b.property (.text text) = (some (.ok ()), view'))
    (hverdict : r.verdict data id b = .ok text) :
    Answered look registry r data [id] { r with
      tree := r.tree.setView b.target view'
      bindings := r.bindings.commit id text } := by
  obtain ⟨rfl, hs⟩ := hr
  have hslot : (b.target, b.property) ∈ r.slots :=
    List.mem_map.2 ⟨b, List.mem_of_getElem? hb, rfl⟩
  refine ⟨set_alike hlegible hslot hf hc hset id text,
    ⟨rfl, hs.update horderly hb hf hc hset rfl⟩, rfl, fun j => ?_⟩
  rw [BindingGraph.commit_binding?]
  cases hj : r.bindings.binding? j with
  | none => rfl
  | some b' =>
    by_cases hid : id = j
    · subst hid
      obtain rfl := Option.some.inj (hb.symm.trans hj)
      simp [retold, hverdict]
    · simp [hid, Ne.symm hid]

end Answered

/-! ### One binding -/

/-- A text that the view takes is shown and recorded; one that is shown already
might as well be. -/
theorem refresh_of_set (hr : r.StandsInStep registry) (hb : r.bindings.binding? id = some b)
    {kind text : String} {view view' : V} {c : ViewClass V}
    (hf : r.tree.face? b.target = some (kind, view)) (hc : registry.class? kind = some c)
    (hset : c.apply view b.property (.text text) = (some (.ok ()), view')) :
    r.refresh (.ok ⟨id, b.target, b.property, text, text ≠ b.composed⟩) =
      (.ok ⟨id, b.target, b.property, text, text ≠ b.composed⟩, { r with
        tree := r.tree.setView b.target view'
        bindings := r.bindings.commit id text }) := by
  unfold refresh
  by_cases htext : text = b.composed
  · subst htext
    have hshown := (hr.shown hb).apply_eq hf hc
    obtain rfl : view' = view := by
      rw [hset] at hshown
      exact congrArg Prod.snd hshown
    rw [ViewTree.setView_self (ViewTree.view?_of_face? hf), BindingGraph.commit_self hb]
    simp
  · have hchanged : decide (text ≠ b.composed) = true := decide_eq_true htext
    have hdisplay := display_eq text true hb hf (hr.1 ▸ hc)
    simp only [hchanged, if_true, hdisplay, ViewClass.set_eq_ok_iff.2 hset]

section

variable (horderly : registry.Orderly) (hlegible : registry.Legible look)
include horderly hlegible

/-- One recomposed binding is answered, and taken up. -/
theorem refresh_answers (hr : r.StandsInStep registry) (hb : r.bindings.binding? id = some b)
    (data : DataSource) :
    (r.refresh (BindingGraph.recomposeOne r.bindings.root data id b)).1 = r.answer data id b ∧
      Answered look registry r data [id]
        (r.refresh (BindingGraph.recomposeOne r.bindings.root data id b)).2 := by
  obtain ⟨kind, view, c, hf, hc, hshown⟩ := hr.shown hb
  have hverdict := verdict_eq data hb hf (hr.1 ▸ hc)
  unfold answer BindingGraph.recomposeOne
  cases hcompose : b.template.compose data r.bindings.root with
  | error e =>
    simp only [hcompose] at hverdict
    rw [hverdict]
    exact ⟨rfl, .kept hr hb hverdict⟩
  | ok text =>
    simp only [hcompose] at hverdict ⊢
    have hdisplay := display_eq text true hb hf (hr.1 ▸ hc)
    cases hset : c.set view b.property (.text text) b.keyPath with
    | mk answer view' =>
      rw [hset] at hverdict hdisplay
      cases answer with
      | error e =>
        have hne : text ≠ b.composed := by
          rintro rfl
          rw [ViewClass.set_eq_ok_iff.2 hshown] at hset
          cases hset
        have hrefresh : r.refresh (.ok ⟨id, b.target, b.property, text, text ≠ b.composed⟩) =
            (.error e, r) := by
          rw [display_of_refused horderly hr hdisplay] at hdisplay
          unfold refresh
          simp only [ne_eq, hne, not_false_eq_true, decide_true, if_true, hdisplay]
        rw [hverdict, hrefresh]
        exact ⟨rfl, .kept hr hb hverdict⟩
      | ok _ =>
        have hset := ViewClass.set_eq_ok_iff.1 hset
        rw [hverdict, refresh_of_set hr hb hf hc hset]
        exact ⟨rfl, .given horderly hlegible hr hb hf hc hset hverdict⟩

/-! ### One after the other -/

/-- Recomposed bindings, each of them once, are answered as if each were the only
one. -/
theorem refreshAll_answers (data : DataSource) : ∀ (ids : List Nat) {r : Rendered V},
    r.StandsInStep registry → ids.Nodup → (∀ id ∈ ids, ∃ b, r.bindings.binding? id = some b) →
      (r.refreshAll (r.recompositions data ids)).1 = r.answers data ids ∧
        Answered look registry r data ids (r.refreshAll (r.recompositions data ids)).2
  | [], r, hr, _, _ => ⟨rfl, .nil hr⟩
  | id :: ids, r, hr, hnodup, hbound => by
    obtain ⟨hid, hrest⟩ := List.nodup_cons.1 hnodup
    obtain ⟨b, hb⟩ := hbound id List.mem_cons_self
    obtain ⟨hanswer, hone⟩ := refresh_answers horderly hlegible hr hb data
    cases hstep : r.refresh (BindingGraph.recomposeOne r.bindings.root data id b) with
    | mk first next =>
      rw [hstep] at hanswer hone
      have hapart : ∀ j ∈ ids, j ∉ [id] := fun j hj hmem => hid (List.mem_singleton.1 hmem ▸ hj)
      have hbound' : ∀ j ∈ ids, ∃ b, next.bindings.binding? j = some b := fun j hj => by
        rw [hone.binding?_of_not_mem (hapart j hj)]
        exact hbound j (List.mem_cons_of_mem _ hj)
      obtain ⟨hresults, hanswered⟩ := refreshAll_answers data ids hone.inStep hrest hbound'
      have hrecomposed : r.recompositions data (id :: ids) =
          BindingGraph.recomposeOne r.bindings.root data id b :: next.recompositions data ids := by
        rw [hone.recompositions_eq hapart, recompositions, List.filterMap_cons, hb]
        rfl
      have hanswers : r.answers data (id :: ids) =
          r.answer data id b :: next.answers data ids := by
        rw [hone.answers_eq hlegible hr hapart, answers, List.filterMap_cons, hb]
        rfl
      rw [hrecomposed, hanswers, refreshAll, hstep]
      constructor
      · show first :: (next.refreshAll _).1 = _
        rw [← hanswer, hresults]
      · exact hone.trans hlegible hr hanswered

/-! ### Announced changes -/

omit horderly hlegible in
theorem invalidate_of_error {path : String} {e : MarkupError}
    (h : r.bindings.dependents path = .error e) (data : DataSource) :
    r.invalidate path data = ([.error e], r) := by
  rw [invalidate, BindingGraph.recompose, h]
  rfl

/-- What a change at a path concerns is answered, each binding as if it were the
only one. -/
theorem invalidate_answers (hr : r.StandsInStep registry) {path : String} {ids : List Nat}
    (h : r.bindings.dependents path = .ok ids) (data : DataSource) :
    (r.invalidate path data).1 = r.answers data ids ∧
      Answered look registry r data ids (r.invalidate path data).2 := by
  obtain ⟨p, -, rfl⟩ := map_eq_ok_iff.1 h
  have hnodup : (r.bindings.dependentsOn (p.relative r.bindings.root)).Nodup :=
    (BindingGraph.dependentsOn_increasing _).imp Nat.ne_of_lt
  rw [invalidate, BindingGraph.recompose, h]
  exact refreshAll_answers horderly hlegible data _ hr hnodup
    fun _ => BindingGraph.binding?_of_mem_dependentsOn

theorem invalidate_answered (hr : r.StandsInStep registry) (path : String) (data : DataSource) :
    Answered look registry r data (r.concerned path) (r.invalidate path data).2 := by
  unfold concerned
  cases h : r.bindings.dependents path with
  | ok ids => exact (invalidate_answers horderly hlegible hr h data).2
  | error e =>
    rw [invalidate_of_error h data]
    exact .nil hr

/-- Changes at several paths take up what any of them concerns. -/
theorem invalidateAll_answered : ∀ (paths : List String) {r : Rendered V},
    r.StandsInStep registry → ∀ data,
      Answered look registry r data (paths.flatMap r.concerned) (r.invalidateAll data paths).2
  | [], r, hr, data => .nil hr
  | path :: paths, r, hr, data => by
    have hfirst := invalidate_answered horderly hlegible hr path data
    have hconcerned : (r.invalidate path data).2.concerned = r.concerned := by
      funext other
      rw [concerned, concerned, hfirst.alike.dependents]
    have hothers := invalidateAll_answered paths hfirst.inStep data
    rw [hconcerned] at hothers
    rw [List.flatMap_cons]
    exact hfirst.trans hlegible hr hothers

/-- The order of the paths does not matter, nor whether one is repeated. -/
theorem invalidateAll_eq_of_mem_iff (hr : r.StandsInStep registry) {paths paths' : List String}
    (h : ∀ path, path ∈ paths ↔ path ∈ paths') (data : DataSource) :
    (r.invalidateAll data paths).2 = (r.invalidateAll data paths').2 := by
  refine (invalidateAll_answered horderly hlegible paths hr data).unique hlegible
    (invalidateAll_answered horderly hlegible paths' hr data) fun id => ?_
  simp only [List.mem_flatMap, h]

end

end Rendered

end ViewMarkup
