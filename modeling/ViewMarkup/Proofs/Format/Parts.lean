/-
# The parts of a format among its tokens

A format has views, connections, conditions on gaps and on sizes, and
priorities. Each of them is spelled by some of the tokens of the format; names
of views, names in conditions and priorities are single tokens, whose places are
those of the parts.

Key definitions: `VisualFormat.gapConditions`, `VisualFormat.sizeConditions`,
`VisualFormat.priorities`, `Operand.token`.
Key theorems: `SpellsFormat.view_name_mem`, `SpellsFormat.object_mem`,
`SpellsFormat.priority_mem`.
-/
import ViewMarkup.Proofs.Format.Writing

namespace ViewMarkup

/-- The conditions between the parentheses of a connection. -/
def Connection.conditions : Connection → List (Located Predicate)
  | .predicates conditions => conditions
  | _ => []

def Operand.token : Operand → Token
  | .number x => .number x
  | .name n => .name n

namespace VisualFormat

variable (f : VisualFormat)

/-- The conditions on gaps, of all connections. -/
def gapConditions : List (Located Predicate) := f.connections.flatMap Connection.conditions

/-- The conditions on sizes, of all views. -/
def sizeConditions : List (Located Predicate) := f.views.flatMap ViewTerm.predicates

def conditions : List (Located Predicate) := f.gapConditions ++ f.sizeConditions

/-- What is written after priority marks. -/
def priorities : List (Located Operand) := f.conditions.filterMap fun c => c.value.priority

variable {f}

/-! ### Single tokens -/

theorem SpellsSimple.mem {ts : Tokens} {o : Located Operand} (h : SpellsSimple ts o) :
    ⟨o.value.token, o.span⟩ ∈ ts := by
  cases h <;> exact List.mem_singleton_self _

/-- A name is one token; a number may have a dash before it. -/
theorem SpellsOperand.name_mem {ts : Tokens} {o : Located Operand} {name : String}
    (h : SpellsOperand ts o) (hname : o.value = .name name) : ⟨.name name, o.span⟩ ∈ ts := by
  cases h with
  | simple h =>
    have hmem := h.mem
    rwa [hname] at hmem
  | negative dash x span => cases hname

theorem SpellsPredicate.object_mem {ts : Tokens} {c : Located Predicate} {name : String}
    (h : SpellsPredicate ts c) (hname : c.value.object.value = .name name) :
    ⟨.name name, c.value.object.span⟩ ∈ ts := by
  obtain ⟨hr, ho, hp⟩ := h
  exact List.mem_append_left _ (List.mem_append_right _ (ho.name_mem hname))

theorem SpellsPredicate.priority_mem {ts : Tokens} {c : Located Predicate} {p : Located Operand}
    (h : SpellsPredicate ts c) (hp : c.value.priority = some p) :
    ⟨p.value.token, p.span⟩ ∈ ts := by
  obtain ⟨hr, ho, hpriority⟩ := h
  refine List.mem_append_right _ ?_
  cases hpriority with
  | unwritten => cases hp
  | written mark h =>
    cases hp
    exact List.mem_cons_of_mem _ h.mem

theorem SpellsView.name_mem {ts : Tokens} {v : ViewTerm} (h : SpellsView ts v) :
    ⟨.name v.name.value, v.name.span⟩ ∈ ts := by
  cases h <;> exact List.mem_cons_of_mem _ List.mem_cons_self

/-! ### Parts of several tokens -/

theorem SpellsPredicates.part {ts : Tokens} {ps : List (Located Predicate)}
    (h : SpellsPredicates ts ps) : ∀ c ∈ ps, ∃ us, us ⊆ ts ∧ SpellsPredicate us c := by
  induction h with
  | one h =>
    intro c hc
    rw [List.mem_singleton.1 hc]
    exact ⟨_, List.Subset.refl _, h⟩
  | more comma h _ ih =>
    refine List.forall_mem_cons.2 ⟨⟨_, List.subset_append_left _ _, h⟩, fun c hc => ?_⟩
    obtain ⟨us, hus, hspells⟩ := ih c hc
    exact ⟨us, fun t ht => by simp [hus ht], hspells⟩

theorem SpellsConnection.part {ts : Tokens} {c : Connection} (h : SpellsConnection ts c) :
    ∀ p ∈ c.conditions, ∃ us, us ⊆ ts ∧ SpellsPredicate us p := by
  cases h with
  | predicates dash opening closing dash' h =>
    intro p hp
    obtain ⟨us, hus, hspells⟩ := h.part p hp
    exact ⟨us, fun t ht => by simp [hus ht], hspells⟩
  | _ => exact fun p hp => absurd hp List.not_mem_nil

theorem SpellsView.part {ts : Tokens} {v : ViewTerm} (h : SpellsView ts v) :
    ∀ p ∈ v.predicates, ∃ us, us ⊆ ts ∧ SpellsPredicate us p := by
  cases h with
  | plain => exact fun p hp => absurd hp List.not_mem_nil
  | sized opening n span o c closing h =>
    intro p hp
    obtain ⟨us, hus, hspells⟩ := h.part p hp
    exact ⟨us, fun t ht => by simp [hus ht], hspells⟩

theorem SpellsSteps.part {ts : Tokens} {steps : List (Connection × ViewTerm)}
    (h : SpellsSteps ts steps) : ∀ step ∈ steps,
      (∃ us, us ⊆ ts ∧ SpellsConnection us step.1) ∧ ∃ us, us ⊆ ts ∧ SpellsView us step.2 := by
  induction h with
  | nil => exact fun step hstep => absurd hstep List.not_mem_nil
  | cons hc hv _ ih =>
    refine List.forall_mem_cons.2 ⟨⟨⟨_, fun t ht => ?_, hc⟩, _, fun t ht => ?_, hv⟩, ?_⟩
    · simp [ht]
    · simp [ht]
    · intro step hstep
      obtain ⟨⟨cs, hcs, hconnection⟩, vs, hvs, hview⟩ := ih step hstep
      exact ⟨⟨cs, fun t ht => by simp [hcs ht], hconnection⟩,
        vs, fun t ht => by simp [hvs ht], hview⟩

theorem SpellsFormat.view_part {ts : Tokens} (h : SpellsFormat ts f) :
    ∀ v ∈ f.views, ∃ us, us ⊆ ts ∧ SpellsView us v := by
  obtain ⟨_, _, hv, hs, _⟩ := h
  refine List.forall_mem_cons.2 ⟨⟨_, fun t ht => by simp [ht], hv⟩, fun v hmem => ?_⟩
  obtain ⟨step, hstep, rfl⟩ := List.mem_map.1 hmem
  obtain ⟨us, hus, hview⟩ := (hs.part step hstep).2
  exact ⟨us, fun t ht => by simp [hus ht], hview⟩

theorem SpellsFormat.connection_part {ts : Tokens} (h : SpellsFormat ts f) :
    ∀ c ∈ f.connections, ∃ us, us ⊆ ts ∧ SpellsConnection us c := by
  obtain ⟨_, hl, _, hs, ht⟩ := h
  intro c hmem
  rcases List.mem_append.1 hmem with hmem | hmem
  · rcases List.mem_append.1 hmem with hmem | hmem
    · cases hl with
      | none => cases hmem
      | some pipe hc =>
        rw [List.mem_singleton.1 hmem]
        exact ⟨_, fun t ht => by simp [ht], hc⟩
    · obtain ⟨step, hstep, rfl⟩ := List.mem_map.1 hmem
      obtain ⟨us, hus, hconnection⟩ := (hs.part step hstep).1
      exact ⟨us, fun t ht => by simp [hus ht], hconnection⟩
  · cases ht with
    | none => cases hmem
    | some pipe hc =>
      rw [List.mem_singleton.1 hmem]
      exact ⟨_, fun t ht => by simp [ht], hc⟩

/-- Some of the tokens of a format spell each condition. -/
theorem SpellsFormat.condition_part {ts : Tokens} (h : SpellsFormat ts f) :
    ∀ c ∈ f.conditions, ∃ us, us ⊆ ts ∧ SpellsPredicate us c := by
  intro c hc
  rcases List.mem_append.1 hc with hc | hc
  · obtain ⟨connection, hconnection, hc⟩ := List.mem_flatMap.1 hc
    obtain ⟨us, hus, hspells⟩ := h.connection_part connection hconnection
    obtain ⟨vs, hvs, hpart⟩ := hspells.part c hc
    exact ⟨vs, List.Subset.trans hvs hus, hpart⟩
  · obtain ⟨v, hv, hc⟩ := List.mem_flatMap.1 hc
    obtain ⟨us, hus, hspells⟩ := h.view_part v hv
    obtain ⟨vs, hvs, hpart⟩ := hspells.part c hc
    exact ⟨vs, List.Subset.trans hvs hus, hpart⟩

/-! ### Places -/

/-- The names in brackets are tokens of the format. -/
theorem SpellsFormat.view_name_mem {ts : Tokens} (h : SpellsFormat ts f) {v : ViewTerm}
    (hv : v ∈ f.views) : ⟨.name v.name.value, v.name.span⟩ ∈ ts := by
  obtain ⟨us, hus, hview⟩ := h.view_part v hv
  exact hus hview.name_mem

/-- The names that conditions relate to are tokens of the format. -/
theorem SpellsFormat.object_mem {ts : Tokens} (h : SpellsFormat ts f) {c : Located Predicate}
    (hc : c ∈ f.conditions) {name : String} (hname : c.value.object.value = .name name) :
    ⟨.name name, c.value.object.span⟩ ∈ ts := by
  obtain ⟨us, hus, hspells⟩ := h.condition_part c hc
  exact hus (hspells.object_mem hname)

/-- Priorities are tokens of the format. -/
theorem SpellsFormat.priority_mem {ts : Tokens} (h : SpellsFormat ts f) {p : Located Operand}
    (hp : p ∈ f.priorities) : ⟨p.value.token, p.span⟩ ∈ ts := by
  obtain ⟨c, hc, hp⟩ := List.mem_filterMap.1 hp
  obtain ⟨us, hus, hspells⟩ := h.condition_part c hc
  exact hus (hspells.priority_mem hp)

end VisualFormat

/-- A text is read as the format that its tokens spell. -/
theorem VisualFormat.parse_eq_ok_iff {format : String} {f : VisualFormat} :
    parse format = .ok f ↔ ∃ ts, tokens format = .ok ts ∧ SpellsFormat ts f := by
  unfold parse
  cases htokens : tokens format with
  | error span => simp
  | ok ts =>
    have hread : (∃ us, (Except.ok ts : Except Span Tokens) = .ok us ∧ SpellsFormat us f) ↔
        ofTokens ts = .ok f := by
      rw [ofTokens_eq_ok_iff]
      simp
    rw [hread]
    cases ts with
    | nil =>
      refine ⟨nofun, fun h => ?_⟩
      have hmem := (ofTokens_eq_ok_iff.1 h).view_name_mem List.mem_cons_self
      cases hmem
    | cons t ts =>
      dsimp only
      cases ofTokens (t :: ts) <;> simp

/-! ### Formats but for their spacers -/

def Connection.withoutSpacer : Connection → Connection
  | .spacer _ => .standard
  | c => c

namespace VisualFormat

/-- The format with a bare dash for every gap between dashes, and with the places
of its parts forgotten. -/
def withoutSpacers (f : VisualFormat) : VisualFormat where
  axis := f.axis
  leading := f.leading.map fun c => c.unplaced.withoutSpacer
  first := f.first.unplaced
  rest := f.rest.map fun step => (step.1.unplaced.withoutSpacer, step.2.unplaced)
  trailing := f.trailing.map fun c => c.unplaced.withoutSpacer

variable (f : VisualFormat)

theorem views_withoutSpacers : f.withoutSpacers.views = f.views.map ViewTerm.unplaced := by
  simp [withoutSpacers, views, Function.comp_def]

theorem connections_withoutSpacers :
    f.withoutSpacers.connections = f.connections.map fun c => c.unplaced.withoutSpacer := by
  cases hl : f.leading <;> cases ht : f.trailing <;>
    simp [withoutSpacers, connections, gaps, hl, ht, Function.comp_def]

theorem gapConditions_withoutSpacers :
    f.withoutSpacers.gapConditions = f.gapConditions.map Predicate.unplaced := by
  have hconditions : ∀ c : Connection,
      c.unplaced.withoutSpacer.conditions = c.conditions.map Predicate.unplaced := by
    intro c
    cases c <;> rfl
  rw [gapConditions, gapConditions, connections_withoutSpacers, List.flatMap_map, List.map_flatMap]
  simp only [hconditions]

theorem sizeConditions_withoutSpacers :
    f.withoutSpacers.sizeConditions = f.sizeConditions.map Predicate.unplaced := by
  rw [sizeConditions, sizeConditions, views_withoutSpacers, List.flatMap_map, List.map_flatMap]
  rfl

theorem priorities_withoutSpacers :
    f.withoutSpacers.priorities = f.priorities.map Located.unplaced := by
  rw [priorities, priorities, conditions, conditions, gapConditions_withoutSpacers,
    sizeConditions_withoutSpacers, ← List.map_append, List.filterMap_map, List.map_filterMap]
  rfl

theorem touchesSuperview_withoutSpacers :
    f.withoutSpacers.touchesSuperview = f.touchesSuperview := by
  simp [touchesSuperview, withoutSpacers]

end VisualFormat

end ViewMarkup
