/-
# Which specs are accepted

What has to hold for a spec to be resolved can be said of its text, its metrics
and the declared ids alone, one condition for each kind of name and number in
the format. Resolving succeeds exactly if all of them hold. Where the options
fit and it fails, it points at a name, an object or a priority that violates one
of them; a gap between dashes is never at fault.

Key definitions: `SpecContext.Fits`, `SpecContext.Flaw`, `Located.StandsIn`.
Key theorems: `SpecContext.Fits.no_flaw`, `SpecContext.run_blames`,
`SpecContext.fits_of_run`, `resolve_accepts`.
-/
import ViewMarkup.Proofs.Constraint.Closed
import ViewMarkup.Proofs.Constraint.Options
import ViewMarkup.Proofs.Constraint.Row
import ViewMarkup.Proofs.Format.Parts
import ViewMarkup.Proofs.Format.Tiling
import ViewMarkup.Proofs.Numeric.Order

namespace ViewMarkup

/-- The token has its place in the text: it is one of the tokens the text is cut
into, and what its span selects there is a spelling of it. -/
def Located.StandsIn (t : Located Token) (text : String) : Prop :=
  (∃ ts, tokens text = .ok ts ∧ t ∈ ts) ∧ ∃ part, t.span.Selects text part ∧ t.value.Spells part

/-! ### Conditions on a spec -/

def IdTable.parent? (ids : IdTable) (id : String) : Option Handle :=
  (ids.entry? id).map IdEntry.parent

/-- The number is a priority: above 0 and up to 1000. -/
def Binary.IsPriority (x : Double) : Prop := ∃ q : Rat, x.value? = some q ∧ 0 < q ∧ q ≤ 1000

namespace SpecContext

variable (ctx : SpecContext) (f : VisualFormat)

/-- All conditions on the names and numbers of a format. Gaps between dashes have
none. -/
structure Fits : Prop where
  declared : ∀ v ∈ f.views, ctx.ids.contains v.name.value = true
  shared : f.touchesSuperview = true → ∀ v ∈ f.views, ∀ w ∈ f.views,
    ctx.ids.parent? v.name.value = ctx.ids.parent? w.name.value
  gapObjects : ∀ c ∈ f.gapConditions, ∀ name, c.value.object.value = .name name →
    name ∈ ctx.metricNames
  sizeObjects : ∀ c ∈ f.sizeConditions, ∀ name, c.value.object.value = .name name →
    name ∈ ctx.metricNames ∨ ctx.ids.contains name = true
  priorityNames : ∀ p ∈ f.priorities, ∀ name, p.value = .name name → name ∈ ctx.metricNames
  priorityValues : ∀ p ∈ f.priorities, ∀ x, ctx.lexicon.number? p.value = some x → x.IsPriority

/-- A name or a number of a format that violates a condition, as the token it was
read from. -/
inductive Flaw : Located Token → Prop
  | undeclared {v : ViewTerm} (hv : v ∈ f.views) (h : ctx.ids.contains v.name.value = false) :
    Flaw ⟨.name v.name.value, v.name.span⟩
  | unshared {v w : ViewTerm} (htouches : f.touchesSuperview = true) (hv : v ∈ f.views)
    (hw : w ∈ f.views)
    (h : ctx.ids.parent? v.name.value ≠ ctx.ids.parent? w.name.value) :
    Flaw ⟨.name v.name.value, v.name.span⟩
  | gapObject {c : Located Predicate} {name : String} (hc : c ∈ f.gapConditions)
    (hname : c.value.object.value = .name name) (h : name ∉ ctx.metricNames) :
    Flaw ⟨.name name, c.value.object.span⟩
  | sizeObject {c : Located Predicate} {name : String} (hc : c ∈ f.sizeConditions)
    (hname : c.value.object.value = .name name) (h : name ∉ ctx.metricNames)
    (hid : ctx.ids.contains name = false) : Flaw ⟨.name name, c.value.object.span⟩
  | priorityName {p : Located Operand} {name : String} (hp : p ∈ f.priorities)
    (hname : p.value = .name name) (h : name ∉ ctx.metricNames) : Flaw ⟨.name name, p.span⟩
  | priorityValue {p : Located Operand} {x : Double} (hp : p ∈ f.priorities)
    (hx : ctx.lexicon.number? p.value = some x) (h : ¬ x.IsPriority) :
    Flaw ⟨p.value.token, p.span⟩

variable {ctx f}

/-- What fits has no flaw. -/
theorem Fits.no_flaw (h : ctx.Fits f) (t : Located Token) : ¬ ctx.Flaw f t := by
  intro hflaw
  cases hflaw with
  | undeclared hv hid =>
    rw [h.declared _ hv] at hid
    cases hid
  | unshared htouches hv hw hne => exact hne (h.shared htouches _ hv _ hw)
  | gapObject hc hname hmetric => exact hmetric (h.gapObjects _ hc _ hname)
  | sizeObject hc hname hmetric hid =>
    rcases h.sizeObjects _ hc _ hname with hin | hin
    · exact hmetric hin
    · rw [hin] at hid
      cases hid
  | priorityName hp hname hmetric => exact hmetric (h.priorityNames _ hp _ hname)
  | priorityValue hp hx hrange => exact hrange (h.priorityValues _ hp _ hx)

/-- A flaw is one of the tokens of its format. -/
theorem Flaw.mem {t : Located Token} {ts : VisualFormat.Tokens}
    (hspells : VisualFormat.SpellsFormat ts f) (h : ctx.Flaw f t) : t ∈ ts := by
  cases h with
  | undeclared hv => exact hspells.view_name_mem hv
  | unshared _ hv => exact hspells.view_name_mem hv
  | gapObject hc hname => exact hspells.object_mem (List.mem_append_left _ hc) hname
  | sizeObject hc hname => exact hspells.object_mem (List.mem_append_right _ hc) hname
  | priorityName hp hname =>
    have hmem := hspells.priority_mem hp
    rwa [hname] at hmem
  | priorityValue hp => exact hspells.priority_mem hp

end SpecContext

/-! ### Names and numbers -/

namespace SpecContext

variable {ctx : SpecContext} {f : VisualFormat}

/-- The error is about a flaw of the format. -/
def Blames (ctx : SpecContext) (f : VisualFormat) (e : MarkupError) : Prop :=
  ∃ t text names, ctx.Flaw f t ∧
    e = { fault := .malformedFormat ctx.spec.format (some t.span) text names }

theorem Flaw.blames {t : Located Token} (h : ctx.Flaw f t) (text : String) (names : List String) :
    ctx.Blames f ((ctx.fault t.span text).suggesting names) := ⟨t, text, names, h, rfl⟩

theorem mem_metricNames_iff {name : String} :
    name ∈ ctx.metricNames ↔ ∃ x, ctx.metric? name = some x := by
  rw [metricNames, metric?, ← Option.isSome_iff_exists, List.lookup_isSome_iff]
  simp

theorem metric?_eq_none_iff {name : String} :
    ctx.metric? name = none ↔ name ∉ ctx.metricNames := by
  rw [mem_metricNames_iff, ← Option.isSome_iff_exists, Option.not_isSome_iff_eq_none]

theorem mem_metricNames_of_number {operand : Located Operand} {x : Double} {name : String}
    (h : ctx.number operand = .ok x) (hname : operand.value = .name name) :
    name ∈ ctx.metricNames := by
  have hx := number_eq_ok_iff.1 h
  rw [hname] at hx
  exact mem_metricNames_iff.2 ⟨x, hx⟩

/-- A name that is no metric is a flaw, wherever a number has to be known. -/
theorem number_blames {operand : Located Operand}
    (hflaw : ∀ name, operand.value = .name name → name ∉ ctx.metricNames →
      ctx.Flaw f ⟨.name name, operand.span⟩) : FailsWith (ctx.Blames f) (ctx.number operand) := by
  unfold number
  split
  · exact .ok _
  · rename_i name hname
    split
    · exact .ok _
    · rename_i hnone
      exact .error ((hflaw name hname (metric?_eq_none_iff.1 hnone)).blames _ _)

theorem isPriority_iff (x : Double) : (Binary.lt 0 x && x.le 1000) = true ↔ x.IsPriority :=
  Binary.within_iff value?_zero (by decide +kernel)

theorem mem_priorities {c : Located Predicate} {p : Located Operand}
    (hc : c ∈ f.conditions) (hp : c.value.priority = some p) :
    p ∈ f.priorities := List.mem_filterMap.2 ⟨c, hc, hp⟩

theorem priority_blames {c : Located Predicate} (hc : c ∈ f.conditions) :
    FailsWith (ctx.Blames f) (ctx.priority c.value.priority) := by
  cases hp : c.value.priority with
  | none => exact .ok _
  | some operand =>
    have hmem := mem_priorities hc hp
    intro e he
    rcases bind_eq_error_iff.1 he with he | ⟨x, hx, he⟩
    · exact number_blames (fun name hname hnot => .priorityName hmem hname hnot) e he
    · split at he
      · cases he
      · rename_i hbounds
        cases he
        have hflaw : ctx.Flaw f ⟨operand.value.token, operand.span⟩ :=
          .priorityValue hmem (number_eq_ok_iff.1 hx) (mt (isPriority_iff x).2 hbounds)
        exact hflaw.blames _ []

/-- What is read as a priority is known and within the bounds. -/
theorem fits_of_priority {operand : Located Operand} {q : Priority}
    (h : ctx.priority (some operand) = .ok q) :
    (∀ name, operand.value = .name name → name ∈ ctx.metricNames) ∧
      ∀ x, ctx.lexicon.number? operand.value = some x → x.IsPriority := by
  obtain ⟨x, hx, h⟩ := bind_eq_ok_iff.1 h
  refine ⟨fun name hname => mem_metricNames_of_number hx hname, fun y hy => ?_⟩
  obtain rfl : x = y := Option.some.inj ((number_eq_ok_iff.1 hx).symm.trans hy)
  split at h
  · rename_i hbounds
    exact (isPriority_iff x).1 hbounds
  · cases h

/-! ### Gaps and sizes -/

theorem gapOf_blames {c : Located Predicate} (hc : c ∈ f.gapConditions) :
    FailsWith (ctx.Blames f) (ctx.gapOf c) := by
  refine .bind (number_blames fun name hname hnot => .gapObject hc hname hnot) fun size => ?_
  exact .bind (priority_blames (List.mem_append_left _ hc)) fun p => .ok _

theorem connect_blames {flow : Flow} {earlier later : Item} {connection : Connection}
    (hc : connection ∈ f.connections) :
    FailsWith (ctx.Blames f) (ctx.connect flow earlier later connection) := by
  refine .bind ?_ fun gaps => .ok _
  cases connection with
  | flush => exact .ok _
  | standard => exact .ok _
  | spacer operand => exact .ok _
  | predicates conditions =>
    exact .mapM fun c hmem => gapOf_blames (List.mem_flatMap.2 ⟨_, hc, hmem⟩)

theorem size_blames {axis : Axis} {view : ViewTerm} {c : Located Predicate}
    (hc : c ∈ f.sizeConditions) : FailsWith (ctx.Blames f) (ctx.size axis view c) := by
  refine .bind (priority_blames (List.mem_append_right _ hc)) fun p => ?_
  split
  · exact .ok _
  · rename_i name hname
    split
    · exact .ok _
    · rename_i hnone
      split
      · exact .ok _
      · rename_i hid
        have hflaw : ctx.Flaw f ⟨.name name, c.value.object.span⟩ :=
          .sizeObject hc hname (metric?_eq_none_iff.1 hnone) (Bool.not_eq_true _ ▸ hid)
        exact .error (hflaw.blames _ _)

theorem sizes_blames {axis : Axis} {view : ViewTerm} (hv : view ∈ f.views) :
    FailsWith (ctx.Blames f) (ctx.sizes axis view) :=
  .mapM fun _ hc => size_blames (List.mem_flatMap.2 ⟨view, hv, hc⟩)

/-! ### Whole formats -/

/-- What names are checked against: the first of them and its superview. -/
theorem checkViews_blames {touches : Bool} (htouches : touches = true → f.touchesSuperview = true)
    {names : List (Located String)} {shared : Option (String × Handle)}
    (hnames : ∀ name ∈ names, ∃ v ∈ f.views, v.name = name)
    (hshared : ∀ first ∈ shared, ∃ w ∈ f.views, ctx.ids.parent? w.name.value = some first.2) :
    FailsWith (ctx.Blames f) (ctx.checkViews touches shared names) := by
  induction names generalizing shared with
  | nil => exact .ok _
  | cons name rest ih =>
    obtain ⟨⟨v, hv, rfl⟩, hrest⟩ := List.forall_mem_cons.1 hnames
    rw [checkViews]
    split
    · rename_i hnone
      have hflaw : ctx.Flaw f ⟨.name v.name.value, v.name.span⟩ := .undeclared hv (by
        rw [IdTable.contains, hnone]
        rfl)
      exact .error (hflaw.blames _ _)
    · rename_i entry hentry
      have hparent : ctx.ids.parent? v.name.value = some entry.parent := by
        rw [IdTable.parent?, hentry]
        rfl
      split
      · exact ih hrest fun first hfirst => absurd hfirst (Option.not_mem_none first)
      · rename_i htouch
        split
        · refine ih hrest fun first hfirst => ?_
          cases hfirst
          exact ⟨v, hv, hparent⟩
        · rename_i first parent
          split
          · exact ih hrest hshared
          · rename_i hne
            obtain ⟨w, hw, hfirst⟩ := hshared _ rfl
            have hflaw : ctx.Flaw f ⟨.name v.name.value, v.name.span⟩ := by
              refine .unshared (htouches (by simpa using htouch)) hv hw fun heq => hne ?_
              rw [hparent, hfirst] at heq
              exact (Option.some.inj heq).symm
            exact .error (hflaw.blames _ [])

theorem part_blames {axis : Axis} {flow : Flow} {part : RowPart} (h : part ∈ f.row) :
    FailsWith (ctx.Blames f) (ctx.part axis flow part) := by
  cases part with
  | view v => exact sizes_blames (VisualFormat.view_mem_row_iff.1 h)
  | connection earlier later c =>
    exact connect_blames (VisualFormat.connection_mem_row_iff.1 ⟨earlier, later, h⟩)

theorem run_blames (flow : Flow) (alignments : List Anchor) :
    FailsWith (ctx.Blames f) (ctx.run flow f alignments) := by
  rw [run_eq]
  exact .map (.mapM fun part hpart => part_blames hpart) _

/-- Where a format can be resolved, so can every size and every connection. -/
theorem run_parts {flow : Flow} {alignments : List Anchor} {ds : List Descriptor}
    (h : ctx.run flow f alignments = .ok ds) :
    (∀ v ∈ f.views, ∃ own, ctx.sizes f.axis v = .ok own) ∧
      ∀ c ∈ f.connections, ∃ earlier later own, ctx.connect flow earlier later c = .ok own := by
  obtain ⟨owns, howns, -⟩ := run_eq_ok_iff.1 h
  refine ⟨fun v hv => ?_, fun c hc => ?_⟩
  · obtain ⟨own, -, hown⟩ := exists_mem_zip howns (VisualFormat.view_mem_row_iff.2 hv)
    exact ⟨own, hown⟩
  · obtain ⟨earlier, later, hmem⟩ := VisualFormat.connection_mem_row_iff.2 hc
    obtain ⟨own, -, hown⟩ := exists_mem_zip howns hmem
    exact ⟨earlier, later, own, hown⟩

/-- What each condition of a gap needs. -/
theorem gapOf_of_connect {flow : Flow} {earlier later : Item} {connection : Connection}
    {own : List Descriptor} (h : ctx.connect flow earlier later connection = .ok own) :
    ∀ c ∈ connection.conditions, ∃ gap, ctx.gapOf c = .ok gap := by
  obtain ⟨gaps, hgaps, -⟩ := bind_eq_ok_iff.1 h
  cases connection with
  | predicates conditions =>
    intro c hc
    obtain ⟨gap, -, hgap⟩ := exists_mem_zip (mapM_eq_ok_iff.1 hgaps) hc
    exact ⟨gap, hgap⟩
  | _ => exact fun c hc => absurd hc List.not_mem_nil

theorem contains_of_size {axis : Axis} {view : ViewTerm} {c : Located Predicate} {d : Descriptor}
    {name : String} (hname : c.value.object.value = .name name) (h : ctx.size axis view c = .ok d) :
    name ∈ ctx.metricNames ∨ ctx.ids.contains name = true := by
  obtain ⟨p, -, h⟩ := bind_eq_ok_iff.1 h
  simp only [hname] at h
  split at h
  · rename_i x hx
    exact .inl (mem_metricNames_iff.2 ⟨x, hx⟩)
  · split at h
    · rename_i hid
      exact .inr hid
    · cases h

/-- **Resolving succeeds only for formats that fit.** -/
theorem fits_of_run {flow : Flow} {alignments : List Anchor} {ds : List Descriptor}
    (hcheck : ctx.checkViews f.touchesSuperview none (f.views.map ViewTerm.name) = .ok ())
    (hrun : ctx.run flow f alignments = .ok ds) : ctx.Fits f := by
  obtain ⟨hviews, hconnections⟩ := run_parts hrun
  have hgap : ∀ c ∈ f.gapConditions, ∃ gap, ctx.gapOf c = .ok gap := by
    intro c hc
    obtain ⟨connection, hconnection, hc⟩ := List.mem_flatMap.1 hc
    obtain ⟨_, _, own, hown⟩ := hconnections connection hconnection
    exact gapOf_of_connect hown c hc
  have hsize : ∀ c ∈ f.sizeConditions, ∃ v d, ctx.size f.axis v c = .ok d := by
    intro c hc
    obtain ⟨v, hv, hc⟩ := List.mem_flatMap.1 hc
    obtain ⟨own, hown⟩ := hviews v hv
    obtain ⟨d, -, hd⟩ := exists_mem_zip (mapM_eq_ok_iff.1 hown) hc
    exact ⟨v, d, hd⟩
  have hpriority : ∀ p ∈ f.priorities, ∃ q, ctx.priority (some p) = .ok q := by
    intro p hp
    obtain ⟨c, hc, hp⟩ := List.mem_filterMap.1 hp
    rcases List.mem_append.1 hc with hc | hc
    · obtain ⟨gap, hgap⟩ := hgap c hc
      obtain ⟨_, -, h⟩ := bind_eq_ok_iff.1 hgap
      obtain ⟨q, hq, -⟩ := bind_eq_ok_iff.1 h
      exact ⟨q, hp ▸ hq⟩
    · obtain ⟨v, d, hd⟩ := hsize c hc
      obtain ⟨q, hq, -⟩ := bind_eq_ok_iff.1 hd
      exact ⟨q, hp ▸ hq⟩
  refine ⟨fun v hv => ?_, fun htouches v hv w hw => ?_, fun c hc name hname => ?_,
    fun c hc name hname => ?_, fun p hp => ?_, fun p hp => ?_⟩
  · exact contains_of_checkViews hcheck v.name (List.mem_map_of_mem hv)
  · obtain ⟨parent, -, hshared⟩ := shared_of_checkViews htouches hcheck
    have hparent : ∀ v ∈ f.views, ctx.ids.parent? v.name.value = some parent := by
      intro v hv
      obtain ⟨entry, hentry, rfl⟩ := hshared v.name (List.mem_map_of_mem hv)
      rw [IdTable.parent?, hentry]
      rfl
    rw [hparent v hv, hparent w hw]
  · obtain ⟨gap, hgap⟩ := hgap c hc
    obtain ⟨x, hx, -⟩ := bind_eq_ok_iff.1 hgap
    exact mem_metricNames_of_number hx hname
  · obtain ⟨v, d, hd⟩ := hsize c hc
    exact contains_of_size hname hd
  · obtain ⟨q, hq⟩ := hpriority p hp
    exact (fits_of_priority hq).1
  · obtain ⟨q, hq⟩ := hpriority p hp
    exact (fits_of_priority hq).2

end SpecContext

/-! ### Acceptance -/

/-- Of a spec only the metrics matter, once its format is read. -/
theorem SpecContext.fits_congr {spec other : ConstraintSpec} {ids : IdTable}
    {spacing spacing' : Spacing} {f : VisualFormat} (h : other.metrics = spec.metrics) :
    SpecContext.Fits ⟨other, ids, spacing'⟩ f ↔ SpecContext.Fits ⟨spec, ids, spacing⟩ f := by
  obtain ⟨format, options, metrics⟩ := spec
  obtain ⟨format', options', metrics'⟩ := other
  obtain rfl : metrics' = metrics := h
  constructor
  all_goals
    intro hfits
    exact ⟨hfits.declared, hfits.shared, hfits.gapObjects, hfits.sizeObjects,
      hfits.priorityNames, hfits.priorityValues⟩

/-- The gaps between dashes have no part in whether a format fits. -/
theorem SpecContext.fits_withoutSpacers_iff {ctx : SpecContext} {f : VisualFormat} :
    ctx.Fits f.withoutSpacers ↔ ctx.Fits f := by
  have hviews {P : ViewTerm → Prop} :
      (∀ v ∈ f.withoutSpacers.views, P v) ↔ ∀ v ∈ f.views, P v.unplaced := by
    rw [f.views_withoutSpacers, List.forall_mem_map]
  have hgaps {P : Located Predicate → Prop} : (∀ c ∈ f.withoutSpacers.gapConditions, P c) ↔
      ∀ c ∈ f.gapConditions, P (Predicate.unplaced c) := by
    rw [f.gapConditions_withoutSpacers, List.forall_mem_map]
  have hsizes {P : Located Predicate → Prop} : (∀ c ∈ f.withoutSpacers.sizeConditions, P c) ↔
      ∀ c ∈ f.sizeConditions, P (Predicate.unplaced c) := by
    rw [f.sizeConditions_withoutSpacers, List.forall_mem_map]
  have hpriorities {P : Located Operand → Prop} : (∀ p ∈ f.withoutSpacers.priorities, P p) ↔
      ∀ p ∈ f.priorities, P p.unplaced := by
    rw [f.priorities_withoutSpacers, List.forall_mem_map]
  constructor
  · intro h
    refine ⟨hviews.1 h.declared, fun htouches => ?_, hgaps.1 h.gapObjects, hsizes.1 h.sizeObjects,
      hpriorities.1 h.priorityNames, hpriorities.1 h.priorityValues⟩
    have hshared := hviews.1 (h.shared (f.touchesSuperview_withoutSpacers.trans htouches))
    exact fun v hv => hviews.1 (hshared v hv)
  · intro h
    refine ⟨hviews.2 h.declared, fun htouches => hviews.2 fun v hv => hviews.2 ?_,
      hgaps.2 h.gapObjects, hsizes.2 h.sizeObjects, hpriorities.2 h.priorityNames,
      hpriorities.2 h.priorityValues⟩
    exact h.shared (f.touchesSuperview_withoutSpacers.symm.trans htouches) v hv

section

variable {spec : ConstraintSpec} {ids : IdTable} {spacing : Spacing} {f : VisualFormat}

/-- Where text and options are as they should, only the views are checked, and
the clauses resolved. -/
theorem exists_resolve_eq (ids : IdTable) (spacing : Spacing)
    (hparse : VisualFormat.parse spec.format = .ok f)
    (hfit : FormatOptions.Fit spec.options f.axis) :
    ∃ options : FormatOptions, resolve spec ids spacing = (do
      let ctx : SpecContext := ⟨spec, ids, spacing⟩
      ctx.checkViews f.touchesSuperview none (f.views.map ViewTerm.name)
      ctx.run (Flow.of f.axis options.direction) f options.alignments) := by
  have hread : ∃ options, FormatOptions.parse spec.format spec.options = .ok options ∧
      ∀ a ∈ options.alignments, a.axis ≠ f.axis := FormatOptions.parse_ok_iff.2 hfit
  obtain ⟨options, hoptions, hacross⟩ := hread
  have hnone : options.alignments.find? (fun a => a.axis = f.axis) = none := by
    rw [List.find?_eq_none]
    intro a ha
    rw [decide_eq_true_iff]
    exact hacross a ha
  refine ⟨options, ?_⟩
  simp only [resolve, hparse, hoptions, hnone, bind, Except.bind]

theorem resolve_blames (hparse : VisualFormat.parse spec.format = .ok f)
    (hfit : FormatOptions.Fit spec.options f.axis) :
    FailsWith (SpecContext.Blames ⟨spec, ids, spacing⟩ f) (resolve spec ids spacing) := by
  obtain ⟨options, heq⟩ := exists_resolve_eq ids spacing hparse hfit
  rw [heq]
  refine .bind (SpecContext.checkViews_blames id (fun name hname => ?_) fun first hfirst => ?_)
    fun _ => SpecContext.run_blames _ _
  · exact List.mem_map.1 hname
  · exact absurd hfirst (Option.not_mem_none first)

theorem exists_resolve_iff : (∃ ds, resolve spec ids spacing = .ok ds) ↔
    ∃ f, VisualFormat.parse spec.format = .ok f ∧ FormatOptions.Fit spec.options f.axis ∧
      SpecContext.Fits ⟨spec, ids, spacing⟩ f := by
  constructor
  · rintro ⟨ds, h⟩
    obtain ⟨f, hparse, hrest⟩ := bind_eq_ok_iff.1 h
    obtain ⟨options, hoptions, hrest⟩ := bind_eq_ok_iff.1 hrest
    split at hrest
    · cases hrest
    · rename_i hnone
      obtain ⟨_, hcheck, hrun⟩ := bind_eq_ok_iff.1 hrest
      refine ⟨f, hparse, FormatOptions.parse_ok_iff.1 ⟨options, hoptions, fun a ha => ?_⟩,
        SpecContext.fits_of_run hcheck hrun⟩
      have hacross := List.find?_eq_none.1 hnone a ha
      rwa [decide_eq_true_iff] at hacross
  · rintro ⟨f, hparse, hoptions, hfits⟩
    cases h : resolve spec ids spacing with
    | ok ds => exact ⟨ds, rfl⟩
    | error e =>
      obtain ⟨t, -, -, hflaw, -⟩ := resolve_blames hparse hoptions e h
      exact absurd hflaw (hfits.no_flaw t)

end

/-- **Acceptance is exact.** A spec is resolved exactly if its text is spelled as
a format, its options fit the axis, and the names and numbers of the format fit
the metrics and the ids. Where text and options are as they should and it is not
resolved, the error selects the text of a name, an object or a priority that
violates a condition. Neither the gaps between dashes nor the default gaps make
a difference. -/
theorem resolve_accepts (spec : ConstraintSpec) (ids : IdTable) (spacing : Spacing) :
    ((∃ ds, resolve spec ids spacing = .ok ds) ↔
      ∃ ts f, tokens spec.format = .ok ts ∧ VisualFormat.SpellsFormat ts f ∧
        FormatOptions.Fit spec.options f.axis ∧ SpecContext.Fits ⟨spec, ids, spacing⟩ f) ∧
    (∀ f e, VisualFormat.parse spec.format = .ok f → FormatOptions.Fit spec.options f.axis →
      resolve spec ids spacing = .error e →
        ∃ t text names, SpecContext.Flaw ⟨spec, ids, spacing⟩ f t ∧ t.StandsIn spec.format ∧
          e = { fault := .malformedFormat spec.format (some t.span) text names }) ∧
    ∀ (other : ConstraintSpec) (spacing' : Spacing) (f g : VisualFormat),
      other.metrics = spec.metrics → other.options = spec.options →
      VisualFormat.parse spec.format = .ok f → VisualFormat.parse other.format = .ok g →
      g.withoutSpacers = f.withoutSpacers →
        ((∃ ds, resolve other ids spacing' = .ok ds) ↔ ∃ ds, resolve spec ids spacing = .ok ds) := by
  refine ⟨?_, fun f e hparse hoptions h => ?_,
    fun other spacing' f g hmetrics hoptions hf hg hsame => ?_⟩
  · rw [exists_resolve_iff]
    constructor
    · rintro ⟨f, hparse, hfit⟩
      obtain ⟨ts, hts, hspells⟩ := VisualFormat.parse_eq_ok_iff.1 hparse
      exact ⟨ts, f, hts, hspells, hfit⟩
    · rintro ⟨ts, f, hts, hspells, hfit⟩
      exact ⟨f, VisualFormat.parse_eq_ok_iff.2 ⟨ts, hts, hspells⟩, hfit⟩
  · obtain ⟨ts, hts, hspells⟩ := VisualFormat.parse_eq_ok_iff.1 hparse
    obtain ⟨t, text, names, hflaw, rfl⟩ := resolve_blames hparse hoptions e h
    have hmem := hflaw.mem hspells
    exact ⟨t, text, names, hflaw, ⟨⟨ts, hts, hmem⟩, tokens_select hts hmem⟩, rfl⟩
  · have haxis : g.axis = f.axis := by
      show g.withoutSpacers.axis = f.withoutSpacers.axis
      rw [hsame]
    have hfits : SpecContext.Fits ⟨other, ids, spacing'⟩ g ↔
        SpecContext.Fits ⟨spec, ids, spacing⟩ f := by
      rw [← SpecContext.fits_withoutSpacers_iff, hsame, SpecContext.fits_withoutSpacers_iff]
      exact SpecContext.fits_congr hmetrics
    have hone {spec : ConstraintSpec} {spacing : Spacing} {f : VisualFormat}
        (hf : VisualFormat.parse spec.format = .ok f) : (∃ ds, resolve spec ids spacing = .ok ds) ↔
          FormatOptions.Fit spec.options f.axis ∧ SpecContext.Fits ⟨spec, ids, spacing⟩ f := by
      rw [exists_resolve_iff, hf]
      simp
    rw [hone hf, hone hg, hoptions, haxis, hfits]

/-- There is no metric `nowhere`, and 1200 is no priority. -/
def loftySpec : ConstraintSpec where
  format := "|-nowhere-[ok(==cancel@high)]-(>=edge@1200)-[cancel]-|"
  options := ["alignAllCenterY", "NSLayoutFormatDirectionRightToLeft"]
  metrics := [("edge", 12), ("high", 750)]

def plainSpec : ConstraintSpec :=
  { loftySpec with format := "|-nowhere-[ok(==cancel@high)]-(>=edge@120)-[cancel]-|" }

def roomySpec : ConstraintSpec :=
  { loftySpec with format := "|-elsewhere-[ok(==cancel@high)]-(>=edge@120)-[cancel]-|" }

/-- The spec is refused for its priority, and accepted with a smaller one, however
the gap is named. -/
theorem loftySpec_refused :
    (∃ f t text names, VisualFormat.parse loftySpec.format = .ok f ∧
      SpecContext.Flaw ⟨loftySpec, buttonIds, .standard⟩ f t ∧ t.StandsIn loftySpec.format ∧
      t.span = ⟨38, 42⟩ ∧ resolve loftySpec buttonIds .standard =
        .error { fault := .malformedFormat loftySpec.format (some t.span) text names }) ∧
      (∃ ts f, tokens plainSpec.format = .ok ts ∧ VisualFormat.SpellsFormat ts f ∧
        FormatOptions.Fit plainSpec.options f.axis ∧
        SpecContext.Fits ⟨plainSpec, buttonIds, .standard⟩ f) ∧
      ∃ ds, resolve roomySpec buttonIds .standard = .ok ds := by
  have hplain : ∃ ds, resolve plainSpec buttonIds .standard = .ok ds := by
    have hsome : ((resolve plainSpec buttonIds .standard).map List.length).toOption = some 5 := by
      decide +kernel
    obtain ⟨ds, hds, -⟩ := map_eq_ok_iff.1 (toOption_eq_some_iff.1 hsome)
    exact ⟨ds, hds⟩
  refine ⟨?_, (resolve_accepts plainSpec buttonIds .standard).1.1 hplain, ?_⟩
  · have hoptions : FormatOptions.parse loftySpec.format loftySpec.options =
        .ok ⟨[.centerY], .rightToLeft⟩ := by decide +kernel
    have hfit : FormatOptions.Fit loftySpec.options .horizontal :=
      FormatOptions.parse_ok_iff.1 ⟨_, hoptions, by decide⟩
    have haxis : ((VisualFormat.parse loftySpec.format).map VisualFormat.axis).toOption =
        some .horizontal := by decide +kernel
    obtain ⟨f, hparse, hf⟩ := map_eq_ok_iff.1 (toOption_eq_some_iff.1 haxis)
    have hspan : (match resolve loftySpec buttonIds .standard with
        | .error ⟨.malformedFormat _ span _ _, _⟩ => span
        | _ => none) = some ⟨38, 42⟩ := by decide +kernel
    cases h : resolve loftySpec buttonIds .standard with
    | ok ds =>
      rw [h] at hspan
      cases hspan
    | error e =>
      rw [h] at hspan
      obtain ⟨t, text, names, hflaw, hstands, rfl⟩ :=
        (resolve_accepts loftySpec buttonIds .standard).2.1 f e hparse (hf ▸ hfit) h
      exact ⟨f, t, text, names, hparse, hflaw, hstands, Option.some.inj hspan, rfl⟩
  · have hparses : ∃ f g, VisualFormat.parse plainSpec.format = .ok f ∧
        VisualFormat.parse roomySpec.format = .ok g ∧ g.withoutSpacers = f.withoutSpacers := by
      have hsame :
          (match VisualFormat.parse plainSpec.format, VisualFormat.parse roomySpec.format with
          | .ok f, .ok g => decide (g.withoutSpacers = f.withoutSpacers)
          | _, _ => false) = true := by decide +kernel
      split at hsame
      · rename_i f g hf hg
        exact ⟨f, g, hf, hg, of_decide_eq_true hsame⟩
      · cases hsame
    obtain ⟨f, g, hf, hg, hsame⟩ := hparses
    exact ((resolve_accepts plainSpec buttonIds .standard).2.2 roomySpec .standard f g rfl rfl hf hg
      hsame).2 hplain

end ViewMarkup
