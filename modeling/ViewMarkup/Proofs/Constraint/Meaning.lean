/-
# What a format says

A format is a row of clauses, each with a meaning of its own: a connection says
how far apart two items are along the course of the format, a condition on a
view says how long the view is along it, an alignment says that two neighbours
agree in an anchor. Distances are measured the way the format runs, from where
the earlier item ends to where the later one begins; only the superview is
entered where it begins and left where it ends.

The descriptors of a spec are its clauses, one for one and in order: each holds
of the same placements as its clause and has the priority that is written there
(`resolve_means`).

Key definitions: `Course`, `Clause`, `Clause.Holds`, `VisualFormat.clauses`,
`Descriptor.Means`.
Key theorems: `Course.between_holds_iff`, `SpecContext.connect_means`,
`SpecContext.sizes_means`, `SpecContext.run_means`, `resolve_means`.
-/
import ViewMarkup.Proofs.Constraint.Placement
import ViewMarkup.Proofs.Constraint.Row

namespace ViewMarkup

/-! ### The way a format runs -/

inductive Course
  | rightwards
  | leftwards
  | downwards

namespace Course

def of : Axis → Direction → Course
  | .vertical, _ => downwards
  | .horizontal, .rightToLeft => leftwards
  | .horizontal, _ => rightwards

/-- How far along the course a frame begins. -/
def near : Course → Frame → Rat
  | rightwards, frame => frame.x
  | leftwards, frame => -(frame.x + frame.width)
  | downwards, frame => frame.y

/-- How far along the course a frame ends. -/
def far : Course → Frame → Rat
  | rightwards, frame => frame.x + frame.width
  | leftwards, frame => -frame.x
  | downwards, frame => frame.y + frame.height

/-- How long a frame is along the course. -/
def extent (course : Course) (frame : Frame) : Rat := course.far frame - course.near frame

/-- Where the way to the next item starts. -/
def leaves (course : Course) (placement : Placement) : Item → Rat
  | .superview => course.near placement.superview
  | .view id => course.far (placement.view id)

/-- Where the way from the item before ends. -/
def reaches (course : Course) (placement : Placement) : Item → Rat
  | .superview => course.far placement.superview
  | .view id => course.near (placement.view id)

/-- The distance from an earlier item to a later one. -/
def gap (course : Course) (placement : Placement) (earlier later : Item) : Rat :=
  course.reaches placement later - course.leaves placement earlier

end Course

/-! ### Clauses -/

/-- What a format says, one statement at a time. -/
inductive Clause
  /-- There is no gap. -/
  | flush (earlier later : Item)
  /-- The gap is the default one. -/
  | standard (earlier later : Item)
  | spacer (earlier later : Item) (operand : Operand)
  | gap (earlier later : Item) (condition : Predicate)
  | size (view : String) (condition : Predicate)
  | aligned (anchor : Anchor) (earlier later : String)

/-- What the names and the dashes of a format stand for. -/
structure Lexicon where
  metrics : List (String × Double)
  spacing : Spacing

namespace Lexicon

variable (lexicon : Lexicon)

/-- A number, or the metric of a name. -/
def number? : Operand → Option Double
  | .number x => some x
  | .name name => lexicon.metrics.lookup name

/-- The gap that is meant where none is given. -/
def default (earlier later : Item) : Double :=
  if earlier = .superview ∨ later = .superview then lexicon.spacing.superview
  else lexicon.spacing.sibling

/-- What the size of a view is compared with: a number, a metric, or the size of
the view of that name. -/
def length? (course : Course) (placement : Placement) : Operand → Option Rat
  | .number x => x.value?
  | .name name =>
    match lexicon.metrics.lookup name with
    | some x => x.value?
    | none => some (course.extent (placement.view name))

/-- What is written, if anything, stands for this priority: a number above 0 and
not above 1000. What has no priority is required. -/
def IsPriority : Option Operand → Priority → Prop
  | none, priority => priority = .required
  | some operand, priority => ∃ x, lexicon.number? operand = some x ∧ Binary.lt 0 x = true ∧
      x.le 1000 = true ∧ priority = x.convert .single

end Lexicon

namespace Clause

/-- The placement is as the clause says. A name in a spacer that is no metric
stands for the default gap. -/
def Holds (lexicon : Lexicon) (course : Course) (placement : Placement) : Clause → Prop
  | flush a b => course.gap placement a b = 0
  | standard a b => ∃ c, (lexicon.default a b).value? = some c ∧ course.gap placement a b = c
  | spacer a b operand =>
    ∃ c, ((lexicon.number? operand).getD (lexicon.default a b)).value? = some c ∧
      course.gap placement a b = c
  | gap a b condition =>
    ∃ c, (lexicon.number? condition.object.value).bind Binary.value? = some c ∧
      condition.relation.Holds (course.gap placement a b) c
  | size view condition =>
    ∃ c, lexicon.length? course placement condition.object.value = some c ∧
      condition.relation.Holds (course.extent (placement.view view)) c
  | aligned anchor a b => (placement.view b).measure anchor = (placement.view a).measure anchor

/-- The priority that is written in the clause. -/
def priority? : Clause → Option Operand
  | gap _ _ condition => condition.priority.map Located.value
  | size _ condition => condition.priority.map Located.value
  | _ => none

/-- What a connection says. -/
def ofConnection (earlier later : Item) : Connection → List Clause
  | .flush => [flush earlier later]
  | .standard => [standard earlier later]
  | .spacer operand => [spacer earlier later operand.value]
  | .predicates conditions => conditions.map fun c => gap earlier later c.value

/-- What the conditions on a view say. -/
def ofView (view : ViewTerm) : List Clause :=
  view.predicates.map fun c => size view.name.value c.value

/-- What a connection and the view after it say. -/
def ofStep (step : ViewTerm × Connection × ViewTerm) : List Clause :=
  ofConnection (.view step.1.name.value) (.view step.2.2.name.value) step.2.1 ++ ofView step.2.2

end Clause

/-- All that a format and its alignments say. -/
def VisualFormat.clauses (format : VisualFormat) (alignments : List Anchor) : List Clause :=
  (format.leading.elim [] (Clause.ofConnection .superview (.view format.first.name.value))) ++
    (Clause.ofView format.first ++ (format.views.zip format.rest).flatMap Clause.ofStep) ++
    (format.trailing.elim []
      (Clause.ofConnection (.view format.lastView.name.value) .superview)) ++
    alignments.flatMap fun anchor => (format.views.zip format.views.tail).map fun (view, next) =>
      .aligned anchor view.name.value next.name.value

/-- The descriptor holds of the same placements as the clause, and is as
important. -/
def Descriptor.Means (lexicon : Lexicon) (course : Course) (clause : Clause) (d : Descriptor) :
    Prop :=
  (∀ placement, d.Holds placement ↔ clause.Holds lexicon course placement) ∧
    lexicon.IsPriority clause.priority? d.priority

/-- The gap between the items is as the clause says. -/
def Gap.Means (lexicon : Lexicon) (course : Course) (earlier later : Item) (clause : Clause)
    (gap : Gap) : Prop :=
  (∀ placement, clause.Holds lexicon course placement ↔ ∃ c, gap.size.value? = some c ∧
      gap.relation.Holds (course.gap placement earlier later) c) ∧
    lexicon.IsPriority clause.priority? gap.priority

/-! ### Clauses of a row -/

/-- What a part of the row of a format says. -/
def Clause.ofPart : RowPart → List Clause
  | .view v => ofView v
  | .connection earlier later c => ofConnection earlier later c

theorem VisualFormat.rowFrom_clauses (trailing : Option Connection) :
    ∀ (rest : List (Connection × ViewTerm)) (view : ViewTerm),
      (rowFrom trailing view rest).flatMap Clause.ofPart =
        Clause.ofView view ++ ((view :: rest.map Prod.snd).zip rest).flatMap Clause.ofStep ++
          trailing.elim [] (Clause.ofConnection
            (.view ((rest.getLast?.map Prod.snd).getD view).name.value) .superview)
  | [], view => by cases trailing <;> simp [rowFrom, Clause.ofPart]
  | (connection, next) :: rest, view => by
    have hlast : (((connection, next) :: rest).getLast?.map Prod.snd).getD view =
        (rest.getLast?.map Prod.snd).getD next := by
      cases rest with
      | nil => rfl
      | cons step rest =>
        rw [List.getLast?_cons_cons, List.getLast?_eq_some_getLast (List.cons_ne_nil step rest)]
        rfl
    simp [rowFrom, rowFrom_clauses trailing rest next, hlast, Clause.ofPart, Clause.ofStep]

/-- The clauses of a format are those of its row, and then its alignments. -/
theorem VisualFormat.clauses_eq_row (format : VisualFormat) (alignments : List Anchor) :
    format.clauses alignments = format.row.flatMap Clause.ofPart ++
      alignments.flatMap fun anchor => (format.views.zip format.views.tail).map fun (view, next) =>
        .aligned anchor view.name.value next.name.value := by
  rw [clauses, row, List.flatMap_append, rowFrom_clauses]
  cases format.leading <;> simp [Clause.ofPart, lastView, views]

/-! ### Edges and distances -/

namespace Flow

/-- A coordinate, counted along the flow. -/
def along (flow : Flow) (q : Rat) : Rat := if flow.falling then -q else q

theorem value?_gap (flow : Flow) (x : Double) : (flow.gap x).value? = x.value?.map flow.along := by
  unfold gap along
  split
  · exact Binary.value?_neg x
  · exact Option.map_id'.symm

/-- To relate two edges so is to relate the distance from the one to the
other. -/
theorem relation_holds_iff (flow : Flow) (r : Relation) (a b c : Rat) :
    (flow.relation r).Holds a (b + flow.along c) ↔ r.Holds (flow.along a - flow.along b) c := by
  unfold relation along
  split
  · rw [Relation.mirrored_holds_iff, neg_add, neg_neg, Relation.holds_sub_iff]
  · rw [Relation.holds_sub_iff]

end Flow

namespace Course

variable (axis : Axis) (direction : Direction)

theorem near_eq (frame : Frame) : (of axis direction).near frame =
    (Flow.of axis direction).along (frame.measure (Flow.of axis direction).start) := by
  cases axis <;> cases direction <;> rfl

theorem far_eq (frame : Frame) : (of axis direction).far frame =
    (Flow.of axis direction).along (frame.measure (Flow.of axis direction).finish) := by
  cases axis <;> cases direction <;> rfl

theorem extent_eq (frame : Frame) :
    (of axis direction).extent frame = frame.measure (.dimension axis) := by
  cases axis <;> cases direction <;> simp [of, extent, near, far, Frame.measure, Anchor.dimension]

/-- **A gap descriptor speaks of the distance.** -/
theorem between_holds_iff {placement : Placement} {earlier later : Item} {r : Relation}
    {x : Double} :
    (Descriptor.between later
        (if later = .superview then (Flow.of axis direction).finish
          else (Flow.of axis direction).start)
        ((Flow.of axis direction).relation r) earlier
        (if earlier = .superview then (Flow.of axis direction).start
          else (Flow.of axis direction).finish)
        ((Flow.of axis direction).gap x)).Holds placement ↔
      ∃ c, x.value? = some c ∧ r.Holds ((of axis direction).gap placement earlier later) c := by
  have hleaves : (of axis direction).leaves placement earlier =
      (Flow.of axis direction).along (placement.measure earlier
        (if earlier = .superview then (Flow.of axis direction).start
          else (Flow.of axis direction).finish)) := by
    cases earlier with
    | superview => exact near_eq axis direction _
    | view id => exact far_eq axis direction _
  have hreaches : (of axis direction).reaches placement later =
      (Flow.of axis direction).along (placement.measure later
        (if later = .superview then (Flow.of axis direction).finish
          else (Flow.of axis direction).start)) := by
    cases later with
    | superview => exact far_eq axis direction _
    | view id => exact near_eq axis direction _
  rw [Descriptor.between_holds_iff, Flow.value?_gap, gap, hleaves, hreaches]
  constructor
  · rintro ⟨_, hc, h⟩
    obtain ⟨c, hx, rfl⟩ := Option.map_eq_some_iff.1 hc
    exact ⟨c, hx, (Flow.relation_holds_iff _ r _ _ c).1 h⟩
  · rintro ⟨c, hc, h⟩
    exact ⟨_, Option.map_eq_some_iff.2 ⟨c, hc, rfl⟩, (Flow.relation_holds_iff _ r _ _ c).2 h⟩

end Course

/-! ### The descriptors of a clause -/

namespace SpecContext

variable (ctx : SpecContext)

def lexicon : Lexicon := ⟨ctx.spec.metrics, ctx.spacing⟩

variable {ctx}

theorem number_eq_ok_iff {operand : Located Operand} {x : Double} :
    ctx.number operand = .ok x ↔ ctx.lexicon.number? operand.value = some x := by
  unfold number Lexicon.number?
  cases operand.value with
  | number y => simp
  | name name =>
    show _ ↔ ctx.metric? name = some x
    dsimp only
    cases ctx.metric? name <;> simp

theorem isPriority_of_priority {written : Option (Located Operand)} {p : Priority}
    (h : ctx.priority written = .ok p) :
    ctx.lexicon.IsPriority (written.map Located.value) p := by
  cases written with
  | none => exact (Except.ok.inj h).symm
  | some operand =>
    obtain ⟨x, hx, h⟩ := bind_eq_ok_iff.1 h
    split at h
    · rename_i hbounds
      rw [Bool.and_eq_true] at hbounds
      exact ⟨x, number_eq_ok_iff.1 hx, hbounds.1, hbounds.2, (pure_eq_ok_iff.1 h).symm⟩
    · cases h

/-! ### Connections -/

section

variable {earlier later : Item}

theorem between_eq : ctx.spacing.between (earlier = .superview || later = .superview) =
    ctx.lexicon.default earlier later := by
  simp [Spacing.between, Lexicon.default, lexicon]

theorem spacer_eq (operand : Located Operand) :
    ctx.spacer operand (earlier = .superview || later = .superview) =
      (ctx.lexicon.number? operand.value).getD (ctx.lexicon.default earlier later) := by
  unfold spacer Lexicon.number?
  cases operand.value with
  | number x => rfl
  | name name =>
    rw [between_eq]
    rfl

theorem value?_zero : (0 : Double).value? = some 0 := by decide +kernel

theorem gaps_means (course : Course) {connection : Connection} {gaps : List Gap}
    (h : ctx.gaps connection (earlier = .superview || later = .superview) = .ok gaps) :
    List.Forall₂ (Gap.Means ctx.lexicon course earlier later)
      (Clause.ofConnection earlier later connection) gaps := by
  cases connection with
  | flush =>
    cases h
    refine .cons ⟨fun placement => ?_, rfl⟩ .nil
    exact ⟨fun hgap => ⟨0, value?_zero, hgap⟩, fun ⟨c, hc, hgap⟩ =>
      hgap.trans (Option.some.inj (hc.symm.trans value?_zero))⟩
  | standard =>
    cases h
    rw [between_eq]
    exact .cons ⟨fun placement => Iff.rfl, rfl⟩ .nil
  | spacer operand =>
    cases h
    rw [spacer_eq]
    exact .cons ⟨fun placement => Iff.rfl, rfl⟩ .nil
  | predicates conditions =>
    rw [Clause.ofConnection, List.forall₂_map_left_iff]
    refine (mapM_eq_ok_iff.1 h).imp fun condition gap hgap => ?_
    obtain ⟨x, hx, hgap⟩ := bind_eq_ok_iff.1 hgap
    obtain ⟨p, hp, hgap⟩ := bind_eq_ok_iff.1 hgap
    cases hgap
    refine ⟨fun placement => ?_, isPriority_of_priority hp⟩
    show (∃ c, (ctx.lexicon.number? condition.value.object.value).bind Binary.value? = some c ∧
      _) ↔ _
    rw [number_eq_ok_iff.1 hx]
    exact Iff.rfl

theorem connect_means {axis : Axis} {direction : Direction} {connection : Connection}
    {ds : List Descriptor}
    (h : ctx.connect (Flow.of axis direction) earlier later connection = .ok ds) :
    List.Forall₂ (Descriptor.Means ctx.lexicon (Course.of axis direction))
      (Clause.ofConnection earlier later connection) ds := by
  obtain ⟨gaps, hgaps, h⟩ := bind_eq_ok_iff.1 h
  cases h
  rw [List.forall₂_map_right_iff]
  refine (gaps_means (Course.of axis direction) hgaps).imp fun clause gap ⟨hholds, hpriority⟩ => ?_
  refine ⟨fun placement => ?_, hpriority⟩
  rw [Descriptor.withPriority_holds_iff, Course.between_holds_iff]
  exact (hholds placement).symm

end

/-! ### Sizes -/

theorem size_means {axis : Axis} {view : ViewTerm} {condition : Located Predicate} {d : Descriptor}
    (direction : Direction) (h : ctx.size axis view condition = .ok d) :
    Descriptor.Means ctx.lexicon (Course.of axis direction)
      (.size view.name.value condition.value) d := by
  obtain ⟨p, hp, h⟩ := bind_eq_ok_iff.1 h
  -- the clause of a number, which is written or a metric
  have hfixed : ∀ x, (∀ placement, ctx.lexicon.length? (.of axis direction) placement
        condition.value.object.value = x.value?) →
      Descriptor.Means ctx.lexicon (Course.of axis direction)
        (.size view.name.value condition.value)
        ((Descriptor.fixed (.view view.name.value) (.dimension axis) condition.value.relation
          x).withPriority p) := by
    refine fun x hx => ⟨fun placement => ?_, isPriority_of_priority hp⟩
    rw [Descriptor.withPriority_holds_iff, Descriptor.fixed_holds_iff, Clause.Holds, hx,
      Course.extent_eq]
    rfl
  split at h
  · rename_i x hx
    cases h
    exact hfixed x fun placement => by rw [hx, Lexicon.length?]
  · rename_i name hname
    split at h
    · rename_i x hx
      have hx : ctx.lexicon.metrics.lookup name = some x := hx
      cases h
      exact hfixed x fun placement => by rw [hname, Lexicon.length?, hx]
    · rename_i hnone
      have hnone : ctx.lexicon.metrics.lookup name = none := hnone
      split at h
      · cases h
        refine ⟨fun placement => ?_, isPriority_of_priority hp⟩
        rw [Descriptor.withPriority_holds_iff, Descriptor.between_holds_iff, Clause.Holds, hname,
          Lexicon.length?, hnone, value?_zero, Course.extent_eq, Course.extent_eq]
        simp only [Option.some.injEq, exists_eq_left', add_zero]
        rfl
      · cases h

theorem sizes_means {axis : Axis} {view : ViewTerm} {ds : List Descriptor} (direction : Direction)
    (h : ctx.sizes axis view = .ok ds) :
    List.Forall₂ (Descriptor.Means ctx.lexicon (Course.of axis direction)) (Clause.ofView view)
      ds := by
  rw [Clause.ofView, List.forall₂_map_left_iff]
  exact (mapM_eq_ok_iff.1 h).imp fun _ _ => size_means direction

/-! ### Whole formats -/

section

variable {axis : Axis} {direction : Direction}

theorem part_means {part : RowPart} {ds : List Descriptor}
    (h : ctx.part axis (Flow.of axis direction) part = .ok ds) :
    List.Forall₂ (Descriptor.Means ctx.lexicon (Course.of axis direction)) (Clause.ofPart part)
      ds := by
  cases part with
  | view v => exact sizes_means direction h
  | connection earlier later c => exact connect_means h

theorem aligned_means (lexicon : Lexicon) (anchor : Anchor) (views : List ViewTerm) :
    List.Forall₂ (Descriptor.Means lexicon (Course.of axis direction))
      ((views.zip views.tail).map fun (view, next) =>
        .aligned anchor view.name.value next.name.value)
      (aligned anchor views) := by
  rw [aligned_eq, List.forall₂_map_left_iff, List.forall₂_map_right_iff, List.forall₂_same]
  refine fun (view, next) _ => ⟨fun placement => ?_, rfl⟩
  rw [Descriptor.between_holds_iff, value?_zero]
  simp only [Option.some.injEq, exists_eq_left', add_zero]
  rfl

theorem alignments_means (lexicon : Lexicon) (views : List ViewTerm) : ∀ alignments : List Anchor,
    List.Forall₂ (Descriptor.Means lexicon (Course.of axis direction))
      (alignments.flatMap fun anchor => (views.zip views.tail).map fun (view, next) =>
        .aligned anchor view.name.value next.name.value)
      (alignments.flatMap (aligned · views))
  | [] => .nil
  | anchor :: alignments =>
    List.rel_append (aligned_means lexicon anchor views) (alignments_means lexicon views alignments)

theorem run_means {format : VisualFormat} {alignments : List Anchor} {ds : List Descriptor}
    (h : ctx.run (Flow.of format.axis direction) format alignments = .ok ds) :
    List.Forall₂ (Descriptor.Means ctx.lexicon (Course.of format.axis direction))
      (format.clauses alignments) ds := by
  obtain ⟨owns, howns, rfl⟩ := run_eq_ok_iff.1 h
  rw [VisualFormat.clauses_eq_row]
  refine List.rel_append ?_ (alignments_means ctx.lexicon format.views alignments)
  exact List.rel_flatten (List.forall₂_map_left_iff.2 (howns.imp fun _ _ => part_means))

end

/-! ### The superview -/

theorem shared_of_checkViews {touches : Bool} (htouches : touches = true) :
    ∀ {names : List (Located String)} {shared : Option (String × Handle)},
      ctx.checkViews touches shared names = .ok () →
      ∃ parent, (∀ first ∈ shared, first.2 = parent) ∧
        ∀ name ∈ names, ∃ entry, ctx.ids.entry? name.value = some entry ∧ entry.parent = parent
  | [], none, _ => ⟨.root, by simp⟩
  | [], some (_, parent), _ => ⟨parent, by simp⟩
  | name :: rest, shared, h => by
    rw [checkViews] at h
    split at h
    · cases h
    · rename_i entry hentry
      rw [htouches] at h
      cases shared with
      | none =>
        obtain ⟨parent, hshared, hrest⟩ := shared_of_checkViews rfl h
        refine ⟨parent, by simp, fun other hother => ?_⟩
        rcases List.mem_cons.1 hother with rfl | hother
        · exact ⟨entry, hentry, hshared _ rfl⟩
        · exact hrest other hother
      | some first =>
        simp only [Bool.not_true, Bool.false_eq_true, ↓reduceIte] at h
        split at h
        · rename_i hparent
          obtain ⟨parent, hshared, hrest⟩ := shared_of_checkViews rfl h
          have hfirst := hshared _ rfl
          refine ⟨parent, fun other hother => ?_, fun other hother => ?_⟩
          · rw [← Option.some.inj hother]
            exact hfirst
          · rcases List.mem_cons.1 hother with rfl | hother
            · exact ⟨entry, hentry, hparent.symm.trans hfirst⟩
            · exact hrest other hother
        · cases h

end SpecContext

/-- **A spec means what its format says.** The descriptors of a spec are the
clauses of its format, one for one and in their order: each holds of exactly the
placements its clause holds of, and has its clause's priority. The views of a
format that touches the superview have one superview. -/
theorem resolve_means {spec : ConstraintSpec} {ids : IdTable} {spacing : Spacing}
    {ds : List Descriptor} (h : resolve spec ids spacing = .ok ds) :
    ∃ format options, VisualFormat.parse spec.format = .ok format ∧
      FormatOptions.parse spec.format spec.options = .ok options ∧
      List.Forall₂
        (Descriptor.Means ⟨spec.metrics, spacing⟩ (Course.of format.axis options.direction))
        (format.clauses options.alignments) ds ∧
      (format.touchesSuperview = true → ∃ parent, ∀ view ∈ format.views, ∃ entry,
        ids.entry? view.name.value = some entry ∧ entry.parent = parent) := by
  obtain ⟨format, hformat, h⟩ := bind_eq_ok_iff.1 h
  obtain ⟨options, hoptions, h⟩ := bind_eq_ok_iff.1 h
  refine ⟨format, options, hformat, hoptions, ?_⟩
  split at h
  · cases h
  · obtain ⟨_, hviews, h⟩ := bind_eq_ok_iff.1 h
    refine ⟨SpecContext.run_means h, fun htouches => ?_⟩
    obtain ⟨parent, -, hshared⟩ := SpecContext.shared_of_checkViews htouches hviews
    exact ⟨parent, fun view hview => hshared view.name (List.mem_map_of_mem hview)⟩

/-! ### A format from right to left -/

/-- Two views of one superview. -/
def buttonIds : IdTable :=
  ⟨[("ok", ⟨⟨1⟩, .root, "ok"⟩), ("cancel", ⟨⟨2⟩, .root, "cancel"⟩)]⟩

def buttonSpec : ConstraintSpec where
  format := "|-(>=edge@500,<=40)-[ok(cancel,>=edge)]-gap-[cancel]|"
  options := ["NSLayoutFormatDirectionRightToLeft", "centerY"]
  metrics := [("edge", 12)]

theorem buttonSpec_means : ∃ ds, resolve buttonSpec buttonIds .standard = .ok ds ∧ ds.length = 7 ∧
    ∃ format options, VisualFormat.parse buttonSpec.format = .ok format ∧
      FormatOptions.parse buttonSpec.format buttonSpec.options = .ok options ∧
      List.Forall₂
        (Descriptor.Means ⟨buttonSpec.metrics, .standard⟩ (Course.of format.axis options.direction))
        (format.clauses options.alignments) ds ∧
      (format.touchesSuperview = true → ∃ parent, ∀ view ∈ format.views, ∃ entry,
        buttonIds.entry? view.name.value = some entry ∧ entry.parent = parent) := by
  have hsome : ((resolve buttonSpec buttonIds .standard).map List.length).toOption = some 7 := by
    decide +kernel
  cases h : resolve buttonSpec buttonIds .standard with
  | error e =>
    rw [h] at hsome
    cases hsome
  | ok ds =>
    rw [h] at hsome
    exact ⟨ds, rfl, Option.some.inj hsome, resolve_means h⟩

end ViewMarkup
