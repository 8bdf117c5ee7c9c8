/-
# Resolving constraint specs

The format of a spec is read from its start to its end, and each clause gives
descriptors: the connection before a view, then the conditions on the view's
size, and at last, for each alignment, one descriptor for every two neighbours.

A connection relates the edge of the later item to the edge of the earlier one
that faces it. The superview is entered by its start and left by its end. Where
the views run from right to left, coordinates fall along the way: the gap
changes its sign and an inequality its direction.

Key definitions: `Flow`, `SpecContext.connect`, `SpecContext.sizes`, `resolve`.
-/
import ViewMarkup.Constraint.Options
import ViewMarkup.Constraint.Spacing
import ViewMarkup.Document.Basic
import ViewMarkup.Format.Parser
import ViewMarkup.View.IdTable

namespace ViewMarkup

/-- The edges at which items begin and end along a format, and whether
coordinates fall from one to the other. -/
structure Flow where
  start : Anchor
  finish : Anchor
  falling : Bool

def Flow.of : Axis → Direction → Flow
  | .vertical, _ => ⟨.top, .bottom, false⟩
  | .horizontal, .leadingToTrailing => ⟨.leading, .trailing, false⟩
  | .horizontal, .leftToRight => ⟨.left, .right, false⟩
  | .horizontal, .rightToLeft => ⟨.right, .left, true⟩

/-- The relation of edges that holds when distances along the flow are related
so. -/
def Flow.relation (flow : Flow) (r : Relation) : Relation := if flow.falling then r.mirrored else r

def Flow.gap (flow : Flow) (gap : Double) : Double := if flow.falling then gap.neg else gap

/-- How far apart two items shall be. -/
structure Gap where
  relation : Relation
  size : Double
  priority : Priority

/-- What the names and defaults in a spec stand for. -/
structure SpecContext where
  spec : ConstraintSpec
  ids : IdTable
  spacing : Spacing

namespace SpecContext

variable (ctx : SpecContext)

def fault (span : Span) (text : String) : MarkupError := .ofFormat ctx.spec.format span text

def metric? (name : String) : Option Double := ctx.spec.metrics.lookup name

def metricNames : List String := ctx.spec.metrics.map Prod.fst

/-- A number, or the metric of a name. -/
def number (operand : Located Operand) : Except MarkupError Double :=
  match operand.value with
  | .number x => .ok x
  | .name name =>
    match ctx.metric? name with
    | some x => .ok x
    | none =>
      .error ((ctx.fault operand.span ("unknown metric '" ++ name ++ "'")).suggesting
        (similarNames ctx.metricNames name 2))

/-- A priority above 0 and up to 1000; required if there is none. -/
def priority : Option (Located Operand) → Except MarkupError Priority
  | none => .ok .required
  | some operand => do
    let x ← ctx.number operand
    if Binary.lt 0 x && x.le 1000 then return x.convert .single
    else throw (ctx.fault operand.span ("priority " ++ x.text ++ " is outside 1...1000"))

/-- The gap between dashes. A name without a metric stands for the default. -/
def spacer (operand : Located Operand) (touchesSuperview : Bool) : Double :=
  match operand.value with
  | .number x => x
  | .name name => (ctx.metric? name).getD (ctx.spacing.between touchesSuperview)

def gapOf (condition : Located Predicate) : Except MarkupError Gap := do
  let size ← ctx.number condition.value.object
  let priority ← ctx.priority condition.value.priority
  return ⟨condition.value.relation, size, priority⟩

/-- What a connection asks of the gap. -/
def gaps (connection : Connection) (touchesSuperview : Bool) : Except MarkupError (List Gap) :=
  match connection with
  | .flush => .ok [⟨.equal, 0, .required⟩]
  | .standard => .ok [⟨.equal, ctx.spacing.between touchesSuperview, .required⟩]
  | .spacer operand => .ok [⟨.equal, ctx.spacer operand touchesSuperview, .required⟩]
  | .predicates conditions => conditions.mapM ctx.gapOf

/-- The gaps between an earlier and a later item. -/
def connect (flow : Flow) (earlier later : Item) (connection : Connection) :
    Except MarkupError (List Descriptor) := do
  let touchesSuperview := earlier = .superview || later = .superview
  let gaps ← ctx.gaps connection touchesSuperview
  let laterEdge := if later = .superview then flow.finish else flow.start
  let earlierEdge := if earlier = .superview then flow.start else flow.finish
  return gaps.map fun gap =>
    (Descriptor.between later laterEdge (flow.relation gap.relation) earlier earlierEdge
      (flow.gap gap.size)).withPriority gap.priority

/-- One condition on the size of a view: a number, a metric, or the same
dimension of another view. -/
def size (axis : Axis) (view : ViewTerm) (condition : Located Predicate) :
    Except MarkupError Descriptor := do
  let p := condition.value
  let item := Item.view view.name.value
  let dimension := Anchor.dimension axis
  let priority ← ctx.priority p.priority
  let descriptor ← match p.object.value with
    | .number x => pure (Descriptor.fixed item dimension p.relation x)
    | .name name =>
      match ctx.metric? name with
      | some x => pure (Descriptor.fixed item dimension p.relation x)
      | none =>
        if ctx.ids.contains name then
          pure (Descriptor.between item dimension p.relation (.view name) dimension 0)
        else
          let unknown := ctx.fault p.object.span ("'" ++ name ++ "' is neither a metric nor a view")
          throw (unknown.suggesting (similarNames (ctx.metricNames ++ ctx.ids.ids) name 2))
  return descriptor.withPriority priority

def sizes (axis : Axis) (view : ViewTerm) : Except MarkupError (List Descriptor) :=
  view.predicates.mapM (ctx.size axis view)

/-- Every view in brackets has to be declared. If the format touches the
superview, they all have to have the same one; `shared` is the first view seen
and its superview. -/
def checkViews (touchesSuperview : Bool) : Option (String × Handle) → List (Located String) →
    Except MarkupError Unit
  | _, [] => .ok ()
  | shared, name :: rest =>
    match ctx.ids.entry? name.value with
    | none =>
      .error ((ctx.fault name.span ("unknown view '" ++ name.value ++ "'")).suggesting
        (similarNames ctx.ids.ids name.value 2))
    | some entry =>
      if !touchesSuperview then checkViews touchesSuperview none rest
      else match shared with
        | none => checkViews touchesSuperview (some (name.value, entry.parent)) rest
        | some (first, parent) =>
          if parent = entry.parent then checkViews touchesSuperview shared rest
          else .error (ctx.fault name.span
            ("'" ++ name.value ++ "' does not share a superview with '" ++ first ++ "'"))

/-- The clauses from a view on to the end of the format. -/
def clauses (axis : Axis) (flow : Flow) (trailing : Option Connection) : ViewTerm →
    List (Connection × ViewTerm) → Except MarkupError (List Descriptor)
  | view, [] => do
    let own ← ctx.sizes axis view
    match trailing with
    | none => return own
    | some connection =>
      let last ← ctx.connect flow (.view view.name.value) .superview connection
      return own ++ last
  | view, (connection, next) :: rest => do
    let own ← ctx.sizes axis view
    let gap ← ctx.connect flow (.view view.name.value) (.view next.name.value) connection
    let others ← clauses axis flow trailing next rest
    return own ++ gap ++ others

/-- One alignment of every two neighbours. -/
def aligned (anchor : Anchor) : List ViewTerm → List Descriptor
  | view :: next :: rest =>
    .between (.view next.name.value) anchor .equal (.view view.name.value) anchor 0 ::
      aligned anchor (next :: rest)
  | _ => []

/-- All clauses of a format. -/
def run (flow : Flow) (format : VisualFormat) (alignments : List Anchor) :
    Except MarkupError (List Descriptor) := do
  let leading ← match format.leading with
    | none => pure []
    | some connection =>
      ctx.connect flow .superview (.view format.first.name.value) connection
  let others ← ctx.clauses format.axis flow format.trailing format.first format.rest
  return leading ++ others ++ alignments.flatMap (aligned · format.views)

end SpecContext

/-- The descriptors of a spec. Alignments along the axis of the format are
refused. -/
def resolve (spec : ConstraintSpec) (ids : IdTable) (spacing : Spacing) :
    Except MarkupError (List Descriptor) := do
  let format ← VisualFormat.parse spec.format
  let options ← FormatOptions.parse spec.format spec.options
  match options.alignments.find? fun a => a.axis = format.axis with
  | some anchor =>
    throw (FormatOptions.fault spec.format
      ("alignment option '" ++ anchor.text ++ "' runs along the " ++ format.axis.text ++
        " axis of the format"))
  | none =>
    let ctx : SpecContext := ⟨spec, ids, spacing⟩
    ctx.checkViews format.touchesSuperview none (format.views.map ViewTerm.name)
    ctx.run (Flow.of format.axis options.direction) format options.alignments

end ViewMarkup
