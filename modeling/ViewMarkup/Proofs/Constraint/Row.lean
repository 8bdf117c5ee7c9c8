/-
# A format is a row of parts

The views of a format and the connections between them stand in a row, and each
part of it is resolved by itself: a format is resolved by resolving its row from
front to back, up to the first part that fails. So what is to be shown of the
descriptors of a format, or of its errors, is to be shown of the parts.

Key definitions: `RowPart`, `VisualFormat.row`, `VisualFormat.Joins`,
`SpecContext.part`.
Key theorems: `VisualFormat.view_mem_row_iff`, `VisualFormat.connection_mem_row_iff`,
`VisualFormat.joins_of_mem_row`, `SpecContext.run_eq`, `SpecContext.run_eq_ok_iff`.
-/
import ViewMarkup.Constraint.Resolve
import ViewMarkup.Proofs.Format.Writing
import ViewMarkup.Proofs.Outcome

namespace ViewMarkup

/-- A view with the conditions on its size, or what connects two items. -/
inductive RowPart
  | view (v : ViewTerm)
  | connection (earlier later : Item) (c : Connection)

namespace RowPart

def view? : RowPart → Option ViewTerm
  | view v => some v
  | connection _ _ _ => none

def connection? : RowPart → Option Connection
  | view _ => none
  | connection _ _ c => some c

end RowPart

/-! ### The row of a format -/

namespace VisualFormat

/-- The parts from a view on to the end. -/
def rowFrom (trailing : Option Connection) : ViewTerm → List (Connection × ViewTerm) →
    List RowPart
  | v, [] => .view v :: (trailing.map (.connection (.view v.name.value) .superview)).toList
  | v, (c, next) :: rest =>
    .view v :: .connection (.view v.name.value) (.view next.name.value) c ::
      rowFrom trailing next rest

def row (f : VisualFormat) : List RowPart :=
  (f.leading.map (.connection .superview (.view f.first.name.value))).toList ++
    rowFrom f.trailing f.first f.rest

theorem rowFrom_views (trailing : Option Connection) :
    ∀ (rest : List (Connection × ViewTerm)) (v : ViewTerm),
      (rowFrom trailing v rest).filterMap RowPart.view? = v :: rest.map Prod.snd
  | [], v => by cases trailing <;> rfl
  | (c, next) :: rest, v => by
    have htail := rowFrom_views trailing rest next
    simp [rowFrom, List.filterMap_cons, RowPart.view?, htail]

theorem rowFrom_connections (trailing : Option Connection) :
    ∀ (rest : List (Connection × ViewTerm)) (v : ViewTerm),
      (rowFrom trailing v rest).filterMap RowPart.connection? =
        rest.map Prod.fst ++ trailing.toList
  | [], v => by cases trailing <;> rfl
  | (c, next) :: rest, v => by
    have htail := rowFrom_connections trailing rest next
    simp [rowFrom, List.filterMap_cons, RowPart.connection?, htail]

variable (f : VisualFormat)

theorem row_views : f.row.filterMap RowPart.view? = f.views := by
  rw [row, List.filterMap_append, rowFrom_views]
  cases f.leading <;> rfl

theorem row_connections : f.row.filterMap RowPart.connection? = f.connections := by
  rw [row, List.filterMap_append, rowFrom_connections, connections, List.append_assoc]
  cases f.leading <;> rfl

variable {f}

theorem view_mem_row_iff {v : ViewTerm} : .view v ∈ f.row ↔ v ∈ f.views := by
  rw [← f.row_views, List.mem_filterMap]
  constructor
  · exact fun h => ⟨_, h, rfl⟩
  · rintro ⟨part, hpart, h⟩
    cases part <;> cases h
    exact hpart

theorem connection_mem_row_iff {c : Connection} :
    (∃ earlier later, .connection earlier later c ∈ f.row) ↔ c ∈ f.connections := by
  rw [← f.row_connections, List.mem_filterMap]
  constructor
  · exact fun ⟨_, _, h⟩ => ⟨_, h, rfl⟩
  · rintro ⟨part, hpart, h⟩
    cases part <;> cases h
    exact ⟨_, _, hpart⟩

/-- What can be connected: two views, or the superview and a view where the format
touches it. -/
inductive Joins (f : VisualFormat) : Item → Item → Prop
  | views {v w : ViewTerm} (hv : v ∈ f.views) (hw : w ∈ f.views) :
    Joins f (.view v.name.value) (.view w.name.value)
  | entering {v : ViewTerm} (htouches : f.touchesSuperview = true) (hv : v ∈ f.views) :
    Joins f .superview (.view v.name.value)
  | leaving {v : ViewTerm} (htouches : f.touchesSuperview = true) (hv : v ∈ f.views) :
    Joins f (.view v.name.value) .superview

theorem joins_of_mem_rowFrom {trailing : Option Connection} {earlier later : Item} {c : Connection}
    (htrailing : trailing.isSome = true → f.touchesSuperview = true) :
    ∀ {rest : List (Connection × ViewTerm)} {v : ViewTerm},
      (∀ w ∈ v :: rest.map Prod.snd, w ∈ f.views) →
      .connection earlier later c ∈ rowFrom trailing v rest → f.Joins earlier later
  | [], v, hviews, h => by
    cases trailing with
    | none => simp [rowFrom] at h
    | some connection =>
      have h : earlier = .view v.name.value ∧ later = .superview ∧ c = connection := by
        simpa [rowFrom] using h
      obtain ⟨rfl, rfl, -⟩ := h
      exact .leaving (htrailing rfl) (hviews v List.mem_cons_self)
  | (connection, next) :: rest, v, hviews, h => by
    obtain ⟨hv, hrest⟩ := List.forall_mem_cons.1 hviews
    have h : (earlier = .view v.name.value ∧ later = .view next.name.value ∧ c = connection) ∨
        .connection earlier later c ∈ rowFrom trailing next rest := by
      simpa [rowFrom] using h
    rcases h with ⟨rfl, rfl, -⟩ | h
    · exact .views hv (hrest next List.mem_cons_self)
    · exact joins_of_mem_rowFrom htrailing hrest h

theorem joins_of_mem_row {earlier later : Item} {c : Connection}
    (h : .connection earlier later c ∈ f.row) : f.Joins earlier later := by
  rcases List.mem_append.1 h with h | h
  · cases hl : f.leading with
    | none =>
      rw [hl] at h
      cases h
    | some connection =>
      rw [hl] at h
      have h : earlier = .superview ∧ later = .view f.first.name.value ∧ c = connection := by
        simpa using h
      obtain ⟨rfl, rfl, -⟩ := h
      exact .entering (by rw [touchesSuperview, hl]; rfl) List.mem_cons_self
  · refine joins_of_mem_rowFrom (fun htrailing => ?_) (fun w hw => hw) h
    rw [touchesSuperview, htrailing, Bool.or_true]

end VisualFormat

/-! ### Resolving a row -/

namespace SpecContext

variable (ctx : SpecContext)

/-- The descriptors of a part. -/
def part (axis : Axis) (flow : Flow) : RowPart → Except MarkupError (List Descriptor)
  | .view v => ctx.sizes axis v
  | .connection earlier later c => ctx.connect flow earlier later c

theorem clauses_eq (axis : Axis) (flow : Flow) (trailing : Option Connection) :
    ∀ (rest : List (Connection × ViewTerm)) (view : ViewTerm),
      ctx.clauses axis flow trailing view rest =
        ((VisualFormat.rowFrom trailing view rest).mapM (ctx.part axis flow)).map List.flatten
  | [], view => by
    rw [clauses, VisualFormat.rowFrom, List.mapM_cons, part]
    cases ctx.sizes axis view with
    | error e => rfl
    | ok own =>
      cases trailing with
      | none => exact congrArg Except.ok (List.append_nil own).symm
      | some c =>
        rw [Option.map_some, Option.toList_some, List.mapM_cons, part]
        dsimp only [bind, Except.bind]
        cases ctx.connect flow (.view view.name.value) .superview c with
        | error e => rfl
        | ok last => simp [pure, Except.pure, Except.map]
  | (c, next) :: rest, view => by
    rw [clauses, VisualFormat.rowFrom, List.mapM_cons, List.mapM_cons, part, part,
      clauses_eq axis flow trailing rest next]
    cases ctx.sizes axis view with
    | error e => rfl
    | ok own =>
      cases ctx.connect flow (.view view.name.value) (.view next.name.value) c with
      | error e => rfl
      | ok gap =>
        cases (VisualFormat.rowFrom trailing next rest).mapM (ctx.part axis flow) with
        | error e => rfl
        | ok others => simp [pure, Except.pure, bind, Except.bind, Except.map]

/-- An alignment gives a descriptor for every two neighbours, and adds nothing. -/
theorem aligned_eq (anchor : Anchor) : ∀ views : List ViewTerm,
    aligned anchor views = (views.zip views.tail).map fun (view, next) =>
      .between (.view next.name.value) anchor .equal (.view view.name.value) anchor 0
  | [] => rfl
  | [_] => rfl
  | view :: next :: rest => by
    rw [aligned, aligned_eq anchor (next :: rest)]
    rfl

/-- **A format is resolved part by part.** The alignments come last. -/
theorem run_eq (flow : Flow) (f : VisualFormat) (alignments : List Anchor) :
    ctx.run flow f alignments = (f.row.mapM (ctx.part f.axis flow)).map fun owns =>
      owns.flatten ++ alignments.flatMap (aligned · f.views) := by
  rw [run, VisualFormat.row, clauses_eq]
  cases f.leading with
  | none =>
    rw [Option.map_none, Option.toList_none, List.nil_append]
    cases (VisualFormat.rowFrom f.trailing f.first f.rest).mapM (ctx.part f.axis flow) with
    | error e => rfl
    | ok others => rfl
  | some c =>
    rw [Option.map_some, Option.toList_some, List.singleton_append, List.mapM_cons, part]
    dsimp only
    cases ctx.connect flow .superview (.view f.first.name.value) c with
    | error e => rfl
    | ok leading =>
      cases (VisualFormat.rowFrom f.trailing f.first f.rest).mapM (ctx.part f.axis flow) with
      | error e => rfl
      | ok others => rfl

variable {ctx}

theorem run_eq_ok_iff {flow : Flow} {f : VisualFormat} {alignments : List Anchor}
    {ds : List Descriptor} : ctx.run flow f alignments = .ok ds ↔
      ∃ owns, List.Forall₂ (fun part own => ctx.part f.axis flow part = .ok own) f.row owns ∧
        owns.flatten ++ alignments.flatMap (aligned · f.views) = ds := by
  rw [run_eq, map_eq_ok_iff]
  simp only [mapM_eq_ok_iff]

end SpecContext

end ViewMarkup
