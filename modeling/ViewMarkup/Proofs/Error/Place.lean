/-
# Errors learn their place from who knows it

What reads a color, a template, a path, a format or an option does not know
where in the document it stands: its errors have no place (`Placeless`), and
none of them says that the text is no document. So whoever calls it and fills in
a place is believed, and the error has this place and no other
(`place?_of_located`).

Key definitions: `MarkupError.Unplaced`, `Placeless`.
Key theorems: `place?_of_located`, `AttributeValue.resolve_placeless`,
`AttributeValue.compose_placeless`, `resolve_placeless`.
-/
import ViewMarkup.Build
import ViewMarkup.Proofs.Constraint.Row
import ViewMarkup.Proofs.Template.Compose
import ViewMarkup.Proofs.Template.Spelling

namespace ViewMarkup

/-! ### Errors without a place -/

/-- The error has no place yet, and could have one. -/
def MarkupError.Unplaced (e : MarkupError) : Prop :=
  e.keyPath = "" ∧ ∀ fault, e.fault ≠ .document fault

namespace MarkupError

theorem place?_placedAt {e : MarkupError} (h : e.Unplaced) {keyPath : String} (hk : keyPath ≠ "") :
    (e.placedAt keyPath).place? = some keyPath := by
  obtain ⟨fault, place⟩ := e
  obtain ⟨rfl, hfault⟩ := h
  cases fault with
  | document fault => exact absurd rfl (hfault fault)
  | _ => simp [placedAt, place?, hk]

theorem unplaced_unresolved (path reason : String) : (unresolved path reason).Unplaced :=
  ⟨rfl, nofun⟩

theorem unplaced_ofFormat (format : String) (span : Span) (text : String) :
    (ofFormat format span text).Unplaced := ⟨rfl, nofun⟩

theorem unplaced_unterminated (template : String) (offset : Nat) :
    Unplaced { fault := .unterminatedExpression template offset } := ⟨rfl, nofun⟩

theorem Unplaced.suggesting {e : MarkupError} (h : e.Unplaced) (names : List String) :
    (e.suggesting names).Unplaced := by
  obtain ⟨fault, place⟩ := e
  cases fault with
  | unknownKind kind suggestions => exact ⟨h.1, nofun⟩
  | malformedFormat format span text suggestions => exact ⟨h.1, nofun⟩
  | _ => exact h

end MarkupError

/-- No error of the outcome has a place. -/
abbrev Placeless {α : Type} (r : Except MarkupError α) : Prop := FailsWith MarkupError.Unplaced r

/-- Who fills in a place is believed. -/
theorem place?_of_located {α : Type} {x : Except MarkupError α} (hx : Placeless x) {keyPath : String}
    (hk : keyPath ≠ "") {e : MarkupError} (h : located keyPath x = .error e) :
    e.place? = some keyPath := by
  cases x with
  | ok a => cases h
  | error e' =>
    cases h
    exact MarkupError.place?_placedAt (hx e' rfl) hk

/-! ### Attributes -/

theorem Path.parse_placeless (raw : String) : Placeless (Path.parse raw) := by
  unfold parse
  dsimp only
  split
  · exact .error (MarkupError.unplaced_unresolved _ _)
  · split
    · exact .error (MarkupError.unplaced_unresolved _ _)
    · exact .ok _

theorem Expression.parse_placeless (body : List Char) (span : Span) :
    Placeless (Expression.parse body span) := by
  unfold parse
  dsimp only
  split
  · split
    · exact (Path.parse_placeless _).map _
    · exact .error (MarkupError.unplaced_unresolved _ _)
  · exact (Path.parse_placeless _).map _

namespace Template

theorem scan_placeless (source : String) (offset : Nat) (literal cs : List Char) :
    Placeless (scan source offset literal cs) := by
  fun_induction scan source offset literal cs with
  | case1 => exact .ok _
  | case2 offset literal cs hnone => exact .error (MarkupError.unplaced_unterminated _ _)
  | case3 offset literal cs body rest hsome stop ih =>
    exact (Expression.parse_placeless _ _).bind fun e => (ih).bind fun segments => .ok _
  | case4 offset literal c cs hne ih => exact ih

theorem parse_placeless (source : String) : Placeless (Template.parse source) := by
  refine (scan_placeless source 0 [] source.toList).bind fun segments => ?_
  split <;> exact .ok _

end Template

namespace AttributeValue

theorem resolve_placeless (raw : Json) (palette : Palette) : Placeless (resolve raw palette) := by
  unfold resolve
  split
  · unfold ofString
    split
    · split
      · exact .ok _
      · exact .error ⟨rfl, nofun⟩
    · split
      · exact .error ⟨rfl, nofun⟩
      · split
        · exact .ok _
        · exact .error ⟨rfl, nofun⟩
      · exact (Template.parse_placeless _).map _
  · exact .ok _

theorem compose_placeless (value : AttributeValue) (data : DataSource) (root : String) :
    Placeless (value.compose data root) := by
  cases value with
  | template t =>
    refine .map (fun e he => ?_) _
    obtain ⟨path, reason, rfl⟩ := Template.unresolved_of_compose he
    exact MarkupError.unplaced_unresolved path reason
  | _ => exact .ok _

end AttributeValue

/-! ### Constraints -/

theorem VisualFormat.parse_placeless (format : String) : Placeless (VisualFormat.parse format) := by
  unfold parse
  split
  · exact .error (MarkupError.unplaced_ofFormat _ _ _)
  · exact .error (MarkupError.unplaced_ofFormat _ _ _)
  · split
    · exact .ok _
    · rename_i stuck _
      cases stuck <;> exact .error (MarkupError.unplaced_ofFormat _ _ _)

theorem FormatOptions.unplaced_fault (format text : String) : (fault format text).Unplaced :=
  ⟨rfl, nofun⟩

theorem FormatOptions.parse_placeless (format : String) (options : List String) :
    Placeless (FormatOptions.parse format options) := by
  refine .bind (.foldlM (fun option _ state => ?_) _) fun _ => .ok _
  unfold add
  dsimp only
  split
  · exact .ok _
  · split
    · exact .error (unplaced_fault _ _)
    · exact .ok _
  · exact .error ((unplaced_fault _ _).suggesting _)

namespace SpecContext

variable (ctx : SpecContext)

theorem unplaced_fault (span : Span) (text : String) : (ctx.fault span text).Unplaced :=
  MarkupError.unplaced_ofFormat _ _ _

theorem number_placeless (operand : Located Operand) : Placeless (ctx.number operand) := by
  unfold number
  split
  · exact .ok _
  · split
    · exact .ok _
    · exact .error ((ctx.unplaced_fault _ _).suggesting _)

theorem priority_placeless (written : Option (Located Operand)) :
    Placeless (ctx.priority written) := by
  cases written with
  | none => exact .ok _
  | some operand =>
    refine (ctx.number_placeless operand).bind fun x => ?_
    split
    · exact .ok _
    · exact .error (ctx.unplaced_fault _ _)

theorem connect_placeless (flow : Flow) (earlier later : Item) (connection : Connection) :
    Placeless (ctx.connect flow earlier later connection) := by
  refine .bind ?_ fun gaps => .ok _
  cases connection with
  | predicates conditions =>
    refine .mapM fun condition _ => ?_
    exact (ctx.number_placeless _).bind fun size =>
      (ctx.priority_placeless _).bind fun priority => .ok _
  | _ => exact .ok _

theorem sizes_placeless (axis : Axis) (view : ViewTerm) : Placeless (ctx.sizes axis view) := by
  refine .mapM fun condition _ => ?_
  refine (ctx.priority_placeless _).bind fun priority => ?_
  dsimp only
  split
  · exact .ok _
  · split
    · exact .ok _
    · split
      · exact .ok _
      · exact .error ((ctx.unplaced_fault _ _).suggesting _)

theorem checkViews_placeless (touchesSuperview : Bool) : ∀ (names : List (Located String))
    (shared : Option (String × Handle)), Placeless (ctx.checkViews touchesSuperview shared names)
  | [], _ => .ok _
  | name :: rest, shared => by
    rw [checkViews]
    split
    · exact .error ((ctx.unplaced_fault _ _).suggesting _)
    · split
      · exact checkViews_placeless touchesSuperview rest _
      · split
        · exact checkViews_placeless touchesSuperview rest _
        · split
          · exact checkViews_placeless touchesSuperview rest _
          · exact .error (ctx.unplaced_fault _ _)

theorem run_placeless (flow : Flow) (format : VisualFormat) (alignments : List Anchor) :
    Placeless (ctx.run flow format alignments) := by
  rw [run_eq]
  refine .map (.mapM fun part _ => ?_) _
  cases part with
  | view v => exact ctx.sizes_placeless format.axis v
  | connection earlier later c => exact ctx.connect_placeless flow earlier later c

end SpecContext

theorem resolve_placeless (spec : ConstraintSpec) (ids : IdTable) (spacing : Spacing) :
    Placeless (resolve spec ids spacing) := by
  refine (VisualFormat.parse_placeless _).bind fun format =>
    (FormatOptions.parse_placeless _ _).bind fun options => ?_
  split
  · exact .error (FormatOptions.unplaced_fault _ _)
  · exact (SpecContext.checkViews_placeless _ _ _ _).bind fun _ => SpecContext.run_placeless _ _ _ _

end ViewMarkup
