/-
# Constants that are finite

The constants of a spec are its metrics, its default gaps and the numbers that are
written in its format, and those with their signs changed. So where metrics and
gaps are finite, one constant that is not is the fault of a number in the format.
No such number is refused, but for a priority: from `2 ^ 1024 - 2 ^ 970` on it is
read as infinite, and so becomes an infinite gap or size. All constants are finite
if and only if no number is as large as that.

Key definitions: `Descriptor.isFinite`.
Key theorems: `SpecContext.connect_isFinite`, `SpecContext.run_isFinite`,
`resolve_finite_iff`.
-/
import ViewMarkup.Json.Number
import ViewMarkup.Proofs.Constraint.Accepted
import ViewMarkup.Proofs.Format.Literal

namespace ViewMarkup

def Descriptor.isFinite (d : Descriptor) : Bool := d.constant.isFinite

/-- What a format leaves to its spec is finite: the metrics and the default gaps. -/
structure SpecContext.FiniteDefaults (ctx : SpecContext) : Prop where
  metrics : ∀ metric ∈ ctx.spec.metrics, metric.2.isFinite = true
  sibling : ctx.spacing.sibling.isFinite = true
  superview : ctx.spacing.superview.isFinite = true

theorem all_eq_all_of_forall₂ {α β : Type} {p : α → Bool} {q : β → Bool} {xs : List α}
    {ys : List β} (h : List.Forall₂ (fun x y => q y = p x) xs ys) : ys.all q = xs.all p := by
  induction h with
  | nil => rfl
  | cons hxy _ ih => rw [List.all_cons, List.all_cons, hxy, ih]

/-! ### Parts and gaps -/

def RowPart.isFinite : RowPart → Bool
  | view v => v.isFinite
  | connection _ _ c => c.isFinite

/-- A format has the numbers of its row. -/
theorem VisualFormat.all_row (f : VisualFormat) : f.row.all RowPart.isFinite = f.isFinite := by
  have hall : ∀ parts : List RowPart, parts.all RowPart.isFinite =
      ((parts.filterMap RowPart.connection?).all Connection.isFinite &&
        (parts.filterMap RowPart.view?).all ViewTerm.isFinite) := by
    intro parts
    induction parts with
    | nil => rfl
    | cons part parts ih =>
      cases part with
      | view v =>
        simp only [List.all_cons, List.filterMap_cons, RowPart.view?, RowPart.connection?,
          RowPart.isFinite, ih]
        ac_rfl
      | connection earlier later c =>
        simp only [List.all_cons, List.filterMap_cons, RowPart.view?, RowPart.connection?,
          RowPart.isFinite, ih]
        ac_rfl
  rw [hall, f.row_connections, f.row_views, VisualFormat.isFinite]

namespace Flow

theorem isFinite_gap (flow : Flow) (x : Double) : (flow.gap x).isFinite = x.isFinite := by
  unfold gap
  split
  · exact x.isFinite_neg
  · rfl

end Flow

namespace SpecContext

variable {ctx : SpecContext}

/-! ### Names and numbers -/

/-- What can be a priority is no infinite number. -/
theorem isFinite_of_isPriority {o : Operand}
    (h : ∀ x, ctx.lexicon.number? o = some x → x.IsPriority) : o.isFinite = true := by
  cases o with
  | name name => rfl
  | number x =>
    obtain ⟨q, hq, -⟩ := h x rfl
    exact Binary.isFinite_of_value? hq

theorem Fits.isFinite_priority {f : VisualFormat} (h : ctx.Fits f) {p : Located Operand}
    (hp : p ∈ f.priorities) : p.value.isFinite = true :=
  isFinite_of_isPriority (h.priorityValues p hp)

theorem isFinite_of_priority {written : Option (Located Operand)} {p : Priority}
    (h : ctx.priority written = .ok p) : (written.all fun o => o.value.isFinite) = true := by
  cases written with
  | none => rfl
  | some operand => exact isFinite_of_isPriority (fits_of_priority h).2

theorem aligned_isFinite (anchor : Anchor) (views : List ViewTerm) :
    (aligned anchor views).all Descriptor.isFinite = true := by
  have hzero : (0 : Double).isFinite = true := by decide +kernel
  rw [aligned_eq, List.all_map, List.all_eq_true]
  intro neighbours _
  rw [Function.comp_apply, Descriptor.isFinite]
  exact hzero

section

variable (hdefaults : ctx.FiniteDefaults)
include hdefaults

theorem FiniteDefaults.metric {name : String} {x : Double} (h : ctx.metric? name = some x) :
    x.isFinite = true := by
  rw [metric?, List.lookup_eq_some_iff] at h
  obtain ⟨before, after, hmetrics, -⟩ := h
  refine hdefaults.metrics (name, x) ?_
  rw [hmetrics]
  exact List.mem_append_right _ List.mem_cons_self

theorem FiniteDefaults.between (touchesSuperview : Bool) :
    (ctx.spacing.between touchesSuperview).isFinite = true := by
  unfold Spacing.between
  split
  · exact hdefaults.superview
  · exact hdefaults.sibling

theorem number_isFinite {operand : Located Operand} {x : Double} (h : ctx.number operand = .ok x) :
    x.isFinite = operand.value.isFinite := by
  have hx := number_eq_ok_iff.1 h
  cases hvalue : operand.value with
  | number y =>
    rw [hvalue] at hx
    obtain rfl := Option.some.inj hx
    rfl
  | name name =>
    rw [hvalue] at hx
    exact hdefaults.metric hx

theorem spacer_isFinite (operand : Located Operand) (touchesSuperview : Bool) :
    (ctx.spacer operand touchesSuperview).isFinite = operand.value.isFinite := by
  unfold spacer
  cases operand.value with
  | number x => rfl
  | name name =>
    dsimp only
    cases hmetric : ctx.metric? name with
    | none => exact hdefaults.between touchesSuperview
    | some x => exact hdefaults.metric hmetric

/-! ### Gaps and sizes -/

theorem gapOf_isFinite {c : Located Predicate} {gap : Gap} (h : ctx.gapOf c = .ok gap) :
    gap.size.isFinite = c.value.isFinite := by
  obtain ⟨x, hx, h⟩ := bind_eq_ok_iff.1 h
  obtain ⟨p, hp, h⟩ := bind_eq_ok_iff.1 h
  cases h
  rw [Predicate.isFinite, isFinite_of_priority hp, Bool.and_true]
  exact number_isFinite hdefaults hx

theorem gaps_isFinite {c : Connection} {touchesSuperview : Bool} {gaps : List Gap}
    (h : ctx.gaps c touchesSuperview = .ok gaps) :
    (gaps.all fun gap => gap.size.isFinite) = c.isFinite := by
  cases c with
  | flush =>
    cases h
    decide +kernel
  | standard =>
    cases h
    simp [hdefaults.between, Connection.isFinite]
  | spacer operand =>
    cases h
    simp [spacer_isFinite hdefaults, Connection.isFinite]
  | predicates conditions =>
    exact all_eq_all_of_forall₂ ((mapM_eq_ok_iff.1 h).imp fun _ _ => gapOf_isFinite hdefaults)

/-- A connection gives finite constants exactly if its numbers are finite, in
whichever direction the format runs. -/
theorem connect_isFinite {flow : Flow} {earlier later : Item} {c : Connection}
    {ds : List Descriptor} (h : ctx.connect flow earlier later c = .ok ds) :
    ds.all Descriptor.isFinite = c.isFinite := by
  obtain ⟨gaps, hgaps, h⟩ := bind_eq_ok_iff.1 h
  cases h
  rw [← gaps_isFinite hdefaults hgaps, List.all_map]
  exact List.all_congr rfl fun gap => flow.isFinite_gap gap.size

theorem size_isFinite {axis : Axis} {view : ViewTerm} {c : Located Predicate} {d : Descriptor}
    (h : ctx.size axis view c = .ok d) : d.isFinite = c.value.isFinite := by
  obtain ⟨p, hp, h⟩ := bind_eq_ok_iff.1 h
  rw [Predicate.isFinite, isFinite_of_priority hp, Bool.and_true]
  split at h
  · rename_i x hx
    cases h
    rw [hx]
    rfl
  · rename_i name hname
    rw [hname]
    split at h
    · rename_i x hx
      cases h
      exact hdefaults.metric hx
    · split at h
      · cases h
        show (0 : Double).isFinite = true
        decide +kernel
      · cases h

theorem sizes_isFinite {axis : Axis} {view : ViewTerm} {ds : List Descriptor}
    (h : ctx.sizes axis view = .ok ds) : ds.all Descriptor.isFinite = view.isFinite :=
  all_eq_all_of_forall₂ ((mapM_eq_ok_iff.1 h).imp fun _ _ => size_isFinite hdefaults)

/-! ### Whole formats -/

theorem part_isFinite {axis : Axis} {flow : Flow} {part : RowPart} {ds : List Descriptor}
    (h : ctx.part axis flow part = .ok ds) : ds.all Descriptor.isFinite = part.isFinite := by
  cases part with
  | view v => exact sizes_isFinite hdefaults h
  | connection earlier later c => exact connect_isFinite hdefaults h

/-- **Constants are as finite as the numbers of the format.** -/
theorem run_isFinite {flow : Flow} {f : VisualFormat} {alignments : List Anchor}
    {ds : List Descriptor} (h : ctx.run flow f alignments = .ok ds) :
    ds.all Descriptor.isFinite = f.isFinite := by
  have haligned : (alignments.flatMap (aligned · f.views)).all Descriptor.isFinite = true := by
    rw [List.all_flatMap, List.all_eq_true]
    exact fun anchor _ => aligned_isFinite anchor f.views
  obtain ⟨owns, howns, rfl⟩ := run_eq_ok_iff.1 h
  rw [List.all_append, haligned, Bool.and_true, List.all_flatten, ← f.all_row]
  exact all_eq_all_of_forall₂ (howns.imp fun _ _ => part_isFinite hdefaults)

end

end SpecContext

/-- **Constants are finite exactly if no number of the format overflows.** Where
the metrics and the default gaps are finite and the spec is resolved, all its
constants are finite if and only if every number in the text of the format is below
`2 ^ 1024 - 2 ^ 970`, the middle between the greatest double and the next power of
two. Otherwise one of them is not; of numbers that overflow only priorities are
refused. -/
theorem resolve_finite_iff {spec : ConstraintSpec} {ids : IdTable} {spacing : Spacing}
    {ds : List Descriptor} (hdefaults : SpecContext.FiniteDefaults ⟨spec, ids, spacing⟩)
    (h : resolve spec ids spacing = .ok ds) :
    ∃ ts f, tokens spec.format = .ok ts ∧ VisualFormat.parse spec.format = .ok f ∧
      ((∀ d ∈ ds, d.constant.isFinite = true) ↔
        ∀ t ∈ ts, ∀ part q, t.span.Selects spec.format part → Token.Numeral part q →
          q < 2 ^ 1024 - 2 ^ 970) ∧
      ∀ p ∈ f.priorities, p.value.isFinite = true := by
  obtain ⟨f, hparse, h⟩ := bind_eq_ok_iff.1 h
  obtain ⟨options, -, h⟩ := bind_eq_ok_iff.1 h
  split at h
  · cases h
  · obtain ⟨_, hcheck, hrun⟩ := bind_eq_ok_iff.1 h
    obtain ⟨ts, htokens, hfinite⟩ := VisualFormat.isFinite_iff_of_parse hparse
    refine ⟨ts, f, htokens, hparse, ?_, fun p hp => ?_⟩
    · rw [← FloatFormat.overflow_double, ← hfinite, ← SpecContext.run_isFinite hdefaults hrun,
        List.all_eq_true]
      rfl
    · exact (SpecContext.fits_of_run hcheck hrun).isFinite_priority hp

/-! ### A row with numbers of all kinds, and a width that is infinite -/

def rowSpec : ConstraintSpec where
  format := "|-8-[ok(>=edge,<=99.5@750)]-(-1.5)-[cancel(ok)]-gap-|"
  options := ["rightToLeft"]
  metrics := [("edge", 12)]

theorem rowSpec_finite : ∃ ds, resolve rowSpec buttonIds .standard = .ok ds ∧ ds.length = 6 ∧
    SpecContext.FiniteDefaults ⟨rowSpec, buttonIds, .standard⟩ ∧
    ∃ ts f, tokens rowSpec.format = .ok ts ∧ VisualFormat.parse rowSpec.format = .ok f ∧
      (∀ d ∈ ds, d.constant.isFinite = true) ∧
      (∀ t ∈ ts, ∀ part q, t.span.Selects rowSpec.format part → Token.Numeral part q →
        q < 2 ^ 1024 - 2 ^ 970) ∧ ∀ p ∈ f.priorities, p.value.isFinite = true := by
  have hdefaults : SpecContext.FiniteDefaults ⟨rowSpec, buttonIds, .standard⟩ :=
    ⟨by decide +kernel, by decide +kernel, by decide +kernel⟩
  have hrun : ((resolve rowSpec buttonIds .standard).map fun ds =>
      (ds.length, ds.all Descriptor.isFinite)).toOption = some (6, true) := by decide +kernel
  obtain ⟨ds, hds, hfound⟩ := map_eq_ok_iff.1 (toOption_eq_some_iff.1 hrun)
  obtain ⟨hlength, hfinite⟩ := Prod.mk.inj hfound
  have hfinite : ∀ d ∈ ds, d.constant.isFinite = true := List.all_eq_true.1 hfinite
  obtain ⟨ts, f, htokens, hparse, hiff, hpriorities⟩ := resolve_finite_iff hdefaults hds
  exact ⟨ds, hds, hlength, hdefaults, ts, f, htokens, hparse, hfinite, hiff.1 hfinite, hpriorities⟩

/-- A width of `10 ^ 309`. -/
def hugeSpec : ConstraintSpec where
  format := "[ok(1" ++ String.ofList (List.replicate 309 '0') ++ ")]"
  options := []
  metrics := []

def hugeTokens : VisualFormat.Tokens :=
  [⟨.bracketOpen, ⟨0, 1⟩⟩, ⟨.name "ok", ⟨1, 3⟩⟩, ⟨.parenOpen, ⟨3, 4⟩⟩,
    ⟨.number (.infinite false), ⟨4, 314⟩⟩, ⟨.parenClose, ⟨314, 315⟩⟩, ⟨.bracketClose, ⟨315, 316⟩⟩]

theorem hugeSpec_tokens : tokens hugeSpec.format = .ok hugeTokens := by
  -- a text as long as this is not taken apart by evaluation
  have hchars : hugeSpec.format.toList =
      "[ok(1".toList ++ List.replicate 309 '0' ++ ")]".toList := by
    rw [hugeSpec, String.toList_append, String.toList_append,
      String.toList_ofList (l := List.replicate _ _)]
  have hscan : (Token.scan 0 ("[ok(1".toList ++ List.replicate 309 '0' ++ ")]".toList)).toOption =
      some hugeTokens := by decide +kernel
  rw [tokens, hchars]
  exact toOption_eq_some_iff.1 hscan

/-- The width is accepted as an infinite one, though there is nothing infinite among
the defaults; where the same digits are a number of a document they are refused. -/
theorem hugeSpec_infinite : SpecContext.FiniteDefaults ⟨hugeSpec, buttonIds, .standard⟩ ∧
    (∃ d, resolve hugeSpec buttonIds .standard = .ok [d] ∧ d.constant = .infinite false) ∧
    Json.Numeral.number? ⟨false, '1' :: List.replicate 309 '0', none, none⟩ = none := by
  refine ⟨⟨by decide +kernel, by decide +kernel, by decide +kernel⟩, ?_, by decide +kernel⟩
  have hrun : ((resolve hugeSpec buttonIds .standard).map (List.map Descriptor.constant)).toOption =
      some [.infinite false] := by
    rw [resolve, VisualFormat.parse, hugeSpec_tokens]
    decide +kernel
  obtain ⟨ds, hds, hfound⟩ := map_eq_ok_iff.1 (toOption_eq_some_iff.1 hrun)
  obtain ⟨d, rfl, hd⟩ := List.map_eq_singleton_iff.1 hfound
  exact ⟨d, hds, hd⟩

end ViewMarkup
