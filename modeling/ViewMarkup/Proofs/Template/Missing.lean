/-
# What a composition misses

A path into JSON can be followed segment by segment, so what has a value at the
end has one all along, and a path without a value leaves the data at one segment:
up to there it has values, and from there on none, however it goes on. A template
composes exactly if all its paths have values, and the text is then its literals
and these values in their order; if not, the error names the first path without a
value and the segment at which it leaves the data.

Key definitions: `Json.LeavesAt`, `Template.Shows`.
Key theorems: `Json.lookup_append`, `Json.LeavesAt.unique`, `Path.resolve_lookup_eq_error`,
`Template.composes_or_reports_first_missing`.
-/
import ViewMarkup.Proofs.Json.Replace
import ViewMarkup.Proofs.Template.Compose
import ViewMarkup.Proofs.Template.Writing

namespace ViewMarkup

/-! ### Paths without a value -/

namespace Json

variable {v : Json}

theorem lookup_append : ∀ (v : Json) (p q : List String),
    v.lookup (p ++ q) = (v.lookup p).bind (lookup · q)
  | _, [], _ => rfl
  | v, s :: p, q => by
    rw [List.cons_append, lookup_cons, lookup_cons, Option.bind_assoc]
    exact congrArg _ (funext fun child => lookup_append child p q)

/-- What has a value at its end has one at every step to it. -/
theorem isSome_lookup_of_prefix {p q : List String} (h : (v.lookup q).isSome) (hpq : p <+: q) :
    (v.lookup p).isSome := by
  obtain ⟨rest, rfl⟩ := hpq
  rw [lookup_append] at h
  exact Option.isSome_of_isSome_bind h

theorem lookup_eq_none_of_prefix {p q : List String} (h : v.lookup p = none) (hpq : p <+: q) :
    v.lookup q = none := by
  obtain ⟨rest, rfl⟩ := hpq
  rw [lookup_append, h]
  rfl

/-- The path leaves the data at this segment: all that is shorter has a value, and
with the segment there is none, however the path goes on. -/
def LeavesAt (v : Json) (path : List String) (segment : String) : Prop :=
  ∃ before after, path = before ++ segment :: after ∧
    (∀ p, p <+: before → (v.lookup p).isSome) ∧
    ∀ more, v.lookup (before ++ segment :: more) = none

/-- The path leaves the data at no other of its segments. -/
theorem LeavesAt.unique {path : List String} {segment other : String}
    (h : v.LeavesAt path segment) (h' : v.LeavesAt path other) : other = segment := by
  obtain ⟨before, after, rfl, hbefore, hnone⟩ := h
  obtain ⟨before', after', heq, hbefore', hnone'⟩ := h'
  -- a longer part before the segment would go through the place where the values end
  have hcut {front front' : List String} {s s' : String} {back back' : List String}
      (heq : front ++ s :: back = front' ++ s' :: back')
      (hfront' : ∀ p, p <+: front' → (v.lookup p).isSome)
      (hnone : ∀ more, v.lookup (front ++ s :: more) = none) : ¬ front.length < front'.length := by
    intro hlt
    have hprefix : front ++ [s] <+: front' := List.prefix_of_prefix_length_le
      (heq ▸ ⟨back, by simp⟩) ⟨s' :: back', rfl⟩
      (by rwa [List.length_append, List.length_singleton])
    have hsome := hfront' _ hprefix
    rw [hnone []] at hsome
    cases hsome
  have hlength : before.length = before'.length := by
    have := hcut heq hbefore' hnone
    have := hcut heq.symm hbefore hnone'
    omega
  exact (List.cons.inj (List.append_inj heq hlength).2).1.symm

end Json

/-- The search for the segment that is missing, once the part of the path before it
has been seen to have a value. -/
theorem Path.firstMissing?_lookup {v : Json} : ∀ {seen rest : List String},
    (v.lookup seen).isSome → v.lookup (seen ++ rest) = none →
      ∃ segment, firstMissing? v.lookup seen rest = some segment ∧
        v.LeavesAt (seen ++ rest) segment
  | seen, [], hseen, hnone => by
    rw [List.append_nil] at hnone
    rw [hnone] at hseen
    cases hseen
  | seen, segment :: rest, hseen, hnone => by
    rw [firstMissing?]
    cases hnext : v.lookup (seen ++ [segment]) with
    | none =>
      refine ⟨segment, rfl, seen, rest, rfl, fun p hp => ?_, fun more => ?_⟩
      · exact Json.isSome_lookup_of_prefix hseen hp
      · exact Json.lookup_eq_none_of_prefix hnext ⟨more, by simp⟩
    | some child =>
      have hsplit : seen ++ segment :: rest = (seen ++ [segment]) ++ rest := by simp
      rw [hsplit] at hnone ⊢
      exact firstMissing?_lookup (Option.isSome_of_eq_some hnext) hnone

/-- A path without a value is reported with the segment at which it leaves the
data. -/
theorem Path.resolve_lookup_eq_error {path : Path} {v : Json} {root : String} {e : MarkupError} :
    path.resolve v.lookup root = .error e ↔ ∃ segment, v.LeavesAt (path.relative root) segment ∧
      e = .unresolved path.text ("no value for '" ++ segment ++ "'") := by
  rw [resolve]
  cases hvalue : v.lookup (path.relative root) with
  | some w =>
    refine iff_of_false (by simp) ?_
    rintro ⟨segment, ⟨before, after, hpath, -, hnone⟩, -⟩
    rw [hpath, hnone] at hvalue
    cases hvalue
  | none =>
    obtain ⟨segment, hfirst, hleaves⟩ := @firstMissing?_lookup v [] (path.relative root) rfl hvalue
    rw [List.nil_append] at hleaves
    simp only [hfirst, Option.getD_some, Except.error.injEq]
    constructor
    · rintro rfl
      exact ⟨segment, hleaves, rfl⟩
    · rintro ⟨other, hother, rfl⟩
      rw [hleaves.unique hother]

/-! ### Compositions -/

namespace Template

variable {t : Template} {v : Json} {root text : String}

/-- The text that stands for a segment: a literal stands for itself, and an
expression for what is inserted for the value of its path. -/
inductive Shows (v : Json) (root : String) : Segment → String → Prop
  | literal (text : String) : Shows v root (.literal text) text
  | expression {e : Expression} {w : Json} (h : v.lookup (e.path.relative root) = some w) :
      Shows v root (.expression e) w.inserted

theorem shows_iff {segment : Segment} {piece : String} :
    composeSegment v.lookup root segment = .ok piece ↔ Shows v root segment piece := by
  cases segment with
  | literal text =>
    rw [composeSegment, Except.ok.injEq]
    constructor
    · rintro rfl
      exact .literal _
    · rintro ⟨⟩
      rfl
  | expression e =>
    rw [composeSegment_expression]
    constructor
    · rintro ⟨w, hw, rfl⟩
      exact .expression hw
    · rintro (_ | hw)
      exact ⟨_, hw, rfl⟩

theorem composeSegment_eq_error {segment : Segment} {e : MarkupError} :
    composeSegment v.lookup root segment = .error e ↔ ∃ expression,
      segment = .expression expression ∧ expression.path.resolve v.lookup root = .error e := by
  cases segment with
  | literal text => simp [composeSegment]
  | expression expression => simp [composeSegment, map_eq_error_iff]

/-- Segments that show something are those whose expressions have values. -/
theorem exists_shows_iff {segments : List Segment} :
    (∀ segment ∈ segments, ∃ piece, Shows v root segment piece) ↔
      ∀ e ∈ segments.filterMap Segment.expression?, (v.lookup (e.path.relative root)).isSome := by
  simp only [List.mem_filterMap]
  constructor
  · rintro h e ⟨segment, hmem, hsome⟩
    obtain ⟨piece, hpiece⟩ := h segment hmem
    cases hpiece with
    | literal => cases hsome
    | expression hw =>
      cases hsome
      exact Option.isSome_of_eq_some hw
  · intro h segment hmem
    cases segment with
    | literal text => exact ⟨text, .literal text⟩
    | expression e =>
      obtain ⟨w, hw⟩ := Option.isSome_iff_exists.1 (h e ⟨_, hmem, rfl⟩)
      exact ⟨_, .expression hw⟩

theorem compose_lookup_eq_ok_iff : t.compose v.lookup root = .ok text ↔
    ∃ pieces, List.Forall₂ (Shows v root) t.segments pieces ∧ String.join pieces = text := by
  simp only [compose_eq_ok_iff, shows_iff]

/-- What keeps a template from composing is the first of its paths that has no
value. -/
theorem compose_lookup_eq_error {err : MarkupError} (h : t.compose v.lookup root = .error err) :
    ∃ before e after, t.expressions = before ++ e :: after ∧
      (∀ f ∈ before, (v.lookup (f.path.relative root)).isSome) ∧
      e.path.resolve v.lookup root = .error err := by
  obtain ⟨before, segment, after, hsegments, hbefore, hsegment⟩ :=
    mapM_eq_error_iff.1 (map_eq_error_iff.1 h)
  obtain ⟨e, rfl, he⟩ := composeSegment_eq_error.1 hsegment
  refine ⟨before.filterMap Segment.expression?, e, after.filterMap Segment.expression?, ?_, ?_, he⟩
  · rw [expressions, hsegments, List.filterMap_append, List.filterMap_cons]
    rfl
  · simp only [shows_iff] at hbefore
    exact exists_shows_iff.1 hbefore

theorem exists_compose_iff : (∃ text, t.compose v.lookup root = .ok text) ↔
    ∀ e ∈ t.expressions, (v.lookup (e.path.relative root)).isSome := by
  constructor
  · rintro ⟨text, htext⟩
    obtain ⟨pieces, hpieces, -⟩ := compose_lookup_eq_ok_iff.1 htext
    refine exists_shows_iff.1 fun segment hmem => ?_
    obtain ⟨piece, -, hpiece⟩ := exists_mem_zip hpieces hmem
    exact ⟨piece, hpiece⟩
  · intro h
    cases hcompose : t.compose v.lookup root with
    | ok text => exact ⟨text, rfl⟩
    | error err =>
      obtain ⟨before, e, after, hsplit, -, he⟩ := compose_lookup_eq_error hcompose
      have hvalue := h e (hsplit ▸ List.mem_append_right _ List.mem_cons_self)
      obtain ⟨w, hw⟩ := Option.isSome_iff_exists.1 hvalue
      rw [Path.resolve_eq_ok_iff.2 hw] at he
      cases he

/-- Literals alone show the text that they were cut from. -/
theorem join_of_shows {source : String} : ∀ {segments : List Segment} {pieces : List String},
    segments.filterMap Segment.expression? = [] → List.Forall₂ (Shows v root) segments pieces →
      (String.join pieces).toList = segments.flatMap (Segment.portion source)
  | [], _, _, .nil => rfl
  | .literal text :: segments, _, hliteral, .cons (.literal _) h => by
    have hrest : segments.filterMap Segment.expression? = [] := hliteral
    rw [String.join_cons, String.toList_append, List.flatMap_cons, join_of_shows hrest h]
    rfl
  | .expression e :: segments, _, hliteral, _ => by cases hliteral

/-- **A composition succeeds, or reports the first path that has no value.** A
template composes exactly if each of its expressions has a value, and then to what
its segments show, in their order; without expressions that is the text it was
read from. If not, the error is that of the first expression without a value, and
names its path and the segment at which this leaves the data. -/
theorem composes_or_reports_first_missing {source : String} (hparse : parse source = .ok t)
    (v : Json) (root : String) :
    ((∃ text, t.compose v.lookup root = .ok text) ↔
      ∀ e ∈ t.expressions, (v.lookup (e.path.relative root)).isSome) ∧
    (∀ text, t.compose v.lookup root = .ok text ↔
      ∃ pieces, List.Forall₂ (Shows v root) t.segments pieces ∧ String.join pieces = text) ∧
    (t.expressions = [] → t.compose v.lookup root = .ok source) ∧
    ∀ err, t.compose v.lookup root = .error err → ∃ before e after segment,
      t.expressions = before ++ e :: after ∧
      (∀ f ∈ before, (v.lookup (f.path.relative root)).isSome) ∧
      v.LeavesAt (e.path.relative root) segment ∧
      err = .unresolved e.path.text ("no value for '" ++ segment ++ "'") := by
  refine ⟨exists_compose_iff, fun text => compose_lookup_eq_ok_iff, fun hliteral => ?_, ?_⟩
  · obtain ⟨text, htext⟩ := (@exists_compose_iff t v root).2 fun e he => by
      rw [hliteral] at he
      cases he
    obtain ⟨pieces, hpieces, rfl⟩ := compose_lookup_eq_ok_iff.1 htext
    have hsource : String.join pieces = source := String.toList_inj.1
      ((join_of_shows hliteral hpieces).trans (isCut_of_parse hparse).joined)
    rw [htext, hsource]
  · intro err herr
    obtain ⟨before, e, after, hsplit, hbefore, he⟩ := compose_lookup_eq_error herr
    obtain ⟨segment, hleaves, rfl⟩ := Path.resolve_lookup_eq_error.1 he
    exact ⟨before, e, after, segment, hsplit, hbefore, hleaves, rfl⟩

/-- One order, of which only the total is known. -/
def orderData : Json :=
  .object [("orders", .array [.object [("total", .number (.integer 3))]])]

def orderText : String := "#\x7bobject.orders.0.total\x7d for #\x7borders.0.payer.name\x7d"

theorem orderText_reports : ∃ t, parse orderText = .ok t ∧
    t.compose orderData.lookup "object" =
      .error (.unresolved "orders.0.payer.name" "no value for 'payer'") ∧
    ∃ before e after segment, t.expressions = before ++ e :: after ∧
      (∀ f ∈ before, (orderData.lookup (f.path.relative "object")).isSome) ∧
      orderData.LeavesAt (e.path.relative "object") segment ∧
      MarkupError.unresolved "orders.0.payer.name" "no value for 'payer'" =
        .unresolved e.path.text ("no value for '" ++ segment ++ "'") := by
  have hread : (parse orderText).toOption.map (fun t => t.compose orderData.lookup "object") =
      some (.error (.unresolved "orders.0.payer.name" "no value for 'payer'")) := by
    decide +kernel
  obtain ⟨t, ht, hcompose⟩ := Option.map_eq_some_iff.1 hread
  have hparse := toOption_eq_some_iff.1 ht
  exact ⟨t, hparse, hcompose,
    (composes_or_reports_first_missing hparse orderData "object").2.2.2 _ hcompose⟩

end Template

end ViewMarkup
