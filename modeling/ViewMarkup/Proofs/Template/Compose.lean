/-
# What a composition reads

A template composes exactly when each of its paths has a value, and the text
depends on the data through these values alone. Every one of them is in the
text.

Key theorems: `Path.resolve_eq_ok_iff`, `Template.compose_eq_ok_iff`,
`Template.compose_of_agree`, `Template.exists_value_of_compose`.
-/
import ViewMarkup.Proofs.Outcome
import ViewMarkup.Template.Basic

namespace ViewMarkup

theorem Path.resolve_eq_ok_iff {path : Path} {data : DataSource} {root : String} {v : Json} :
    path.resolve data root = .ok v ↔ data (path.relative root) = some v := by
  simp only [Path.resolve]
  cases data (path.relative root) with
  | none => simp
  | some w => simp

namespace Template

variable {t : Template} {data : DataSource} {root text : String}

theorem compose_eq_ok_iff : t.compose data root = .ok text ↔
    ∃ pieces, List.Forall₂ (fun segment piece => composeSegment data root segment = .ok piece)
      t.segments pieces ∧ String.join pieces = text := by
  rw [compose, map_eq_ok_iff]
  simp only [mapM_eq_ok_iff]

theorem composeSegment_expression {e : Expression} {piece : String} :
    composeSegment data root (.expression e) = .ok piece ↔
      ∃ v, data (e.path.relative root) = some v ∧ v.inserted = piece := by
  rw [composeSegment, map_eq_ok_iff]
  simp only [Path.resolve_eq_ok_iff]

theorem mem_expressions_iff {e : Expression} :
    e ∈ t.expressions ↔ Segment.expression e ∈ t.segments := by
  rw [expressions, List.mem_filterMap]
  constructor
  · rintro ⟨segment, hmem, hsome⟩
    cases segment with
    | literal _ => cases hsome
    | expression e' =>
      obtain rfl := Option.some.inj hsome
      exact hmem
  · exact fun hmem => ⟨_, hmem, rfl⟩

/-- Data with the same values at the paths composes to the same text. -/
theorem compose_of_agree {data' : DataSource} (h : t.compose data root = .ok text)
    (hagree : ∀ e ∈ t.expressions, data' (e.path.relative root) = data (e.path.relative root)) :
    t.compose data' root = .ok text := by
  obtain ⟨pieces, hpieces, rfl⟩ := compose_eq_ok_iff.1 h
  refine compose_eq_ok_iff.2 ⟨pieces, ?_, rfl⟩
  rw [List.forall₂_iff_zip] at hpieces ⊢
  refine ⟨hpieces.1, fun {segment piece} hmem => ?_⟩
  have hpiece := hpieces.2 hmem
  cases segment with
  | literal _ => exact hpiece
  | expression e =>
    obtain ⟨v, hv, hinserted⟩ := composeSegment_expression.1 hpiece
    have he : e ∈ t.expressions := mem_expressions_iff.2 (List.of_mem_zip hmem).1
    exact composeSegment_expression.2 ⟨v, (hagree e he).trans hv, hinserted⟩

/-- What keeps a template from composing is a path without a value. No place is
known for it yet. -/
theorem unresolved_of_compose {e : MarkupError} (h : t.compose data root = .error e) :
    ∃ path reason, e = .unresolved path reason := by
  obtain ⟨segment, -, hsegment⟩ := exists_error_of_mapM (map_eq_error_iff.1 h)
  cases segment with
  | literal text => cases hsegment
  | expression expression =>
    have hresolve := map_eq_error_iff.1 hsegment
    simp only [Path.resolve] at hresolve
    split at hresolve
    · cases hresolve
    · cases hresolve
      exact ⟨_, _, rfl⟩

theorem length_le_length_join {piece : String} : ∀ {pieces : List String},
    piece ∈ pieces → piece.length ≤ (String.join pieces).length
  | [], h => absurd h List.not_mem_nil
  | p :: pieces, h => by
    rw [String.join_cons, String.length_append]
    rcases List.mem_cons.1 h with rfl | h
    · omega
    · have := length_le_length_join h
      omega

/-- Each path of a template that composes has a value, and the text is at least
as long as what is inserted for it. -/
theorem exists_value_of_compose (h : t.compose data root = .ok text) {e : Expression}
    (he : e ∈ t.expressions) :
    ∃ v, data (e.path.relative root) = some v ∧ v.inserted.length ≤ text.length := by
  obtain ⟨pieces, hpieces, rfl⟩ := compose_eq_ok_iff.1 h
  obtain ⟨piece, hmem, hpiece⟩ := exists_mem_zip hpieces (mem_expressions_iff.1 he)
  obtain ⟨v, hv, rfl⟩ := composeSegment_expression.1 hpiece
  exact ⟨v, hv, length_le_length_join (List.of_mem_zip hmem).2⟩

end Template

end ViewMarkup
