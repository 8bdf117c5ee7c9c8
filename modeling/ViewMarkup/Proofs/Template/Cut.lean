/-
# How a template is cut

A body ends at the first brace that balances the one that opens it, and an
expression starts at the first opening after the one before it. So the scan of a
text gives exactly the segments of its cut: literals without an opening, and
expressions whose bodies are balanced.

Key definitions: `Closes`, `Balanced`, `NoOpening`, `Template.Cut`.
Key theorems: `Template.spanBody_eq_some_iff`, `Template.scan_opening`,
`Template.scan_eq_ok_iff`.
-/
import Mathlib.Data.List.Infix
import ViewMarkup.Outcome
import ViewMarkup.Proofs.Text.Span
import ViewMarkup.Template.Basic

namespace ViewMarkup

/-! ### Braces -/

/-- The braces that the characters close are the ones they open and `depth` from
before, and at no point have they closed more. -/
structure Closes (depth : Nat) (body : List Char) : Prop where
  count_le : ∀ part, part <+: body → part.count '}' ≤ part.count '{' + depth
  count_eq : body.count '}' = body.count '{' + depth

/-- Every brace belongs to a pair. -/
def Balanced (body : List Char) : Prop := Closes 0 body

section Closes

variable {depth : Nat} {body : List Char}

theorem closes_nil : Closes depth [] ↔ depth = 0 := by
  constructor
  · intro h
    have heq := h.count_eq
    simp only [List.count_nil] at heq
    omega
  · rintro rfl
    refine ⟨fun part hpart => ?_, rfl⟩
    rw [List.prefix_nil.1 hpart]
    exact le_rfl

theorem forall_prefix_cons {c : Char} {P : List Char → Prop} :
    (∀ part, part <+: c :: body → P part) ↔ P [] ∧ ∀ part, part <+: body → P (c :: part) := by
  constructor
  · intro h
    exact ⟨h [] (List.nil_prefix ..), fun part hpart => h _ ((List.prefix_cons_inj c).2 hpart)⟩
  · rintro ⟨hnil, hcons⟩ part hpart
    rcases List.prefix_cons_iff.1 hpart with rfl | ⟨rest, rfl, hrest⟩
    · exact hnil
    · exact hcons rest hrest

theorem closes_cons {c : Char} : Closes depth (c :: body) ↔
    (∀ part, part <+: body → (c :: part).count '}' ≤ (c :: part).count '{' + depth) ∧
      (c :: body).count '}' = (c :: body).count '{' + depth := by
  constructor
  · exact fun h => ⟨(forall_prefix_cons.1 h.count_le).2, h.count_eq⟩
  · exact fun h => ⟨forall_prefix_cons.2 ⟨Nat.zero_le _, h.1⟩, h.2⟩

theorem closes_open : Closes depth ('{' :: body) ↔ Closes (depth + 1) body := by
  have hclose (part : List Char) : ('{' :: part).count '}' = part.count '}' :=
    List.count_cons_of_ne (by decide)
  have hopen (part : List Char) : ('{' :: part).count '{' + depth = part.count '{' + (depth + 1) := by
    rw [List.count_cons_self, Nat.add_assoc, Nat.add_comm 1]
  rw [closes_cons]
  simp only [hclose, hopen]
  exact ⟨fun h => ⟨h.1, h.2⟩, fun h => ⟨h.count_le, h.count_eq⟩⟩

theorem closes_close : Closes (depth + 1) ('}' :: body) ↔ Closes depth body := by
  have hclose (part : List Char) : ('}' :: part).count '}' = part.count '}' + 1 :=
    List.count_cons_self
  have hopen (part : List Char) : ('}' :: part).count '{' = part.count '{' :=
    List.count_cons_of_ne (by decide)
  rw [closes_cons]
  simp only [hclose, hopen, ← Nat.add_assoc, Nat.add_le_add_iff_right, Nat.add_right_cancel_iff]
  exact ⟨fun h => ⟨h.1, h.2⟩, fun h => ⟨h.count_le, h.count_eq⟩⟩

theorem not_closes_close : ¬ Closes 0 ('}' :: body) := by
  intro h
  exact absurd (h.count_le ['}'] ⟨body, rfl⟩) (by decide)

theorem closes_other {c : Char} (hopen : c ≠ '{') (hclose : c ≠ '}') :
    Closes depth (c :: body) ↔ Closes depth body := by
  rw [closes_cons]
  simp only [List.count_cons_of_ne hopen, List.count_cons_of_ne hclose]
  exact ⟨fun h => ⟨h.1, h.2⟩, fun h => ⟨h.count_le, h.count_eq⟩⟩

end Closes

namespace Template

theorem map_cons_eq_some_iff {c : Char} {x : Option (List Char × List Char)}
    {body rest : List Char} :
    (x.map fun (b, r) => (c :: b, r)) = some (body, rest) ↔
      ∃ b, body = c :: b ∧ x = some (b, rest) := by
  rw [Option.map_eq_some_iff]
  constructor
  · rintro ⟨⟨b, r⟩, hx, heq⟩
    cases heq
    exact ⟨b, rfl, hx⟩
  · rintro ⟨b, rfl, hx⟩
    exact ⟨_, hx, rfl⟩

/-- A character in front of a body belongs to it, unless it closes it. -/
theorem cons_eq_append_iff {c : Char} {cs body rest : List Char} {depth depth' : Nat}
    (hnil : c ≠ '}' ∨ depth ≠ 0)
    (hcons : ∀ b, Closes depth (c :: b) ↔ Closes depth' b) :
    c :: cs = body ++ '}' :: rest ∧ Closes depth body ↔
      ∃ b, body = c :: b ∧ cs = b ++ '}' :: rest ∧ Closes depth' b := by
  constructor
  · rintro ⟨hcs, hcloses⟩
    cases body with
    | nil =>
      rcases hnil with hc | hdepth
      · exact absurd (List.cons.inj hcs).1 hc
      · exact absurd (closes_nil.1 hcloses) hdepth
    | cons b body =>
      obtain ⟨rfl, hrest⟩ := List.cons.inj hcs
      exact ⟨body, rfl, hrest, (hcons body).1 hcloses⟩
  · rintro ⟨b, rfl, rfl, hcloses⟩
    exact ⟨rfl, (hcons b).2 hcloses⟩

/-- The body ends before the first brace that balances the opening. -/
theorem spanBody_eq_some_iff {depth : Nat} {cs body rest : List Char} :
    spanBody depth cs = some (body, rest) ↔ cs = body ++ '}' :: rest ∧ Closes depth body := by
  fun_induction spanBody depth cs generalizing body with
  | case1 depth => simp
  | case2 depth cs ih =>
    rw [map_cons_eq_some_iff, cons_eq_append_iff (.inl (by decide)) fun b => closes_open]
    simp only [ih]
  | case3 cs =>
    constructor
    · intro h
      cases h
      exact ⟨rfl, closes_nil.2 rfl⟩
    · rintro ⟨hcs, hcloses⟩
      cases body with
      | nil =>
        cases hcs
        rfl
      | cons b body =>
        obtain ⟨rfl, -⟩ := List.cons.inj hcs
        exact absurd hcloses not_closes_close
  | case4 depth cs ih =>
    rw [map_cons_eq_some_iff, cons_eq_append_iff (.inr (Nat.succ_ne_zero depth))
      fun b => closes_close]
    simp only [ih]
  | case5 depth c cs hopen hzero hsucc ih =>
    have hclose : c ≠ '}' := by
      rintro rfl
      cases depth with
      | zero => exact hzero rfl rfl
      | succ depth => exact hsucc depth rfl rfl
    rw [map_cons_eq_some_iff, cons_eq_append_iff (.inl hclose)
      fun b => closes_other (fun h => hopen h) hclose]
    simp only [ih]

/-! ### Openings -/

/-- How an expression starts. -/
def opening : List Char := ['#', '{']

/-- No expression starts in the text. -/
def NoOpening (text : List Char) : Prop := ¬ opening <:+: text

theorem noOpening_nil : NoOpening [] := by
  intro h
  exact absurd (List.infix_nil.1 h) (by decide)

theorem noOpening_cons {c : Char} {cs : List Char} :
    NoOpening (c :: cs) ↔ ¬ (c = '#' ∧ cs.head? = some '{') ∧ NoOpening cs := by
  have hstarts : opening <+: c :: cs ↔ c = '#' ∧ cs.head? = some '{' := by
    rw [opening, List.cons_prefix_cons, List.head?_eq_some_iff]
    refine and_congr eq_comm ⟨?_, ?_⟩
    · rintro ⟨rest, rfl⟩
      exact ⟨rest, rfl⟩
    · rintro ⟨rest, rfl⟩
      exact ⟨rest, rfl⟩
  rw [NoOpening, NoOpening, List.infix_cons_iff, not_or, hstarts]

/-- A text has no opening, or a first one. -/
theorem noOpening_or_first : ∀ cs : List Char, NoOpening cs ∨
    ∃ before after, NoOpening before ∧ cs = before ++ '#' :: '{' :: after
  | [] => .inl noOpening_nil
  | c :: cs => by
    by_cases hfirst : c = '#' ∧ cs.head? = some '{'
    · obtain ⟨rfl, hhead⟩ := hfirst
      obtain ⟨after, rfl⟩ := List.head?_eq_some_iff.1 hhead
      exact .inr ⟨[], after, noOpening_nil, rfl⟩
    · rcases noOpening_or_first cs with hnone | ⟨before, after, hbefore, rfl⟩
      · exact .inl (noOpening_cons.2 ⟨hfirst, hnone⟩)
      · refine .inr ⟨c :: before, after, noOpening_cons.2 ⟨fun h => hfirst ?_, hbefore⟩, rfl⟩
        obtain ⟨rest, rfl⟩ := List.head?_eq_some_iff.1 h.2
        exact ⟨h.1, rfl⟩

/-! ### The scan -/

variable {source : String}

theorem scan_cons {c : Char} {cs : List Char} (h : ¬ (c = '#' ∧ cs.head? = some '{'))
    (offset : Nat) (literal : List Char) :
    scan source offset literal (c :: cs) =
      scan source (offset + c.utf8Size) (c :: literal) cs := by
  rw [scan]
  rintro rest rfl rfl
  exact h ⟨rfl, rfl⟩

/-- A text without an opening is one literal, with what is held before it. -/
theorem scan_noOpening : ∀ {cs : List Char} (offset : Nat) (literal : List Char), NoOpening cs →
    scan source offset literal cs = .ok (withLiteral (literal.reverse ++ cs) [])
  | [], offset, literal, _ => by rw [scan, List.append_nil]
  | c :: cs, offset, literal, h => by
    obtain ⟨hfirst, hrest⟩ := noOpening_cons.1 h
    rw [scan_cons hfirst, scan_noOpening _ _ hrest, List.reverse_cons, List.append_assoc,
      List.singleton_append]

/-- Up to the first opening there is nothing but a literal. -/
theorem scan_before : ∀ {before : List Char} (offset : Nat) (literal after : List Char),
    NoOpening before →
    scan source offset literal (before ++ '#' :: '{' :: after) =
      scan source (offset + byteLength before) (before.reverse ++ literal) ('#' :: '{' :: after)
  | [], _, _, _, _ => rfl
  | c :: before, offset, literal, after, h => by
    obtain ⟨hfirst, hrest⟩ := noOpening_cons.1 h
    have hfirst : ¬ (c = '#' ∧ (before ++ '#' :: '{' :: after).head? = some '{') := by
      rintro ⟨hc, hhead⟩
      cases before with
      | nil => exact absurd (Option.some.inj hhead) (by decide)
      | cons d before => exact hfirst ⟨hc, hhead⟩
    rw [List.cons_append, scan_cons hfirst, scan_before _ _ _ hrest, byteLength, Nat.add_assoc,
      List.reverse_cons, List.append_assoc, List.singleton_append]

/-- An opening that is never balanced ends the scan. -/
theorem scan_unbalanced {after : List Char} (h : spanBody 0 after = none) (offset : Nat)
    (literal : List Char) :
    scan source offset literal ('#' :: '{' :: after) =
      .error { fault := .unterminatedExpression source offset } := by
  rw [scan]
  split
  · rfl
  · rename_i hsome
    rw [h] at hsome
    cases hsome

/-- Past an opening that is balanced, the body is read and then the rest. -/
theorem scan_balanced {after body rest : List Char} (h : spanBody 0 after = some (body, rest))
    (offset : Nat) (literal : List Char) :
    scan source offset literal ('#' :: '{' :: after) = do
      let stop := offset + 2 + byteLength body + 1
      let e ← Expression.parse body ⟨offset, stop⟩
      let segments ← scan source stop [] rest
      return withLiteral literal.reverse (.expression e :: segments) := by
  rw [scan]
  split
  · rename_i hnone
    rw [h] at hnone
    cases hnone
  · rename_i body' rest' hsome
    rw [h] at hsome
    cases hsome
    rfl

/-- The segments are those of the characters, the first of them at the offset: up
to the first opening a literal, the expression that starts there, and so on. -/
inductive Cut : Nat → List Char → List Segment → Prop
  | last {offset : Nat} {text : List Char} (h : NoOpening text) :
    Cut offset text (withLiteral text [])
  | expression {offset : Nat} {before body rest : List Char} {e : Expression}
    {segments : List Segment} (hbefore : NoOpening before) (hbody : Balanced body)
    (he : Expression.parse body ⟨offset + byteLength before,
      offset + byteLength before + 2 + byteLength body + 1⟩ = .ok e)
    (h : Cut (offset + byteLength before + 2 + byteLength body + 1) rest segments) :
    Cut offset (before ++ '#' :: '{' :: (body ++ '}' :: rest))
      (withLiteral before (.expression e :: segments))

theorem Cut.scan {offset : Nat} {cs : List Char} {segments : List Segment}
    (h : Cut offset cs segments) : Template.scan source offset [] cs = .ok segments := by
  induction h with
  | last h => exact scan_noOpening _ [] h
  | expression hbefore hbody he _ ih =>
    rw [scan_before _ _ _ hbefore, scan_balanced (spanBody_eq_some_iff.2 ⟨rfl, hbody⟩),
      List.append_nil, List.reverse_reverse]
    simp only [he, ih]
    rfl

theorem cut_of_scan {offset : Nat} {cs : List Char} {segments : List Segment}
    (h : scan source offset [] cs = .ok segments) : Cut offset cs segments := by
  induction hlength : cs.length using Nat.strong_induction_on generalizing offset cs segments with
  | _ n ih =>
    rcases noOpening_or_first cs with hnone | ⟨before, after, hbefore, rfl⟩
    · rw [scan_noOpening _ _ hnone] at h
      cases h
      exact .last hnone
    · rw [scan_before _ _ _ hbefore] at h
      cases hafter : spanBody 0 after with
      | none =>
        rw [scan_unbalanced hafter] at h
        cases h
      | some found =>
        obtain ⟨body, rest⟩ := found
        rw [scan_balanced hafter, List.append_nil, List.reverse_reverse] at h
        obtain ⟨e, he, h⟩ := bind_eq_ok_iff.1 h
        obtain ⟨others, hothers, h⟩ := bind_eq_ok_iff.1 h
        cases h
        obtain ⟨rfl, hbody⟩ := spanBody_eq_some_iff.1 hafter
        refine .expression hbefore hbody he (ih rest.length ?_ hothers rfl)
        simp only [← hlength, List.length_append, List.length_cons]
        omega

/-- The scan succeeds with the segments of the cut, and only so. -/
theorem scan_eq_ok_iff {offset : Nat} {cs : List Char} {segments : List Segment} :
    scan source offset [] cs = .ok segments ↔ Cut offset cs segments :=
  ⟨cut_of_scan, Cut.scan⟩

end Template

end ViewMarkup
