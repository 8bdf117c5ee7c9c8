/-
# Formats written down

A format is written with its axis and all its relations, a negative number in a
condition as a dash and its magnitude. Wherever these tokens stand, they spell
the format they were written for, up to the places of its parts; all it takes is
that there is a condition wherever there are parentheses between dashes.

Key definitions: `VisualFormat.written`, `VisualFormat.unplaced`,
`VisualFormat.connections`.
Key theorems: `spellsFormat_of_written`, `SpellsFormat.ne_predicates_nil`,
`ofTokens_reads_grammar`.
-/
import ViewMarkup.Proofs.Format.Choice

namespace ViewMarkup

/-! ### The tokens of a format -/

namespace Binary

variable {f : FloatFormat}

/-- Whether the number has the sign of the negative ones. -/
def isNegative : Binary f → Bool
  | nan => false
  | infinite negative => negative
  | finite x => x.negative

theorem neg_neg (x : Binary f) : x.neg.neg = x := by
  rcases x with _ | negative | ⟨negative, rank⟩
  · rfl
  · simp [neg]
  · simp [neg, Finite.neg]

end Binary

namespace Operand

/-- Between dashes and as a priority, a number stands for itself. -/
def writtenSimple : Operand → List Token
  | .number x => [.number x]
  | .name n => [.name n]

def written : Operand → List Token
  | .number x => if x.isNegative then [.dash, .number x.neg] else [.number x]
  | .name n => [.name n]

end Operand

def Relation.written : Relation → Token
  | .equal => .equal
  | .atLeast => .atLeast
  | .atMost => .atMost

def Predicate.written (p : Predicate) : List Token :=
  p.relation.written :: (p.object.value.written ++
    p.priority.elim [] fun o => .priorityMark :: o.value.writtenSimple)

/-- Conditions with commas between them. -/
def writtenPredicates : List (Located Predicate) → List Token
  | [] => []
  | [p] => p.value.written
  | p :: q :: ps => p.value.written ++ .comma :: writtenPredicates (q :: ps)

def Connection.written : Connection → List Token
  | .flush => []
  | .standard => [.dash]
  | .spacer o => .dash :: o.value.writtenSimple ++ [.dash]
  | .predicates ps => .dash :: .parenOpen :: writtenPredicates ps ++ [.parenClose, .dash]

def ViewTerm.written (v : ViewTerm) : List Token :=
  if v.predicates = [] then [.bracketOpen, .name v.name.value, .bracketClose]
  else .bracketOpen :: .name v.name.value :: .parenOpen :: writtenPredicates v.predicates ++
    [.parenClose, .bracketClose]

def writtenSteps : List (Connection × ViewTerm) → List Token
  | [] => []
  | (c, v) :: steps => c.written ++ (v.written ++ writtenSteps steps)

def Axis.written : Axis → Token
  | .horizontal => .horizontal
  | .vertical => .vertical

def VisualFormat.written (f : VisualFormat) : List Token :=
  f.axis.written :: (f.leading.elim [] (fun c => .pipe :: c.written) ++ (f.first.written ++
    (writtenSteps f.rest ++ f.trailing.elim [] fun c => c.written ++ [.pipe])))

/-! ### Formats without places -/

def Located.unplaced {α : Type} (x : Located α) : Located α := ⟨x.value, ⟨0, 0⟩⟩

/-- The condition with the places of all its parts forgotten. -/
def Predicate.unplaced (p : Located Predicate) : Located Predicate :=
  ⟨⟨p.value.relation, p.value.object.unplaced, p.value.priority.map Located.unplaced⟩, ⟨0, 0⟩⟩

def Connection.unplaced : Connection → Connection
  | .flush => .flush
  | .standard => .standard
  | .spacer o => .spacer o.unplaced
  | .predicates ps => .predicates (ps.map Predicate.unplaced)

def ViewTerm.unplaced (v : ViewTerm) : ViewTerm :=
  ⟨v.name.unplaced, v.predicates.map Predicate.unplaced, ⟨0, 0⟩⟩

namespace VisualFormat

def unplaced (f : VisualFormat) : VisualFormat where
  axis := f.axis
  leading := f.leading.map Connection.unplaced
  first := f.first.unplaced
  rest := f.rest.map fun step => (step.1.unplaced, step.2.unplaced)
  trailing := f.trailing.map Connection.unplaced

/-- All connections of the format, from front to back. -/
def connections (f : VisualFormat) : List Connection :=
  f.leading.toList ++ f.gaps ++ f.trailing.toList

/-! ### What is written spells the format -/

theorem exists_of_map_value_cons {us : Tokens} {t : Token} {ts : List Token}
    (h : us.map Located.value = t :: ts) :
    ∃ span rest, us = ⟨t, span⟩ :: rest ∧ rest.map Located.value = ts := by
  obtain ⟨⟨_, span⟩, rest, rfl, rfl, hrest⟩ := List.map_eq_cons_iff.1 h
  exact ⟨span, rest, rfl, hrest⟩

theorem exists_of_map_value_singleton {us : Tokens} {t : Token}
    (h : us.map Located.value = [t]) : ∃ span, us = [⟨t, span⟩] := by
  obtain ⟨⟨_, span⟩, rfl, rfl⟩ := List.map_eq_singleton_iff.1 h
  exact ⟨span, rfl⟩

theorem spellsSimple_of_written {o : Operand} {us : Tokens}
    (h : us.map Located.value = o.writtenSimple) : ∃ o', SpellsSimple us o' ∧ o'.value = o := by
  cases o with
  | number x =>
    obtain ⟨span, rfl⟩ := exists_of_map_value_singleton h
    exact ⟨_, .number x span, rfl⟩
  | name n =>
    obtain ⟨span, rfl⟩ := exists_of_map_value_singleton h
    exact ⟨_, .name n span, rfl⟩

theorem spellsOperand_of_written {o : Operand} {us : Tokens}
    (h : us.map Located.value = o.written) : ∃ o', SpellsOperand us o' ∧ o'.value = o := by
  cases o with
  | number x =>
    rw [Operand.written] at h
    by_cases hx : x.isNegative = true
    · rw [if_pos hx] at h
      obtain ⟨dash, rest, rfl, hrest⟩ := exists_of_map_value_cons h
      obtain ⟨span, rfl⟩ := exists_of_map_value_singleton hrest
      exact ⟨_, .negative dash x.neg span, by rw [Binary.neg_neg]⟩
    · rw [if_neg hx] at h
      obtain ⟨span, rfl⟩ := exists_of_map_value_singleton h
      exact ⟨_, .simple (.number x span), rfl⟩
  | name n =>
    obtain ⟨span, rfl⟩ := exists_of_map_value_singleton h
    exact ⟨_, .simple (.name n span), rfl⟩

theorem spellsRelation_of_written {r : Relation} {t : Located Token} (h : t.value = r.written) :
    SpellsRelation [t] r := by
  obtain ⟨_, span⟩ := t
  obtain rfl : _ = r.written := h
  cases r with
  | equal => exact .equal span
  | atLeast => exact .atLeast span
  | atMost => exact .atMost span

theorem spellsPriority_of_written {p : Option (Located Operand)} {us : Tokens}
    (h : us.map Located.value = p.elim [] fun o => .priorityMark :: o.value.writtenSimple) :
    ∃ p', SpellsPriority us p' ∧ p'.map Located.unplaced = p.map Located.unplaced := by
  cases p with
  | none =>
    obtain rfl := List.map_eq_nil_iff.1 h
    exact ⟨none, .unwritten, rfl⟩
  | some o =>
    obtain ⟨mark, rest, rfl, hrest⟩ := exists_of_map_value_cons h
    obtain ⟨o', ho, hv⟩ := spellsSimple_of_written hrest
    exact ⟨some o', .written mark ho, by simp [Located.unplaced, hv]⟩

theorem spellsPredicate_of_written {p : Located Predicate} {us : Tokens}
    (h : us.map Located.value = p.value.written) :
    ∃ p', SpellsPredicate us p' ∧ Predicate.unplaced p' = Predicate.unplaced p := by
  obtain ⟨t, us, rfl, ht, h⟩ := List.map_eq_cons_iff.1 h
  obtain ⟨os, ps, rfl, hos, hps⟩ := List.map_eq_append_iff.1 h
  obtain ⟨o, ho, hv⟩ := spellsOperand_of_written hos
  obtain ⟨q, hq, hu⟩ := spellsPriority_of_written hps
  refine ⟨_, .mk (spellsRelation_of_written ht) ho hq, ?_⟩
  simp [Predicate.unplaced, Located.unplaced, hv, hu]

theorem spellsPredicates_of_written : ∀ {ps : List (Located Predicate)} {us : Tokens}, ps ≠ [] →
    us.map Located.value = writtenPredicates ps →
      ∃ ps', SpellsPredicates us ps' ∧ ps'.map Predicate.unplaced = ps.map Predicate.unplaced
  | [], _, hne, _ => absurd rfl hne
  | [p], us, _, h => by
    obtain ⟨p', hp, hu⟩ := spellsPredicate_of_written h
    exact ⟨[p'], .one hp, by rw [List.map_singleton, hu, List.map_singleton]⟩
  | p :: q :: ps, us, _, h => by
    obtain ⟨first, others, rfl, hfirst, hothers⟩ := List.map_eq_append_iff.1 h
    obtain ⟨comma, rest, rfl, hrest⟩ := exists_of_map_value_cons hothers
    obtain ⟨p', hp, hu⟩ := spellsPredicate_of_written hfirst
    obtain ⟨ps', hps, hus⟩ := spellsPredicates_of_written (List.cons_ne_nil q ps) hrest
    refine ⟨p' :: ps', .more comma hp hps, ?_⟩
    rw [List.map_cons, hu, hus]
    rfl

theorem spellsConnection_of_written {c : Connection} {us : Tokens} (hc : c ≠ .predicates [])
    (h : us.map Located.value = c.written) :
    ∃ c', SpellsConnection us c' ∧ c'.unplaced = c.unplaced := by
  cases c with
  | flush =>
    obtain rfl := List.map_eq_nil_iff.1 h
    exact ⟨_, .flush, rfl⟩
  | standard =>
    obtain ⟨dash, rfl⟩ := exists_of_map_value_singleton h
    exact ⟨_, .standard dash, rfl⟩
  | spacer o =>
    obtain ⟨dash, inner, rfl, hinner⟩ := exists_of_map_value_cons h
    obtain ⟨os, last, rfl, hos, hlast⟩ := List.map_eq_append_iff.1 hinner
    obtain ⟨dash', rfl⟩ := exists_of_map_value_singleton hlast
    obtain ⟨o', ho, hv⟩ := spellsSimple_of_written hos
    exact ⟨_, .spacer dash dash' ho, by simp [Connection.unplaced, Located.unplaced, hv]⟩
  | predicates ps =>
    have hne : ps ≠ [] := fun heq => hc (by rw [heq])
    obtain ⟨dash, afterDash, rfl, hdash⟩ := exists_of_map_value_cons h
    obtain ⟨opening, inner, rfl, hinner⟩ := exists_of_map_value_cons hdash
    obtain ⟨us, last, rfl, hus, hlast⟩ := List.map_eq_append_iff.1 hinner
    obtain ⟨closing, afterClosing, rfl, hclosing⟩ := exists_of_map_value_cons hlast
    obtain ⟨dash', rfl⟩ := exists_of_map_value_singleton hclosing
    obtain ⟨ps', hps, hu⟩ := spellsPredicates_of_written hne hus
    exact ⟨_, .predicates dash opening closing dash' hps, by simp [Connection.unplaced, hu]⟩

theorem spellsView_of_written {v : ViewTerm} {us : Tokens}
    (h : us.map Located.value = v.written) :
    ∃ v', SpellsView us v' ∧ v'.unplaced = v.unplaced := by
  rw [ViewTerm.written] at h
  by_cases hne : v.predicates = []
  · rw [if_pos hne] at h
    obtain ⟨opening, afterOpening, rfl, hopening⟩ := exists_of_map_value_cons h
    obtain ⟨name, afterName, rfl, hname⟩ := exists_of_map_value_cons hopening
    obtain ⟨closing, rfl⟩ := exists_of_map_value_singleton hname
    exact ⟨_, .plain opening _ name closing, by simp [ViewTerm.unplaced, Located.unplaced, hne]⟩
  · rw [if_neg hne] at h
    obtain ⟨opening, afterOpening, rfl, hopening⟩ := exists_of_map_value_cons h
    obtain ⟨name, afterName, rfl, hname⟩ := exists_of_map_value_cons hopening
    obtain ⟨o, inner, rfl, hinner⟩ := exists_of_map_value_cons hname
    obtain ⟨us, last, rfl, hus, hlast⟩ := List.map_eq_append_iff.1 hinner
    obtain ⟨c, afterClosing, rfl, hclosing⟩ := exists_of_map_value_cons hlast
    obtain ⟨closing, rfl⟩ := exists_of_map_value_singleton hclosing
    obtain ⟨ps', hps, hu⟩ := spellsPredicates_of_written hne hus
    exact ⟨_, .sized opening _ name o c closing hps,
      by simp [ViewTerm.unplaced, Located.unplaced, hu]⟩

theorem spellsSteps_of_written : ∀ {steps : List (Connection × ViewTerm)} {us : Tokens},
    (∀ step ∈ steps, step.1 ≠ .predicates []) → us.map Located.value = writtenSteps steps →
      ∃ steps', SpellsSteps us steps' ∧
        steps'.map (fun step => (step.1.unplaced, step.2.unplaced)) =
          steps.map fun step => (step.1.unplaced, step.2.unplaced)
  | [], _, _, h => by
    obtain rfl := List.map_eq_nil_iff.1 h
    exact ⟨[], .nil, rfl⟩
  | (c, v) :: steps, us, hc, h => by
    obtain ⟨cs, others, rfl, hcs, hothers⟩ := List.map_eq_append_iff.1 h
    obtain ⟨vs, rest, rfl, hvs, hrest⟩ := List.map_eq_append_iff.1 hothers
    obtain ⟨c', hc', huc⟩ := spellsConnection_of_written (hc _ List.mem_cons_self) hcs
    obtain ⟨v', hv', huv⟩ := spellsView_of_written hvs
    obtain ⟨steps', hs, hus⟩ := spellsSteps_of_written
      (fun step hstep => hc step (List.mem_cons_of_mem _ hstep)) hrest
    refine ⟨(c', v') :: steps', .cons hc' hv' hs, ?_⟩
    rw [List.map_cons, huc, huv, hus]
    rfl

theorem spellsAxis_of_written {axis : Axis} {t : Located Token} (h : t.value = axis.written) :
    SpellsAxis [t] axis := by
  obtain ⟨_, span⟩ := t
  obtain rfl : _ = axis.written := h
  cases axis with
  | horizontal => exact .horizontal span
  | vertical => exact .vertical span

theorem spellsLeading_of_written {leading : Option Connection} {us : Tokens}
    (hc : ∀ c ∈ leading, c ≠ .predicates [])
    (h : us.map Located.value = leading.elim [] fun c => .pipe :: c.written) :
    ∃ l, SpellsLeading us l ∧ l.map Connection.unplaced = leading.map Connection.unplaced := by
  cases leading with
  | none =>
    obtain rfl := List.map_eq_nil_iff.1 h
    exact ⟨none, .none, rfl⟩
  | some c =>
    obtain ⟨pipe, cs, rfl, hcs⟩ := exists_of_map_value_cons h
    obtain ⟨c', hc', hu⟩ := spellsConnection_of_written (hc c rfl) hcs
    exact ⟨some c', .some pipe hc', by rw [Option.map_some, hu, Option.map_some]⟩

theorem spellsTrailing_of_written {trailing : Option Connection} {us : Tokens}
    (hc : ∀ c ∈ trailing, c ≠ .predicates [])
    (h : us.map Located.value = trailing.elim [] fun c => c.written ++ [.pipe]) :
    ∃ t, SpellsTrailing us t ∧ t.map Connection.unplaced = trailing.map Connection.unplaced := by
  cases trailing with
  | none =>
    obtain rfl := List.map_eq_nil_iff.1 h
    exact ⟨none, .none, rfl⟩
  | some c =>
    obtain ⟨cs, last, rfl, hcs, hlast⟩ := List.map_eq_append_iff.1 h
    obtain ⟨pipe, rfl⟩ := exists_of_map_value_singleton hlast
    obtain ⟨c', hc', hu⟩ := spellsConnection_of_written (hc c rfl) hcs
    exact ⟨some c', .some pipe hc', by rw [Option.map_some, hu, Option.map_some]⟩

/-- What is written for a format spells it again, wherever its tokens stand. -/
theorem spellsFormat_of_written {f : VisualFormat} {us : Tokens}
    (hf : ∀ c ∈ f.connections, c ≠ .predicates []) (h : us.map Located.value = f.written) :
    ∃ g, SpellsFormat us g ∧ g.unplaced = f.unplaced := by
  have hleading : ∀ c ∈ f.leading, c ≠ .predicates [] := fun c hc =>
    hf c (by simp [connections, Option.mem_def.1 hc])
  have htrailing : ∀ c ∈ f.trailing, c ≠ .predicates [] := fun c hc =>
    hf c (by simp [connections, Option.mem_def.1 hc])
  have hrest : ∀ step ∈ f.rest, step.1 ≠ .predicates [] := fun step hstep =>
    hf step.1 (by simp [connections, gaps, List.mem_map_of_mem hstep])
  obtain ⟨t, afterAxis, rfl, haxis, hafter⟩ := List.map_eq_cons_iff.1 h
  obtain ⟨ls, afterLeading, rfl, hls, hitems⟩ := List.map_eq_append_iff.1 hafter
  obtain ⟨vs, afterFirst, rfl, hvs, hothers⟩ := List.map_eq_append_iff.1 hitems
  obtain ⟨ss, ts, rfl, hss, hts⟩ := List.map_eq_append_iff.1 hothers
  obtain ⟨l, hl, hul⟩ := spellsLeading_of_written hleading hls
  obtain ⟨v, hv, huv⟩ := spellsView_of_written hvs
  obtain ⟨steps, hs, hus⟩ := spellsSteps_of_written hrest hss
  obtain ⟨last, ht, hut⟩ := spellsTrailing_of_written htrailing hts
  refine ⟨⟨f.axis, l, v, steps, last⟩, .mk (spellsAxis_of_written haxis) hl hv hs ht, ?_⟩
  rw [unplaced, unplaced, hul, huv, hus, hut]

/-! ### Formats have what it takes -/

theorem SpellsPredicates.ne_nil {ts : Tokens} {ps : List (Located Predicate)}
    (h : SpellsPredicates ts ps) : ps ≠ [] := by
  cases h <;> exact List.cons_ne_nil _ _

theorem SpellsConnection.ne_predicates_nil {cs : Tokens} {c : Connection}
    (h : SpellsConnection cs c) : c ≠ .predicates [] := by
  cases h with
  | predicates _ _ _ _ hps => exact fun heq => hps.ne_nil (Connection.predicates.inj heq)
  | _ => exact Connection.noConfusion

theorem SpellsSteps.ne_predicates_nil {ss : Tokens} {steps : List (Connection × ViewTerm)}
    (h : SpellsSteps ss steps) : ∀ c ∈ steps.map Prod.fst, c ≠ .predicates [] := by
  induction h with
  | nil => exact fun c hc => absurd hc List.not_mem_nil
  | cons hc _ _ ih =>
    intro c hmem
    rcases List.mem_cons.1 hmem with rfl | hmem
    · exact hc.ne_predicates_nil
    · exact ih c hmem

theorem SpellsFormat.ne_predicates_nil {ts : Tokens} {f : VisualFormat} (h : SpellsFormat ts f) :
    ∀ c ∈ f.connections, c ≠ .predicates [] := by
  obtain ⟨_, hl, _, hs, ht⟩ := h
  intro c hmem
  rcases List.mem_append.1 hmem with hmem | hmem
  · rcases List.mem_append.1 hmem with hmem | hmem
    · cases hl with
      | none => exact absurd hmem List.not_mem_nil
      | some _ hc =>
        rw [List.mem_singleton.1 hmem]
        exact hc.ne_predicates_nil
    · exact hs.ne_predicates_nil c hmem
  · cases ht with
    | none => exact absurd hmem List.not_mem_nil
    | some _ hc =>
      rw [List.mem_singleton.1 hmem]
      exact hc.ne_predicates_nil

theorem gaps_length (f : VisualFormat) : f.gaps.length + 1 = f.views.length := by
  rw [gaps, views, List.length_cons, List.length_map, List.length_map]

/-- **Formats are read as the grammar has them.** Tokens are read as a format
exactly if they spell it, by looking ahead and by trying alike. They spell no
other format; its gaps are one fewer than its views, there are conditions in all
its parentheses, and what is written for it is read as the same format, up to
the places of its parts. -/
theorem ofTokens_reads_grammar (ts : Tokens) :
    (∀ f, ofTokens ts = .ok f ↔ SpellsFormat ts f) ∧
      (∀ f rest, (Choice.format ts).answer = some (f, rest) ↔ SpellsFormat ts f ∧ rest = []) ∧
      ∀ f, SpellsFormat ts f →
        (∀ g, SpellsFormat ts g → g = f) ∧ f.gaps.length + 1 = f.views.length ∧
        (∀ c ∈ f.connections, c ≠ .predicates []) ∧
        ∀ us : Tokens, us.map Located.value = f.written →
          ∃ g, ofTokens us = .ok g ∧ g.unplaced = f.unplaced := by
  refine ⟨fun f => ofTokens_eq_ok_iff, fun f rest => Choice.format_eq_some_iff, fun f hf => ?_⟩
  refine ⟨fun g hg => ?_, f.gaps_length, hf.ne_predicates_nil, fun us hus => ?_⟩
  · exact Except.ok.inj ((ofTokens_eq_ok_iff.2 hg).symm.trans (ofTokens_eq_ok_iff.2 hf))
  · obtain ⟨g, hg, hplaces⟩ := spellsFormat_of_written hf.ne_predicates_nil hus
    exact ⟨g, ofTokens_eq_ok_iff.2 hg, hplaces⟩

/-- The tokens of `|-(>=-8,x@5)-[a(b)]-4-[c]-|`, all in one place. -/
def overlappingTokens : Tokens :=
  ([.pipe, .dash, .parenOpen, .atLeast, .dash, .number 8, .comma, .name "x", .priorityMark,
    .number 5, .parenClose, .dash, .bracketOpen, .name "a", .parenOpen, .name "b", .parenClose,
    .bracketClose, .dash, .number 4, .dash, .bracketOpen, .name "c", .bracketClose, .dash,
    .pipe] : List Token).map fun t => ⟨t, ⟨0, 0⟩⟩

theorem overlappingTokens_read : ∃ f, SpellsFormat overlappingTokens f ∧ f.written.length = 29 ∧
    (∀ g, SpellsFormat overlappingTokens g → g = f) ∧ f.gaps.length + 1 = f.views.length ∧
    (∀ c ∈ f.connections, c ≠ .predicates []) ∧
    ∀ us : Tokens, us.map Located.value = f.written →
      ∃ g, ofTokens us = .ok g ∧ g.unplaced = f.unplaced := by
  have hread : ((ofTokens overlappingTokens).map fun f => f.written.length).toOption = some 29 := by
    decide +kernel
  cases h : ofTokens overlappingTokens with
  | error stuck =>
    rw [h] at hread
    cases hread
  | ok f =>
    rw [h] at hread
    have hf := (ofTokens_reads_grammar overlappingTokens).1 f |>.1 h
    exact ⟨f, hf, Option.some.inj hread, (ofTokens_reads_grammar overlappingTokens).2.2 f hf⟩

end VisualFormat

end ViewMarkup
