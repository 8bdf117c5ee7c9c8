/-
# The grammar of visual formats

    format     ::= ("H:" | "V:")? ("|" connection)? view (connection view)* (connection "|")?
    connection ::= "" | "-" | "-" simple "-" | "-" "(" predicates ")" "-"
    view       ::= "[" name ("(" predicates ")")? "]"
    predicates ::= predicate ("," predicate)*
    predicate  ::= relation? operand ("@" simple)?
    operand    ::= simple | "-" number
    simple     ::= number | name

For each of these a relation says which tokens spell which tree, without regard
to how the tokens are read. `ofTokens` succeeds on exactly the tokens of the
grammar, with their tree: a reader takes what is spelled at the front and leaves
the rest alone, as long as the rest does not go on with what was read.

Key definitions: `SpellsFormat` and the relations it is made of.
Key theorems: `predicates_eq_ok_iff`, `connection_spells`,
`connection_of_spells`, `view_eq_ok_iff`, `chain_eq_ok_iff`,
`ofTokens_eq_ok_iff`.
-/
import ViewMarkup.Format.Parser

namespace ViewMarkup.VisualFormat

/-! ### What tokens spell -/

/-- From the start of the first token to the end of the last one. -/
def cover (ts : Tokens) : Span :=
  ⟨startOf ts, (ts.getLast?.map fun t => t.span.stop).getD 0⟩

inductive SpellsSimple : Tokens → Located Operand → Prop
  | number (x : Double) (span : Span) : SpellsSimple [⟨.number x, span⟩] ⟨.number x, span⟩
  | name (n : String) (span : Span) : SpellsSimple [⟨.name n, span⟩] ⟨.name n, span⟩

inductive SpellsOperand : Tokens → Located Operand → Prop
  | simple {ts : Tokens} {o : Located Operand} (h : SpellsSimple ts o) : SpellsOperand ts o
  | negative (dash : Span) (x : Double) (span : Span) :
    SpellsOperand [⟨.dash, dash⟩, ⟨.number x, span⟩] ⟨.number x.neg, ⟨dash.start, span.stop⟩⟩

/-- Without a relation equality is meant. -/
inductive SpellsRelation : Tokens → Relation → Prop
  | unwritten : SpellsRelation [] .equal
  | equal (span : Span) : SpellsRelation [⟨.equal, span⟩] .equal
  | atLeast (span : Span) : SpellsRelation [⟨.atLeast, span⟩] .atLeast
  | atMost (span : Span) : SpellsRelation [⟨.atMost, span⟩] .atMost

inductive SpellsPriority : Tokens → Option (Located Operand) → Prop
  | unwritten : SpellsPriority [] none
  | written (mark : Span) {ts : Tokens} {o : Located Operand} (h : SpellsSimple ts o) :
    SpellsPriority (⟨.priorityMark, mark⟩ :: ts) (some o)

inductive SpellsPredicate : Tokens → Located Predicate → Prop
  | mk {rs os ps : Tokens} {r : Relation} {o : Located Operand} {p : Option (Located Operand)}
    (hr : SpellsRelation rs r) (ho : SpellsOperand os o) (hp : SpellsPriority ps p) :
    SpellsPredicate (rs ++ os ++ ps) ⟨⟨r, o, p⟩, cover (rs ++ os ++ ps)⟩

inductive SpellsPredicates : Tokens → List (Located Predicate) → Prop
  | one {ts : Tokens} {p : Located Predicate} (h : SpellsPredicate ts p) : SpellsPredicates ts [p]
  | more {ts us : Tokens} {p : Located Predicate} {ps : List (Located Predicate)} (comma : Span)
    (h : SpellsPredicate ts p) (hs : SpellsPredicates us ps) :
    SpellsPredicates (ts ++ ⟨.comma, comma⟩ :: us) (p :: ps)

inductive SpellsConnection : Tokens → Connection → Prop
  | flush : SpellsConnection [] .flush
  | standard (dash : Span) : SpellsConnection [⟨.dash, dash⟩] .standard
  | spacer (dash dash' : Span) {ts : Tokens} {o : Located Operand} (h : SpellsSimple ts o) :
    SpellsConnection (⟨.dash, dash⟩ :: ts ++ [⟨.dash, dash'⟩]) (.spacer o)
  | predicates (dash opening closing dash' : Span) {ts : Tokens} {ps : List (Located Predicate)}
    (h : SpellsPredicates ts ps) :
    SpellsConnection
      (⟨.dash, dash⟩ :: ⟨.parenOpen, opening⟩ :: ts ++ [⟨.parenClose, closing⟩, ⟨.dash, dash'⟩])
      (.predicates ps)

inductive SpellsView : Tokens → ViewTerm → Prop
  | plain (opening : Span) (n : String) (span closing : Span) :
    SpellsView [⟨.bracketOpen, opening⟩, ⟨.name n, span⟩, ⟨.bracketClose, closing⟩]
      ⟨⟨n, span⟩, [], ⟨opening.start, closing.stop⟩⟩
  | sized (opening : Span) (n : String) (span o c closing : Span) {ts : Tokens}
    {ps : List (Located Predicate)} (h : SpellsPredicates ts ps) :
    SpellsView
      (⟨.bracketOpen, opening⟩ :: ⟨.name n, span⟩ :: ⟨.parenOpen, o⟩ :: ts ++
        [⟨.parenClose, c⟩, ⟨.bracketClose, closing⟩])
      ⟨⟨n, span⟩, ps, ⟨opening.start, closing.stop⟩⟩

/-- Connections, each with the view after it. -/
inductive SpellsSteps : Tokens → List (Connection × ViewTerm) → Prop
  | nil : SpellsSteps [] []
  | cons {cs vs ts : Tokens} {c : Connection} {v : ViewTerm}
    {steps : List (Connection × ViewTerm)} (hc : SpellsConnection cs c) (hv : SpellsView vs v)
    (hs : SpellsSteps ts steps) : SpellsSteps (cs ++ (vs ++ ts)) ((c, v) :: steps)

/-- A format is horizontal unless it names an axis. -/
inductive SpellsAxis : Tokens → Axis → Prop
  | unwritten : SpellsAxis [] .horizontal
  | horizontal (span : Span) : SpellsAxis [⟨.horizontal, span⟩] .horizontal
  | vertical (span : Span) : SpellsAxis [⟨.vertical, span⟩] .vertical

inductive SpellsLeading : Tokens → Option Connection → Prop
  | none : SpellsLeading [] none
  | some (pipe : Span) {cs : Tokens} {c : Connection} (h : SpellsConnection cs c) :
    SpellsLeading (⟨.pipe, pipe⟩ :: cs) (some c)

inductive SpellsTrailing : Tokens → Option Connection → Prop
  | none : SpellsTrailing [] none
  | some (pipe : Span) {cs : Tokens} {c : Connection} (h : SpellsConnection cs c) :
    SpellsTrailing (cs ++ [⟨.pipe, pipe⟩]) (some c)

inductive SpellsFormat : Tokens → VisualFormat → Prop
  | mk {as ls vs ss ts : Tokens} {axis : Axis} {leading : Option Connection} {first : ViewTerm}
    {rest : List (Connection × ViewTerm)} {trailing : Option Connection} (ha : SpellsAxis as axis)
    (hl : SpellsLeading ls leading) (hv : SpellsView vs first) (hs : SpellsSteps ss rest)
    (ht : SpellsTrailing ts trailing) :
    SpellsFormat (as ++ (ls ++ (vs ++ (ss ++ ts)))) ⟨axis, leading, first, rest, trailing⟩

/-! ### Operands and priorities -/

theorem simple_eq_ok_iff {ts rest : Tokens} {o : Located Operand} :
    simple ts = .ok (o, rest) ↔ ∃ used, SpellsSimple used o ∧ ts = used ++ rest := by
  constructor
  · intro h
    unfold simple at h
    split at h
    · cases h
      exact ⟨_, .number _ _, rfl⟩
    · cases h
      exact ⟨_, .name _ _, rfl⟩
    · cases h
  · rintro ⟨used, ⟨⟩, rfl⟩ <;> rfl

theorem operand_eq_ok_iff {ts rest : Tokens} {o : Located Operand} :
    operand ts = .ok (o, rest) ↔ ∃ used, SpellsOperand used o ∧ ts = used ++ rest := by
  constructor
  · intro h
    unfold operand at h
    split at h
    · cases h
      exact ⟨_, .negative _ _ _, rfl⟩
    · cases h
    · obtain ⟨used, hu, rfl⟩ := simple_eq_ok_iff.1 h
      exact ⟨used, .simple hu, rfl⟩
  · rintro ⟨used, hu, rfl⟩
    rcases hu with ⟨⟨⟩⟩ | ⟨⟩ <;> rfl

theorem relation?_spells (ts : Tokens) :
    ∃ used, SpellsRelation used ((relation? ts).1.getD .equal) ∧ ts = used ++ (relation? ts).2 := by
  unfold relation?
  split
  · exact ⟨_, .equal _, rfl⟩
  · exact ⟨_, .atLeast _, rfl⟩
  · exact ⟨_, .atMost _, rfl⟩
  · exact ⟨[], .unwritten, rfl⟩

/-- An operand does not begin with a relation. -/
theorem relation?_of_spells {rs os : Tokens} {r : Relation} {o : Located Operand}
    (hr : SpellsRelation rs r) (ho : SpellsOperand os o) (more : Tokens) :
    ∃ r?, relation? (rs ++ (os ++ more)) = (r?, os ++ more) ∧ r?.getD .equal = r := by
  cases hr with
  | unwritten =>
    refine ⟨none, ?_, rfl⟩
    rcases ho with ⟨⟨⟩⟩ | ⟨⟩ <;> rfl
  | equal => exact ⟨some .equal, rfl, rfl⟩
  | atLeast => exact ⟨some .atLeast, rfl, rfl⟩
  | atMost => exact ⟨some .atMost, rfl, rfl⟩

theorem priority_spells {ts rest : Tokens} {p : Option (Located Operand)}
    (h : priority ts = .ok (p, rest)) : ∃ used, SpellsPriority used p ∧ ts = used ++ rest := by
  unfold priority at h
  split at h
  · obtain ⟨⟨o, r⟩, hs, heq⟩ := map_eq_ok_iff.1 h
    obtain ⟨rfl, rfl⟩ := Prod.mk.inj heq
    obtain ⟨used, hu, rfl⟩ := simple_eq_ok_iff.1 hs
    exact ⟨_, .written _ hu, rfl⟩
  · cases h
    exact ⟨[], .unwritten, rfl⟩

theorem priority_of_spells {ps rest : Tokens} {p : Option (Located Operand)}
    (hp : SpellsPriority ps p) (hrest : ∀ mark us, rest ≠ ⟨.priorityMark, mark⟩ :: us) :
    priority (ps ++ rest) = .ok (p, rest) := by
  cases hp with
  | unwritten =>
    show priority rest = _
    unfold priority
    split
    · exact absurd rfl (hrest _ _)
    · rfl
  | written mark hs => exact map_eq_ok_iff.2 ⟨_, simple_eq_ok_iff.2 ⟨_, hs, rfl⟩, rfl⟩

/-! ### Predicates -/

theorem startOf_append {ts : Tokens} (h : ts ≠ []) (rest : Tokens) :
    startOf (ts ++ rest) = startOf ts := by
  cases ts with
  | nil => exact absurd rfl h
  | cons t ts => rfl

theorem SpellsOperand.ne_nil {os : Tokens} {o : Located Operand} (h : SpellsOperand os o) :
    os ≠ [] := by
  rcases h with ⟨⟨⟩⟩ | ⟨⟩ <;> exact List.cons_ne_nil _ _

/-- A predicate goes up to the end of its priority, or of its operand. -/
theorem cover_of_spells {os ps : Tokens} {o : Located Operand} {p : Option (Located Operand)}
    (rs : Tokens) (ho : SpellsOperand os o) (hp : SpellsPriority ps p) :
    cover (rs ++ os ++ ps) =
      ⟨startOf (rs ++ os ++ ps), (p.map fun p => p.span.stop).getD o.span.stop⟩ := by
  have hos : os.getLast?.map (fun t => t.span.stop) = some o.span.stop := by
    rcases ho with ⟨⟨⟩⟩ | ⟨⟩ <;> rfl
  have hps : ps.getLast?.map (fun t => t.span.stop) = p.map fun p => p.span.stop := by
    rcases hp with _ | ⟨_, ⟨⟩⟩ <;> rfl
  rw [cover, List.getLast?_append, List.getLast?_append, Option.map_or, Option.map_or, hps, hos]
  cases p <;> rfl

theorem predicate_spells {ts rest : Tokens} {p : Located Predicate}
    (h : predicate ts = .ok (p, rest)) : ∃ used, SpellsPredicate used p ∧ ts = used ++ rest := by
  obtain ⟨rs, hr, hts⟩ := relation?_spells ts
  unfold predicate at h
  generalize relation? ts = found at h hr hts
  obtain ⟨r?, afterRelation⟩ := found
  obtain ⟨⟨o, after⟩, ho, h⟩ := bind_eq_ok_iff.1 h
  obtain ⟨⟨q, r⟩, hq, h⟩ := bind_eq_ok_iff.1 h
  obtain ⟨rfl, rfl⟩ := Prod.mk.inj (pure_eq_ok_iff.1 h)
  obtain ⟨os, hos, hafter⟩ := operand_eq_ok_iff.1 ho
  obtain ⟨ps, hp, rfl⟩ := priority_spells hq
  have heq : ts = rs ++ os ++ ps ++ r := by
    rw [hts, show afterRelation = os ++ (ps ++ r) from hafter]
    simp only [List.append_assoc]
  refine ⟨rs ++ os ++ ps, ?_, heq⟩
  have hne : rs ++ os ++ ps ≠ [] := by simp [hos.ne_nil]
  have hspan := cover_of_spells rs hos hp
  rw [← startOf_append hne r, ← heq] at hspan
  have hall := SpellsPredicate.mk hr hos hp
  rw [hspan] at hall
  exact hall

theorem predicate_of_spells {ts : Tokens} {p : Located Predicate} (h : SpellsPredicate ts p)
    (rest : Tokens) (hrest : ∀ mark us, rest ≠ ⟨.priorityMark, mark⟩ :: us) :
    predicate (ts ++ rest) = .ok (p, rest) := by
  obtain @⟨rs, os, ps, r, o, p, hr, ho, hp⟩ := h
  obtain ⟨r?, hr?, hget⟩ := relation?_of_spells hr ho (ps ++ rest)
  have heq : rs ++ os ++ ps ++ rest = rs ++ (os ++ (ps ++ rest)) := by
    simp only [List.append_assoc]
  have hne : rs ++ os ++ ps ≠ [] := by simp [ho.ne_nil]
  rw [cover_of_spells rs ho hp, ← startOf_append hne rest, ← hget]
  unfold predicate
  rw [heq, hr?]
  exact bind_eq_ok_iff.2 ⟨(o, ps ++ rest), operand_eq_ok_iff.2 ⟨os, ho, rfl⟩,
    bind_eq_ok_iff.2 ⟨(p, rest), priority_of_spells hp hrest, rfl⟩⟩

theorem predicates_eq_ok_iff {ts rest : Tokens} {ps : List (Located Predicate)} :
    predicates ts = .ok (ps, rest) ↔
      ∃ used closing, SpellsPredicates used ps ∧ ts = used ++ ⟨.parenClose, closing⟩ :: rest := by
  constructor
  · intro h
    fun_induction predicates ts generalizing ps rest with
    | case1 => cases h
    | case2 ts p span r hp ih =>
      obtain ⟨⟨qs, r'⟩, hr, heq⟩ := map_eq_ok_iff.1 h
      obtain ⟨rfl, rfl⟩ := Prod.mk.inj heq
      obtain ⟨used, hu, rfl⟩ := predicate_spells hp
      obtain ⟨more, closing, hmore, rfl⟩ := ih hr
      exact ⟨_, closing, .more span hu hmore, by simp⟩
    | case3 ts p span r hp =>
      cases h
      obtain ⟨used, hu, rfl⟩ := predicate_spells hp
      exact ⟨used, span, .one hu, rfl⟩
    | case4 => cases h
  · rintro ⟨used, closing, hu, rfl⟩
    induction hu with
    | one h =>
      have hp := predicate_of_spells h (⟨.parenClose, closing⟩ :: rest) (by simp)
      rw [predicates]
      split <;> simp_all
    | @more ts us p ps comma h hs ih =>
      rw [List.append_assoc, List.cons_append]
      have hp := predicate_of_spells h
        (⟨.comma, comma⟩ :: (us ++ ⟨.parenClose, closing⟩ :: rest)) (by simp)
      rw [predicates]
      split
      · simp_all
      · rename_i q span r hq
        obtain ⟨rfl, hr⟩ := Prod.mk.inj (Except.ok.inj (hp.symm.trans hq))
        rw [← (List.cons.inj hr).2]
        exact map_eq_ok_iff.2 ⟨(ps, rest), ih, rfl⟩
      · simp_all
      · simp_all

/-! ### Connections and views -/

/-- What can stand after a connection: a view or the superview. -/
def BeginsItem : Tokens → Prop
  | ⟨.bracketOpen, _⟩ :: _ => True
  | ⟨.pipe, _⟩ :: _ => True
  | _ => False

theorem closingDash_eq_ok_iff {ts rest : Tokens} :
    closingDash ts = .ok rest ↔ ∃ dash, ts = ⟨.dash, dash⟩ :: rest := by
  unfold closingDash
  split
  · rename_i dash r
    constructor
    · intro h
      cases h
      exact ⟨dash, rfl⟩
    · rintro ⟨dash', heq⟩
      rw [(List.cons.inj heq).2]
  · rename_i hno
    constructor
    · intro h
      cases h
    · rintro ⟨dash, rfl⟩
      exact absurd rfl (hno dash rest)

theorem connection_spells {ts rest : Tokens} {c : Connection} (h : connection ts = .ok (c, rest)) :
    ∃ used, SpellsConnection used c ∧ ts = used ++ rest := by
  unfold connection at h
  split at h
  · obtain ⟨r, hd, h⟩ := bind_eq_ok_iff.1 h
    obtain ⟨rfl, rfl⟩ := Prod.mk.inj (pure_eq_ok_iff.1 h)
    obtain ⟨dash, rfl⟩ := closingDash_eq_ok_iff.1 hd
    exact ⟨_, .spacer _ dash (.number _ _), rfl⟩
  · obtain ⟨r, hd, h⟩ := bind_eq_ok_iff.1 h
    obtain ⟨rfl, rfl⟩ := Prod.mk.inj (pure_eq_ok_iff.1 h)
    obtain ⟨dash, rfl⟩ := closingDash_eq_ok_iff.1 hd
    exact ⟨_, .spacer _ dash (.name _ _), rfl⟩
  · rename_i dash opening ts
    obtain ⟨⟨ps, r⟩, hp, h⟩ := bind_eq_ok_iff.1 h
    obtain ⟨r', hd, h⟩ := bind_eq_ok_iff.1 h
    obtain ⟨rfl, rfl⟩ := Prod.mk.inj (pure_eq_ok_iff.1 h)
    obtain ⟨dash', rfl⟩ := closingDash_eq_ok_iff.1 hd
    obtain ⟨used, closing, hu, rfl⟩ := predicates_eq_ok_iff.1 hp
    exact ⟨_, .predicates dash opening closing dash' hu, by simp⟩
  · cases h
    exact ⟨_, .standard _, rfl⟩
  · cases h
    exact ⟨[], .flush, rfl⟩

/-- Where an item begins, nothing can go on with a connection. -/
theorem connection_of_spells {cs rest : Tokens} {c : Connection} (h : SpellsConnection cs c)
    (hrest : BeginsItem rest) : connection (cs ++ rest) = .ok (c, rest) := by
  cases h with
  | flush =>
    unfold BeginsItem at hrest
    split at hrest <;> first | rfl | exact hrest.elim
  | standard dash =>
    unfold BeginsItem at hrest
    split at hrest <;> first | rfl | exact hrest.elim
  | spacer dash dash' hs => cases hs <;> rfl
  | @predicates dash opening closing dash' ts ps hp =>
    have hread := predicates_eq_ok_iff.2 ⟨ts, closing, hp,
      (rfl : _ = ts ++ ⟨.parenClose, closing⟩ :: (⟨.dash, dash'⟩ :: rest))⟩
    rw [List.append_assoc]
    exact bind_eq_ok_iff.2 ⟨_, hread, rfl⟩

theorem view_eq_ok_iff {ts rest : Tokens} {v : ViewTerm} :
    view ts = .ok (v, rest) ↔ ∃ used, SpellsView used v ∧ ts = used ++ rest := by
  constructor
  · intro h
    unfold view at h
    split at h
    · cases h
      exact ⟨_, .plain _ _ _ _, rfl⟩
    · rename_i opening n span o ts
      obtain ⟨⟨ps, r⟩, hp, h⟩ := bind_eq_ok_iff.1 h
      split at h
      · rename_i qs closing r' heq
        cases h
        obtain ⟨rfl, rfl⟩ := Prod.mk.inj heq
        obtain ⟨used, c, hu, rfl⟩ := predicates_eq_ok_iff.1 hp
        exact ⟨_, .sized opening n span o c closing hu, by simp⟩
      · cases h
    all_goals cases h
  · rintro ⟨used, hu, rfl⟩
    cases hu with
    | plain => rfl
    | @sized opening n span o c closing ts ps hp =>
      have hread := predicates_eq_ok_iff.2 ⟨ts, c, hp,
        (rfl : _ = ts ++ ⟨.parenClose, c⟩ :: (⟨.bracketClose, closing⟩ :: rest))⟩
      rw [List.append_assoc]
      exact bind_eq_ok_iff.2 ⟨_, hread, rfl⟩

theorem SpellsView.beginsItem {vs : Tokens} {v : ViewTerm} (h : SpellsView vs v) (rest : Tokens) :
    BeginsItem (vs ++ rest) := by
  cases h <;> exact trivial

/-! ### Formats -/

theorem chain_of_pipe {ts : Tokens} {c : Connection} {pipe : Span}
    (hc : connection ts = .ok (c, [⟨.pipe, pipe⟩])) : chain ts = .ok ([], some c) := by
  cases ts with
  | nil => cases hc
  | cons t ts =>
    rw [chain]
    split <;> simp_all

theorem chain_of_view {ts next rest : Tokens} {c : Connection} {v : ViewTerm}
    (hc : connection ts = .ok (c, next)) (hv : view next = .ok (v, rest)) :
    chain ts = (chain rest).map fun (vs, trailing) => ((c, v) :: vs, trailing) := by
  cases ts with
  | nil =>
    cases hc
    cases hv
  | cons t ts =>
    rw [chain]
    split
    · simp_all
    · rename_i heq
      obtain ⟨-, rfl⟩ := Prod.mk.inj (Except.ok.inj (heq.symm.trans hc))
      cases hv
    · rename_i heq
      obtain ⟨-, rfl⟩ := Prod.mk.inj (Except.ok.inj (heq.symm.trans hc))
      cases hv
    · rename_i heq
      obtain ⟨rfl, rfl⟩ := Prod.mk.inj (Except.ok.inj (heq.symm.trans hc))
      split
      · simp_all
      · rename_i heq'
        obtain ⟨rfl, rfl⟩ := Prod.mk.inj (Except.ok.inj (heq'.symm.trans hv))
        rfl

theorem chain_eq_ok_iff {ts : Tokens} {steps : List (Connection × ViewTerm)}
    {trailing : Option Connection} : chain ts = .ok (steps, trailing) ↔
      ∃ ss us, SpellsSteps ss steps ∧ SpellsTrailing us trailing ∧ ts = ss ++ us := by
  constructor
  · intro h
    fun_induction chain ts generalizing steps trailing with
    | case1 =>
      cases h
      exact ⟨[], [], .nil, .none, rfl⟩
    | case2 => cases h
    | case3 t ts c pipe hc =>
      cases h
      obtain ⟨cs, hcs, heq⟩ := connection_spells hc
      exact ⟨[], _, .nil, .some pipe hcs, heq⟩
    | case4 => cases h
    | case5 => cases h
    | case6 t ts c next _ _ hc v rest hv ih =>
      obtain ⟨⟨steps', trailing'⟩, hrest, heq⟩ := map_eq_ok_iff.1 h
      obtain ⟨rfl, rfl⟩ := Prod.mk.inj heq
      obtain ⟨cs, hcs, heq⟩ := connection_spells hc
      obtain ⟨vs, hvs, rfl⟩ := view_eq_ok_iff.1 hv
      obtain ⟨ss, us, hs, hu, rfl⟩ := ih hrest
      exact ⟨_, us, .cons hcs hvs hs, hu, by simp [heq]⟩
  · rintro ⟨ss, us, hs, hu, rfl⟩
    induction hs with
    | nil =>
      cases hu with
      | none => rw [List.append_nil, chain]
      | @some pipe cs c hc =>
        have hpipe : BeginsItem [⟨.pipe, pipe⟩] := trivial
        exact chain_of_pipe (connection_of_spells hc hpipe)
    | @cons cs vs ts c v steps hc hv hs ih =>
      rw [List.append_assoc, List.append_assoc]
      have hv' := view_eq_ok_iff.2 ⟨vs, hv, (rfl : vs ++ (ts ++ us) = _)⟩
      rw [chain_of_view (connection_of_spells hc (hv.beginsItem (ts ++ us))) hv', ih]
      rfl

theorem axis?_spells (ts : Tokens) :
    ∃ used, SpellsAxis used ((axis? ts).1.getD .horizontal) ∧ ts = used ++ (axis? ts).2 := by
  unfold axis?
  split
  · exact ⟨_, .horizontal _, rfl⟩
  · exact ⟨_, .vertical _, rfl⟩
  · exact ⟨[], .unwritten, rfl⟩

/-- An item does not begin with an axis. -/
theorem axis?_of_spells {as rest : Tokens} {axis : Axis} (h : SpellsAxis as axis)
    (hrest : BeginsItem rest) :
    ∃ a?, axis? (as ++ rest) = (a?, rest) ∧ a?.getD .horizontal = axis := by
  cases h with
  | unwritten =>
    refine ⟨none, ?_, rfl⟩
    unfold BeginsItem at hrest
    split at hrest
    · rfl
    · rfl
    · exact hrest.elim
  | horizontal => exact ⟨some .horizontal, rfl, rfl⟩
  | vertical => exact ⟨some .vertical, rfl, rfl⟩

theorem leadingConnection_spells {ts rest : Tokens} {leading : Option Connection}
    (h : leadingConnection ts = .ok (leading, rest)) :
    ∃ used, SpellsLeading used leading ∧ ts = used ++ rest := by
  unfold leadingConnection at h
  split at h
  · obtain ⟨⟨c, r⟩, hc, heq⟩ := map_eq_ok_iff.1 h
    obtain ⟨rfl, rfl⟩ := Prod.mk.inj heq
    obtain ⟨cs, hcs, rfl⟩ := connection_spells hc
    exact ⟨_, .some _ hcs, rfl⟩
  · cases h
    exact ⟨[], .none, rfl⟩

theorem leadingConnection_of_spells {ls vs rest : Tokens} {leading : Option Connection}
    {v : ViewTerm} (h : SpellsLeading ls leading) (hv : SpellsView vs v) :
    leadingConnection (ls ++ (vs ++ rest)) = .ok (leading, vs ++ rest) := by
  cases h with
  | none => cases hv <;> rfl
  | some pipe hc =>
    exact map_eq_ok_iff.2 ⟨_, connection_of_spells hc (hv.beginsItem rest), rfl⟩

theorem SpellsLeading.beginsItem {ls vs rest : Tokens} {leading : Option Connection} {v : ViewTerm}
    (h : SpellsLeading ls leading) (hv : SpellsView vs v) : BeginsItem (ls ++ (vs ++ rest)) := by
  cases h with
  | none => exact hv.beginsItem rest
  | some => exact trivial

/-- **The reader accepts the grammar.** Tokens are read as a format exactly if
they spell it. -/
theorem ofTokens_eq_ok_iff {ts : Tokens} {f : VisualFormat} :
    ofTokens ts = .ok f ↔ SpellsFormat ts f := by
  constructor
  · intro h
    obtain ⟨as, ha, hts⟩ := axis?_spells ts
    unfold ofTokens at h
    generalize axis? ts = found at h ha hts
    obtain ⟨a?, afterAxis⟩ := found
    obtain ⟨⟨leading, afterLeading⟩, hleading, h⟩ := bind_eq_ok_iff.1 h
    obtain ⟨⟨first, afterFirst⟩, hfirst, h⟩ := bind_eq_ok_iff.1 h
    obtain ⟨⟨rest, trailing⟩, hchain, h⟩ := bind_eq_ok_iff.1 h
    obtain rfl := pure_eq_ok_iff.1 h
    obtain ⟨ls, hl, hafter⟩ := leadingConnection_spells hleading
    obtain ⟨vs, hv, rfl⟩ := view_eq_ok_iff.1 hfirst
    obtain ⟨ss, us, hs, hu, rfl⟩ := chain_eq_ok_iff.1 hchain
    rw [hts, show afterAxis = ls ++ (vs ++ (ss ++ us)) from hafter]
    exact .mk ha hl hv hs hu
  · rintro ⟨ha, hl, hv, hs, ht⟩
    obtain ⟨a?, haxis, rfl⟩ := axis?_of_spells ha (hl.beginsItem hv)
    unfold ofTokens
    rw [haxis]
    exact bind_eq_ok_iff.2 ⟨_, leadingConnection_of_spells hl hv,
      bind_eq_ok_iff.2 ⟨_, view_eq_ok_iff.2 ⟨_, hv, rfl⟩,
        bind_eq_ok_iff.2 ⟨_, chain_eq_ok_iff.2 ⟨_, _, hs, ht, rfl⟩, rfl⟩⟩⟩

end ViewMarkup.VisualFormat
