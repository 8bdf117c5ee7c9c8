/-
# The numbers in a format

A number is written as digits, with a point and more digits or without, and stands
for the rational that they are the decimal of; the token has the double nearest to
it, which is infinite from the overflow on. The parts of a format have the numbers
of the tokens that spell them, and no others, so that all of a format is finite if
and only if no number in its text overflows.

Key definitions: `Token.Numeral`, `VisualFormat.isFinite`.
Key theorems: `tokens_allFinite_iff`, `VisualFormat.SpellsFormat.allFinite`.
-/
import ViewMarkup.Proofs.Format.Parts
import ViewMarkup.Proofs.Format.Tiling
import ViewMarkup.Proofs.Numeric.Overflow

namespace ViewMarkup

namespace Token

/-! ### Literals -/

/-- The characters are a number, of this value. -/
inductive Numeral : List Char → Rat → Prop
  | whole {digits : List Char} (h : IsDigits digits) : Numeral digits (digitsValue digits)
  | decimal {digits fraction : List Char} (h : IsDigits digits) (hf : IsDigits fraction) :
    Numeral (digits ++ '.' :: fraction)
      (digitsValue (digits ++ fraction) / 10 ^ fraction.length)

def isFinite : Token → Bool
  | number x => x.isFinite
  | _ => true

/-- A number is the value of the decimal it is read as. -/
theorem Numeral.spells {part : List Char} {q : Rat} (h : Numeral part q) :
    ∃ d : Decimal, Spells (.number (.ofDecimal .double false d)) part ∧ d.value = q := by
  cases h with
  | whole h =>
    refine ⟨_, .whole h, ?_⟩
    rw [Decimal.value_of_nonneg le_rfl]
    exact mul_one _
  | @decimal digits fraction h hf =>
    have hneg : -(fraction.length : Int) < 0 :=
      Int.neg_neg_of_pos (Int.natCast_pos.2 (List.length_pos_iff.2 hf.1))
    refine ⟨_, .decimal h hf, ?_⟩
    rw [Decimal.value_of_neg hneg, Int.neg_neg, Int.toNat_natCast]
    norm_cast

theorem Spells.exists_numeral {x : Double} {part : List Char} (h : Spells (.number x) part) :
    ∃ q, Numeral part q := by
  cases h with
  | sign h => cases h
  | whole h => exact ⟨_, .whole h⟩
  | decimal h hf => exact ⟨_, .decimal h hf⟩

/-- The token of a number is finite exactly if the number does not overflow. -/
theorem Numeral.isFinite_iff {t : Token} {part : List Char} {q : Rat} (h : Numeral part q)
    (ht : t.Spells part) : t.isFinite = true ↔ q < FloatFormat.double.overflow := by
  obtain ⟨d, hspells, rfl⟩ := h.spells
  rw [ht.unique hspells]
  exact Binary.isFinite_ofDecimal_iff false d

end Token

/-! ### Tokens -/

/-- All numbers among the tokens are finite. -/
def VisualFormat.allFinite (ts : VisualFormat.Tokens) : Bool := ts.all fun t => t.value.isFinite

/-- The tokens of a text are finite exactly if none of its numbers overflows. -/
theorem tokens_allFinite_iff {format : String} {ts : VisualFormat.Tokens}
    (h : tokens format = .ok ts) : VisualFormat.allFinite ts = true ↔
      ∀ t ∈ ts, ∀ part q, t.span.Selects format part → Token.Numeral part q →
        q < FloatFormat.double.overflow := by
  rw [VisualFormat.allFinite, List.all_eq_true]
  refine forall₂_congr fun t ht => ?_
  obtain ⟨part, hselects, hspells⟩ := tokens_select h ht
  constructor
  · intro hfinite part' q hselects' hnumeral
    obtain rfl : part = part' := hselects.slice_eq.symm.trans hselects'.slice_eq
    exact (hnumeral.isFinite_iff hspells).1 hfinite
  · intro hbelow
    obtain ⟨token, span⟩ := t
    cases token with
    | number x =>
      obtain ⟨q, hnumeral⟩ := hspells.exists_numeral
      exact (hnumeral.isFinite_iff hspells).2 (hbelow part q hselects hnumeral)
    | _ => rfl

/-! ### The parts of a format -/

def Operand.isFinite : Operand → Bool
  | .number x => x.isFinite
  | .name _ => true

def Predicate.isFinite (p : Predicate) : Bool :=
  p.object.value.isFinite && p.priority.all fun o => o.value.isFinite

def Connection.isFinite : Connection → Bool
  | .spacer gap => gap.value.isFinite
  | .predicates conditions => conditions.all fun c => c.value.isFinite
  | _ => true

def ViewTerm.isFinite (v : ViewTerm) : Bool := v.predicates.all fun c => c.value.isFinite

namespace VisualFormat

/-- All numbers that are written in the format are finite. -/
def isFinite (f : VisualFormat) : Bool :=
  f.connections.all Connection.isFinite && f.views.all ViewTerm.isFinite

@[simp] theorem allFinite_nil : allFinite [] = true := rfl

@[simp] theorem allFinite_cons (t : Located Token) (ts : Tokens) :
    allFinite (t :: ts) = (t.value.isFinite && allFinite ts) := rfl

@[simp] theorem allFinite_append (ts us : Tokens) :
    allFinite (ts ++ us) = (allFinite ts && allFinite us) := List.all_append

variable {ts : Tokens}

theorem SpellsSimple.allFinite {o : Located Operand} (h : SpellsSimple ts o) :
    allFinite ts = o.value.isFinite := by
  cases h with
  | number x span => exact Bool.and_true _
  | name n span => rfl

theorem SpellsOperand.allFinite {o : Located Operand} (h : SpellsOperand ts o) :
    allFinite ts = o.value.isFinite := by
  cases h with
  | simple h => exact h.allFinite
  | negative dash x span => simp [Token.isFinite, Operand.isFinite, Binary.isFinite_neg]

theorem SpellsRelation.allFinite {r : Relation} (h : SpellsRelation ts r) : allFinite ts = true := by
  cases h <;> rfl

theorem SpellsPriority.allFinite {p : Option (Located Operand)} (h : SpellsPriority ts p) :
    allFinite ts = p.all fun o => o.value.isFinite := by
  cases h with
  | unwritten => rfl
  | written mark h => exact h.allFinite

theorem SpellsPredicate.allFinite {p : Located Predicate} (h : SpellsPredicate ts p) :
    allFinite ts = p.value.isFinite := by
  obtain ⟨hr, ho, hp⟩ := h
  simp [hr.allFinite, ho.allFinite, hp.allFinite, Predicate.isFinite]

theorem SpellsPredicates.allFinite {ps : List (Located Predicate)} (h : SpellsPredicates ts ps) :
    allFinite ts = ps.all fun p => p.value.isFinite := by
  induction h with
  | one h => simp [h.allFinite]
  | more comma h _ ih => simp [h.allFinite, ih, Token.isFinite]

theorem SpellsConnection.allFinite {c : Connection} (h : SpellsConnection ts c) :
    allFinite ts = c.isFinite := by
  cases h with
  | flush => rfl
  | standard dash => rfl
  | spacer dash dash' h => simp [h.allFinite, Token.isFinite, Connection.isFinite]
  | predicates dash opening closing dash' h =>
    simp [h.allFinite, Token.isFinite, Connection.isFinite]

theorem SpellsView.allFinite {v : ViewTerm} (h : SpellsView ts v) : allFinite ts = v.isFinite := by
  cases h with
  | plain opening n span closing => rfl
  | sized opening n span o c closing h => simp [h.allFinite, Token.isFinite, ViewTerm.isFinite]

theorem SpellsSteps.allFinite {steps : List (Connection × ViewTerm)} (h : SpellsSteps ts steps) :
    allFinite ts = ((steps.map Prod.fst).all Connection.isFinite &&
      (steps.map Prod.snd).all ViewTerm.isFinite) := by
  induction h with
  | nil => rfl
  | cons hc hv _ ih =>
    rw [allFinite_append, allFinite_append, hc.allFinite, hv.allFinite, ih, List.map_cons,
      List.map_cons, List.all_cons, List.all_cons]
    ac_rfl

theorem SpellsAxis.allFinite {axis : Axis} (h : SpellsAxis ts axis) : allFinite ts = true := by
  cases h <;> rfl

theorem SpellsLeading.allFinite {leading : Option Connection} (h : SpellsLeading ts leading) :
    allFinite ts = leading.toList.all Connection.isFinite := by
  cases h with
  | none => rfl
  | some pipe h => simp [h.allFinite, Token.isFinite]

theorem SpellsTrailing.allFinite {trailing : Option Connection} (h : SpellsTrailing ts trailing) :
    allFinite ts = trailing.toList.all Connection.isFinite := by
  cases h with
  | none => rfl
  | some pipe h => simp [h.allFinite, Token.isFinite]

/-- **A format has the numbers of its tokens.** -/
theorem SpellsFormat.allFinite {f : VisualFormat} (h : SpellsFormat ts f) :
    allFinite ts = f.isFinite := by
  obtain ⟨ha, hl, hv, hs, ht⟩ := h
  simp only [allFinite_append, ha.allFinite, hl.allFinite, hv.allFinite, hs.allFinite, ht.allFinite,
    isFinite, connections, gaps, views, List.all_append, List.all_cons, Bool.true_and]
  ac_rfl

end VisualFormat

/-- The numbers of a format are finite exactly if none of the numbers in its text
overflows. -/
theorem VisualFormat.isFinite_iff_of_parse {format : String} {f : VisualFormat}
    (h : parse format = .ok f) : ∃ ts, tokens format = .ok ts ∧ (f.isFinite = true ↔
      ∀ t ∈ ts, ∀ part q, t.span.Selects format part → Token.Numeral part q →
        q < FloatFormat.double.overflow) := by
  obtain ⟨ts, htokens, hspells⟩ := parse_eq_ok_iff.1 h
  exact ⟨ts, htokens, by rw [← hspells.allFinite, tokens_allFinite_iff htokens]⟩

end ViewMarkup
