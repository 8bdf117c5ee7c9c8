/-
# Reading visual formats

One look at the next token decides every choice, so a reader never goes back.
A reader that cannot go on fails with the tokens from the first one it has no
use for; none are left if the format ends too early.

Key definitions: `VisualFormat.ofTokens`, `VisualFormat.parse`.
-/
import ViewMarkup.Error
import ViewMarkup.Format.Token
import ViewMarkup.Format.Tree
import ViewMarkup.Outcome

namespace ViewMarkup.VisualFormat

abbrev Tokens := List (Located Token)

/-- A number or a name. -/
def simple : Tokens → Except Tokens (Located Operand × Tokens)
  | ⟨.number x, span⟩ :: rest => .ok (⟨.number x, span⟩, rest)
  | ⟨.name n, span⟩ :: rest => .ok (⟨.name n, span⟩, rest)
  | ts => .error ts

/-- A number, which may be negative, or a name. -/
def operand : Tokens → Except Tokens (Located Operand × Tokens)
  | ⟨.dash, dash⟩ :: ⟨.number x, span⟩ :: rest =>
    .ok (⟨.number x.neg, ⟨dash.start, span.stop⟩⟩, rest)
  | ⟨.dash, _⟩ :: ts => .error ts
  | ts => simple ts

/-- A relation, if one stands here. -/
def relation? : Tokens → Option Relation × Tokens
  | ⟨.equal, _⟩ :: rest => (some .equal, rest)
  | ⟨.atLeast, _⟩ :: rest => (some .atLeast, rest)
  | ⟨.atMost, _⟩ :: rest => (some .atMost, rest)
  | ts => (none, ts)

/-- A priority, if one stands here. -/
def priority : Tokens → Except Tokens (Option (Located Operand) × Tokens)
  | ⟨.priorityMark, _⟩ :: ts => (simple ts).map fun (p, rest) => (some p, rest)
  | ts => .ok (none, ts)

/-- Where the first token starts. -/
def startOf (ts : Tokens) : Nat := (ts.head?.map fun t => t.span.start).getD 0

def predicate (ts : Tokens) : Except Tokens (Located Predicate × Tokens) := do
  let (relation, afterRelation) := relation? ts
  let (object, afterObject) ← operand afterRelation
  let (priority, rest) ← priority afterObject
  let stop := (priority.map fun p => p.span.stop).getD object.span.stop
  return (⟨⟨relation.getD .equal, object, priority⟩, ⟨startOf ts, stop⟩⟩, rest)

theorem simple_shorter {ts : Tokens} {o rest} (h : simple ts = .ok (o, rest)) :
    rest.length < ts.length := by
  unfold simple at h
  split at h
  · cases h
    exact Nat.lt_succ_self _
  · cases h
    exact Nat.lt_succ_self _
  · cases h

theorem operand_shorter {ts : Tokens} {o rest} (h : operand ts = .ok (o, rest)) :
    rest.length < ts.length := by
  unfold operand at h
  split at h
  · cases h
    simp only [List.length_cons]
    omega
  · cases h
  · exact simple_shorter h

theorem relation?_le (ts : Tokens) : (relation? ts).2.length ≤ ts.length := by
  unfold relation?
  split <;> simp only [List.length_cons] <;> omega

theorem priority_le {ts : Tokens} {p rest} (h : priority ts = .ok (p, rest)) :
    rest.length ≤ ts.length := by
  unfold priority at h
  split at h
  · obtain ⟨⟨o, r⟩, hs, heq⟩ := map_eq_ok_iff.1 h
    obtain ⟨_, rfl⟩ := Prod.mk.inj heq
    have := simple_shorter hs
    simp only [List.length_cons]
    omega
  · cases h
    exact Nat.le_refl _

theorem predicate_shorter {ts : Tokens} {p rest} (h : predicate ts = .ok (p, rest)) :
    rest.length < ts.length := by
  have hr := relation?_le ts
  obtain ⟨⟨o, after⟩, ho, h⟩ := bind_eq_ok_iff.1 h
  obtain ⟨⟨q, r⟩, hp, h⟩ := bind_eq_ok_iff.1 h
  have ho : after.length < (relation? ts).2.length := operand_shorter ho
  have hp : r.length ≤ after.length := priority_le hp
  obtain ⟨_, rfl⟩ := Prod.mk.inj (pure_eq_ok_iff.1 h)
  omega

/-- Predicates after an opening parenthesis, up to the closing one. -/
def predicates (ts : Tokens) : Except Tokens (List (Located Predicate) × Tokens) :=
  match _h : predicate ts with
  | .error stuck => .error stuck
  | .ok (p, ⟨.comma, _⟩ :: rest) => (predicates rest).map fun (ps, rest) => (p :: ps, rest)
  | .ok (p, ⟨.parenClose, _⟩ :: rest) => .ok ([p], rest)
  | .ok (_, stuck) => .error stuck
termination_by ts.length
decreasing_by
  have := predicate_shorter _h
  simp only [List.length_cons] at this
  omega

/-- The dash that ends a connection. -/
def closingDash : Tokens → Except Tokens Tokens
  | ⟨.dash, _⟩ :: rest => .ok rest
  | ts => .error ts

/-- What stands before the next item. After a dash a number, a name or a
parenthesis can only begin a gap of its own. -/
def connection : Tokens → Except Tokens (Connection × Tokens)
  | ⟨.dash, _⟩ :: ⟨.number x, span⟩ :: ts => do
    return (.spacer ⟨.number x, span⟩, ← closingDash ts)
  | ⟨.dash, _⟩ :: ⟨.name n, span⟩ :: ts => do
    return (.spacer ⟨.name n, span⟩, ← closingDash ts)
  | ⟨.dash, _⟩ :: ⟨.parenOpen, _⟩ :: ts => do
    let (ps, ts) ← predicates ts
    return (.predicates ps, ← closingDash ts)
  | ⟨.dash, _⟩ :: ts => .ok (.standard, ts)
  | ts => .ok (.flush, ts)

/-- A view in brackets. -/
def view : Tokens → Except Tokens (ViewTerm × Tokens)
  | ⟨.bracketOpen, opening⟩ :: ⟨.name n, span⟩ :: ⟨.bracketClose, closing⟩ :: rest =>
    .ok (⟨⟨n, span⟩, [], ⟨opening.start, closing.stop⟩⟩, rest)
  | ⟨.bracketOpen, opening⟩ :: ⟨.name n, span⟩ :: ⟨.parenOpen, _⟩ :: ts => do
    match ← predicates ts with
    | (ps, ⟨.bracketClose, closing⟩ :: rest) =>
      .ok (⟨⟨n, span⟩, ps, ⟨opening.start, closing.stop⟩⟩, rest)
    | (_, stuck) => .error stuck
  | ⟨.bracketOpen, _⟩ :: ⟨.name _, _⟩ :: ts => .error ts
  | ⟨.bracketOpen, _⟩ :: ts => .error ts
  | ts => .error ts

theorem predicates_shorter {ts : Tokens} {ps rest} (h : predicates ts = .ok (ps, rest)) :
    rest.length < ts.length := by
  fun_induction predicates ts generalizing ps rest with
  | case1 => cases h
  | case2 ts p span r hp ih =>
    obtain ⟨⟨_, r'⟩, hr, heq⟩ := map_eq_ok_iff.1 h
    obtain ⟨_, rfl⟩ := Prod.mk.inj heq
    have := ih hr
    have := predicate_shorter hp
    simp only [List.length_cons] at this
    omega
  | case3 ts p span r hp =>
    cases h
    have := predicate_shorter hp
    simp only [List.length_cons] at this
    omega
  | case4 => cases h

theorem closingDash_shorter {ts rest : Tokens} (h : closingDash ts = .ok rest) :
    rest.length < ts.length := by
  unfold closingDash at h
  split at h
  · cases h
    exact Nat.lt_succ_self _
  · cases h

theorem connection_le {ts : Tokens} {c rest} (h : connection ts = .ok (c, rest)) :
    rest.length ≤ ts.length := by
  unfold connection at h
  split at h
  · obtain ⟨r, hd, h⟩ := bind_eq_ok_iff.1 h
    obtain ⟨_, rfl⟩ := Prod.mk.inj (pure_eq_ok_iff.1 h)
    have := closingDash_shorter hd
    simp only [List.length_cons]
    omega
  · obtain ⟨r, hd, h⟩ := bind_eq_ok_iff.1 h
    obtain ⟨_, rfl⟩ := Prod.mk.inj (pure_eq_ok_iff.1 h)
    have := closingDash_shorter hd
    simp only [List.length_cons]
    omega
  · obtain ⟨⟨ps, r⟩, hp, h⟩ := bind_eq_ok_iff.1 h
    obtain ⟨r', hd, h⟩ := bind_eq_ok_iff.1 h
    obtain ⟨_, rfl⟩ := Prod.mk.inj (pure_eq_ok_iff.1 h)
    have hp : r.length < _ := predicates_shorter hp
    have hd : r'.length < r.length := closingDash_shorter hd
    simp only [List.length_cons]
    omega
  · cases h
    simp only [List.length_cons]
    omega
  · cases h
    exact Nat.le_refl _

theorem view_shorter {ts : Tokens} {v rest} (h : view ts = .ok (v, rest)) :
    rest.length < ts.length := by
  unfold view at h
  split at h
  · cases h
    simp only [List.length_cons]
    omega
  · obtain ⟨⟨ps, r⟩, hp, h⟩ := bind_eq_ok_iff.1 h
    have := predicates_shorter hp
    split at h
    · next heq =>
      cases h
      obtain ⟨_, rfl⟩ := Prod.mk.inj heq
      simp only [List.length_cons] at this ⊢
      omega
    · cases h
  all_goals cases h

/-- The rest of a format after a view: connections and views, and at last a
connection to the superview or nothing. -/
def chain (ts : Tokens) : Except Tokens (List (Connection × ViewTerm) × Option Connection) :=
  match ts with
  | [] => .ok ([], none)
  | t :: ts =>
    match _hc : connection (t :: ts) with
    | .error stuck => .error stuck
    | .ok (c, [⟨.pipe, _⟩]) => .ok ([], some c)
    | .ok (_, ⟨.pipe, _⟩ :: stuck) => .error stuck
    | .ok (c, next) =>
      match _hv : view next with
      | .error stuck => .error stuck
      | .ok (v, rest) => (chain rest).map fun (vs, trailing) => ((c, v) :: vs, trailing)
termination_by ts.length
decreasing_by
  have hc := connection_le _hc
  have hv := view_shorter _hv
  simp only [List.length_cons] at hc ⊢
  omega

/-- The axis, if one is named. -/
def axis? : Tokens → Option Axis × Tokens
  | ⟨.horizontal, _⟩ :: rest => (some .horizontal, rest)
  | ⟨.vertical, _⟩ :: rest => (some .vertical, rest)
  | ts => (none, ts)

/-- The connection to the superview at the front, if there is one. -/
def leadingConnection : Tokens → Except Tokens (Option Connection × Tokens)
  | ⟨.pipe, _⟩ :: ts => (connection ts).map fun (c, rest) => (some c, rest)
  | ts => .ok (none, ts)

/-- The format that the tokens spell, or the tokens from the first that does not
fit. Formats are horizontal unless they name an axis. -/
def ofTokens (ts : Tokens) : Except Tokens VisualFormat := do
  let (axis, ts) := axis? ts
  let (leading, ts) ← leadingConnection ts
  let (first, ts) ← view ts
  let (rest, trailing) ← chain ts
  return ⟨axis.getD .horizontal, leading, first, rest, trailing⟩

/-- The error at the first token that does not fit. -/
def stuckError (format : String) : Tokens → MarkupError
  | [] =>
    .ofFormat format ⟨format.utf8ByteSize, format.utf8ByteSize⟩ "unexpected end of format string"
  | t :: _ => .ofFormat format t.span ("unexpected " ++ t.value.describe)

/-- The characters of a text in a span. -/
def charsIn (format : String) (span : Span) : List Char :=
  let chars := span.inChars format
  (format.toList.drop chars.start).take (chars.stop - chars.start)

/-- Reads a format. Names are not looked up yet. -/
def parse (format : String) : Except MarkupError VisualFormat :=
  match tokens format with
  | .error span =>
    .error (.ofFormat format span
      ("unexpected character '" ++ String.ofList (charsIn format span) ++ "'"))
  | .ok [] => .error (.ofFormat format ⟨0, format.utf8ByteSize⟩ "empty format string")
  | .ok ts =>
    match ofTokens ts with
    | .ok f => .ok f
    | .error stuck => .error (stuckError format stuck)

end ViewMarkup.VisualFormat
