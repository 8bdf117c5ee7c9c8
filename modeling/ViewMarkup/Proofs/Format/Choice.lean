/-
# Reading by ordered choice

The grammar can also be read by trying: a choice takes its first alternative
that succeeds, an optional part is left out if it fails, and a repetition goes
on as long as another round succeeds; what a failed attempt has taken is given
back. `Choice.format` is the grammar in these terms. Every place where a token
was missing stays on record, also where the attempt was given up and reading
succeeded in another way; what is reported in the end is the furthest of them.

Trying reads the same formats as `ofTokens`, though it gives back what it has
read far more often: a priority without its value, the comma before a condition
that fails, a gap that no dash ends, the connection before a closing `|`. Each
time the token it goes back to is one that nothing after it can use, so it gets
no further than it has been, and the furthest failure is the token at which
`ofTokens` gets stuck.

Key definitions: `Attempt`, `Reader`, `Choice.format`, `Choice.parse`,
`ReportsFurthest`, `Follows`.
Key theorems: `Follows.bind`, `Choice.conditions_follows`,
`Choice.connection_follows`, `Choice.view_follows`, `Choice.tail_follows`,
`Choice.format_follows`, `Choice.format_eq_some_iff`, `Choice.parse_eq`.
-/
import Mathlib.Data.List.MinMax
import ViewMarkup.Proofs.Format.Grammar

namespace ViewMarkup

open VisualFormat

/-! ### Readers -/

/-- What comes of an attempt to read: what was read and the tokens after it, if it
succeeded; and the places where the wanted token was missing, in the order of
trying. A place is given by the tokens from there on. -/
structure Attempt (α : Type) where
  answer : Option (α × Tokens)
  failures : List Tokens

namespace Attempt

variable {α β : Type}

def map (f : α → β) (x : Attempt α) : Attempt β :=
  ⟨x.answer.map fun (a, rest) => (f a, rest), x.failures⟩

/-- The attempt after others, whose failures stay on record. -/
def after (failures : List Tokens) (x : Attempt α) : Attempt α := ⟨x.answer, failures ++ x.failures⟩

end Attempt

/-- Takes tokens from the front, or fails and takes none. -/
def Reader (α : Type) := Tokens → Attempt α

namespace Reader

variable {α β : Type}

instance : Monad Reader where
  pure a := fun ts => ⟨some (a, ts), []⟩
  bind p f := fun ts =>
    match (p ts).answer with
    | some (a, rest) => (f a rest).after (p ts).failures
    | none => ⟨none, (p ts).failures⟩

/-- The alternatives of a choice are tried in order. -/
instance : OrElse (Reader α) where
  orElse p q := fun ts =>
    match (p ts).answer with
    | some _ => p ts
    | none => (q () ts).after (p ts).failures

/-- One token, which has to stand for something. -/
def select (f : Token → Option α) : Reader α
  | [] => ⟨none, [[]]⟩
  | t :: rest =>
    match f t.value with
    | some a => ⟨some (a, rest), []⟩
    | none => ⟨none, [t :: rest]⟩

def just (t : Token) : Reader Unit := select fun u => if u = t then some () else none

/-- What may be left out. -/
def orNot (p : Reader α) : Reader (Option α) := some <$> p <|> pure none

/-- As many rounds as succeed, each of which has to take something. -/
def many (p : Reader α) : Reader (List α) := fun ts =>
  match (p ts).answer with
  | none => ⟨some ([], ts), (p ts).failures⟩
  | some (a, rest) =>
    if rest.length < ts.length then ((many p rest).map (a :: ·)).after (p ts).failures
    else ⟨some ([], ts), (p ts).failures⟩
termination_by ts => ts.length

/-- One round at least, and one after each separator. -/
def separated (p : Reader α) (separator : Reader Unit) : Reader (List α) := do
  let a ← p
  let as ← many (do separator; p)
  return a :: as

/-- Something, and the tokens it was read from. -/
def spanned (p : Reader α) : Reader (Located α) := fun ts =>
  ⟨(p ts).answer.map fun (a, rest) => (⟨a, cover (ts.take (ts.length - rest.length))⟩, rest),
    (p ts).failures⟩

/-- Nothing more. -/
def atEnd : Reader Unit
  | [] => ⟨some ((), []), []⟩
  | ts => ⟨none, [ts]⟩

end Reader

/-! ### The grammar -/

namespace Choice

open Reader

def number : Reader Double := select fun | .number x => some x | _ => none

def name : Reader String := select fun | .name n => some n | _ => none

def operand : Reader (Located Operand) :=
  spanned (.number <$> number <|> (do just .dash; return .number (← number).neg) <|>
    .name <$> name)

def simple : Reader (Located Operand) := spanned (.number <$> number <|> .name <$> name)

def relation : Reader Relation :=
  (do just .equal; return .equal) <|> (do just .atLeast; return .atLeast) <|>
    (do just .atMost; return .atMost)

def priority : Reader (Option (Located Operand)) := orNot (do just .priorityMark; simple)

def condition : Reader Predicate := do
  let relation ← orNot relation
  let object ← operand
  let priority ← priority
  return ⟨relation.getD .equal, object, priority⟩

def predicate : Reader (Located Predicate) := spanned condition

/-- Conditions and the parenthesis after them. -/
def conditions : Reader (List (Located Predicate)) := do
  let ps ← separated predicate (just .comma)
  just .parenClose
  return ps

def predicates : Reader (List (Located Predicate)) := do just .parenOpen; conditions

/-- What stands after the first dash of a gap. -/
def gap : Reader Connection :=
  (do let o ← simple; just .dash; return .spacer o) <|>
    (do let ps ← predicates; just .dash; return .predicates ps)

def connection : Reader Connection :=
  (do just .dash; return (← orNot gap).getD .standard) <|> pure .flush

/-- A name and conditions in brackets. -/
def bracketed : Reader (Located String × List (Located Predicate)) := do
  just .bracketOpen
  let name ← spanned name
  let predicates ← orNot predicates
  just .bracketClose
  return (name, predicates.getD [])

def view : Reader ViewTerm := (fun v => ⟨v.value.1, v.value.2, v.span⟩) <$> spanned bracketed

def axis : Reader Axis :=
  (do just .horizontal; return .horizontal) <|> (do just .vertical; return .vertical)

def step : Reader (Connection × ViewTerm) := do
  let c ← connection
  let v ← view
  return (c, v)

def leading : Reader Connection := do just .pipe; connection

def trailing : Reader Connection := do let c ← connection; just .pipe; return c

/-- The connection to the superview, if there is one, and nothing more. -/
def ending : Reader (Option Connection) := do
  let trailing ← orNot trailing
  atEnd
  return trailing

/-- What stands after the first view. -/
def tail : Reader (List (Connection × ViewTerm) × Option Connection) := do
  let rest ← many step
  let trailing ← ending
  return (rest, trailing)

def format : Reader VisualFormat := do
  let axis ← orNot axis
  let leading ← orNot leading
  let first ← view
  let (rest, trailing) ← tail
  return ⟨axis.getD .horizontal, leading, first, rest, trailing⟩

/-- The error at the failure that is reported. -/
def syntaxError (report : List Tokens → Tokens) (text : String) : List Tokens → MarkupError
  | [] => .ofFormat text ⟨0, text.utf8ByteSize⟩ "invalid format string"
  | failures => stuckError text (report failures)

/-- Reads a format by trying. What is reported in the end is chosen among all places
where a token was missing. -/
def parse (report : List Tokens → Tokens) (text : String) : Except MarkupError VisualFormat :=
  match tokens text with
  | .error span =>
    .error (.ofFormat text span
      ("unexpected character '" ++ String.ofList (charsIn text span) ++ "'"))
  | .ok [] => .error (.ofFormat text ⟨0, text.utf8ByteSize⟩ "empty format string")
  | .ok ts =>
    match (format ts).answer with
    | some (f, _) => .ok f
    | none => .error (syntaxError report text (format ts).failures)

end Choice

/-- Of all places where a token was missing, one is reported that none is beyond. -/
def ReportsFurthest (report : List Tokens → Tokens) : Prop :=
  ∀ failures ≠ [], report failures ∈ failures ∧
    ∀ f ∈ failures, (report failures).length ≤ f.length

/-- The furthest failure; the first of them, if there are several. -/
def Choice.furthest (failures : List Tokens) : Tokens := (failures.argmin List.length).getD []

theorem Choice.furthest_reportsFurthest : ReportsFurthest furthest := by
  intro failures hne
  have hsome : failures.argmin List.length ≠ none := fun h => hne (List.argmin_eq_none.1 h)
  obtain ⟨f, hf⟩ := Option.ne_none_iff_exists'.1 hsome
  rw [furthest, hf]
  exact ⟨List.argmin_mem hf, fun g hg => List.le_of_mem_argmin hg hf⟩

/-! ### What comes of attempts -/

namespace Attempt

variable {α β γ : Type}

theorem map_map (f : α → β) (g : β → γ) (x : Attempt α) : (x.map f).map g = x.map (g ∘ f) :=
  congrArg (Attempt.mk · x.failures) (Option.map_map _ _ _)

theorem after_after (failures more : List Tokens) (x : Attempt α) :
    (x.after more).after failures = x.after (failures ++ more) :=
  congrArg (Attempt.mk x.answer) (List.append_assoc _ _ _).symm

theorem map_after (f : α → β) (failures : List Tokens) (x : Attempt α) :
    (x.after failures).map f = (x.map f).after failures := rfl

end Attempt

namespace Reader

variable {α β : Type} {p : Reader α} {ts rest : Tokens} {a : α}

theorem bind_of_some {f : α → Reader β} (h : (p ts).answer = some (a, rest)) :
    (p >>= f) ts = (f a rest).after (p ts).failures := by
  show (match (p ts).answer with
    | some (a, rest) => (f a rest).after (p ts).failures
    | none => ⟨none, (p ts).failures⟩) = _
  rw [h]

theorem bind_of_none {f : α → Reader β} (h : (p ts).answer = none) :
    (p >>= f) ts = ⟨none, (p ts).failures⟩ := by
  show (match (p ts).answer with
    | some (a, rest) => (f a rest).after (p ts).failures
    | none => ⟨none, (p ts).failures⟩) = _
  rw [h]

theorem orElse_of_some {q : Reader α} (h : (p ts).answer = some (a, rest)) :
    (p <|> q) ts = p ts := by
  show (match (p ts).answer with
    | some _ => p ts
    | none => (q ts).after (p ts).failures) = _
  rw [h]

theorem orElse_of_none {q : Reader α} (h : (p ts).answer = none) :
    (p <|> q) ts = (q ts).after (p ts).failures := by
  show (match (p ts).answer with
    | some _ => p ts
    | none => (q ts).after (p ts).failures) = _
  rw [h]

theorem bind_pure_apply (f : α → β) (p : Reader α) (ts : Tokens) :
    (p >>= fun a => pure (f a)) ts = (p ts).map f := by
  obtain hp | ⟨⟨a, rest⟩, hp⟩ := Option.eq_none_or_eq_some (p ts).answer
  · rw [bind_of_none hp, Attempt.map, hp]
    rfl
  · rw [bind_of_some hp, Attempt.map, hp]
    exact congrArg (Attempt.mk _) (List.append_nil _)

/-- If one reader takes after some failures what it takes there without them, the
whole does so too. -/
theorem bind_of_map {us : Tokens} {f : α → Reader β} {h : α → α} {g : β → β}
    {failures : List Tokens} (hp : p ts = ((p us).map h).after failures)
    (hf : ∀ a rest, f (h a) rest = (f a rest).map g) :
    (p >>= f) ts = (((p >>= f) us).map g).after failures := by
  obtain hus | ⟨⟨a, rest⟩, hus⟩ := Option.eq_none_or_eq_some (p us).answer
  · have hts : (p ts).answer = none := by rw [hp, Attempt.after, Attempt.map, hus]; rfl
    rw [bind_of_none hus, bind_of_none hts, hp]
    rfl
  · have hts : (p ts).answer = some (h a, rest) := by rw [hp, Attempt.after, Attempt.map, hus]; rfl
    rw [bind_of_some hus, bind_of_some hts, hp, hf, Attempt.map_after, Attempt.after_after]
    rfl

theorem many_of_none (h : (p ts).answer = none) : many p ts = ⟨some ([], ts), (p ts).failures⟩ := by
  rw [many]
  split <;> simp_all

theorem many_of_some (h : (p ts).answer = some (a, rest)) (hlt : rest.length < ts.length) :
    many p ts = ((many p rest).map (a :: ·)).after (p ts).failures := by
  rw [many]
  split <;> simp_all

theorem separated_of_some {separator : Reader Unit} (h : (p ts).answer = some (a, rest)) :
    separated p separator ts =
      ((many (do separator; p) rest).map (a :: ·)).after (p ts).failures := by
  rw [separated, bind_of_some h]
  exact congrArg (Attempt.after _) (bind_pure_apply _ _ _)

theorem spanned_of_some (used : Tokens) (h : (p (used ++ rest)).answer = some (a, rest)) :
    (spanned p (used ++ rest)).answer = some (⟨a, cover used⟩, rest) := by
  have htake : (used ++ rest).take ((used ++ rest).length - rest.length) = used := by simp
  rw [spanned, h, Option.map_some]
  simp only [htake]

theorem just_of_ne {t : Token} (h : ∀ span rest, ts ≠ ⟨t, span⟩ :: rest) :
    just t ts = ⟨none, [ts]⟩ := by
  rcases ts with _ | ⟨⟨u, span⟩, rest⟩
  · rfl
  · have hne : u ≠ t := fun heq => h span rest (heq ▸ rfl)
    simp [just, select, hne]

/-- A token that has to be there, and what comes after it. -/
theorem just_bind_cons (t : Token) (span : Span) (rest : Tokens) (f : Unit → Reader β) :
    (just t >>= f) (⟨t, span⟩ :: rest) = f () rest := by
  have hjust : just t (⟨t, span⟩ :: rest) = ⟨some ((), rest), []⟩ := by simp [just, select]
  have hanswer : (just t (⟨t, span⟩ :: rest)).answer = some ((), rest) := by rw [hjust]
  rw [bind_of_some hanswer, hjust]
  rfl

theorem just_bind_of_ne {t : Token} (h : ∀ span rest, ts ≠ ⟨t, span⟩ :: rest)
    (f : Unit → Reader β) : (just t >>= f) ts = ⟨none, [ts]⟩ := by
  have hjust := just_of_ne h
  rw [bind_of_none (by rw [hjust]), hjust]

end Reader

/-! ### Failures -/

/-- No failure is beyond the place. -/
def NotBeyond (place : Tokens) (failures : List Tokens) : Prop := ∀ f ∈ failures, place <:+ f

namespace NotBeyond

variable {place place' : Tokens} {failures failures' : List Tokens}

theorem nil (place : Tokens) : NotBeyond place [] := nofun

theorem self (place : Tokens) : NotBeyond place [place] :=
  List.forall_mem_singleton.2 (List.suffix_refl _)

theorem append (h : NotBeyond place failures) (h' : NotBeyond place failures') :
    NotBeyond place (failures ++ failures') := List.forall_mem_append.2 ⟨h, h'⟩

theorem mono (h : NotBeyond place failures) (hplace : place' <:+ place) :
    NotBeyond place' failures := fun f hf => hplace.trans (h f hf)

end NotBeyond

/-- The place is a failure, and none is beyond it. -/
structure Furthest (failures : List Tokens) (place : Tokens) : Prop where
  mem : place ∈ failures
  notBeyond : NotBeyond place failures

namespace Furthest

variable {place : Tokens} {failures failures' : List Tokens}

theorem self (place : Tokens) : Furthest [place] place := ⟨List.mem_singleton_self _, .self place⟩

theorem append_right (h : Furthest failures place) (h' : NotBeyond place failures') :
    Furthest (failures ++ failures') place :=
  ⟨List.mem_append_left _ h.mem, h.notBeyond.append h'⟩

theorem append_left (h : NotBeyond place failures) (h' : Furthest failures' place) :
    Furthest (failures ++ failures') place :=
  ⟨List.mem_append_right _ h'.mem, h.append h'.notBeyond⟩

/-- What is reported is the furthest failure. -/
theorem report_eq (h : Furthest failures place) {report : List Tokens → Tokens}
    (hreport : ReportsFurthest report) : report failures = place := by
  obtain ⟨hmem, hlast⟩ := hreport failures (List.ne_nil_of_mem h.mem)
  exact ((h.notBeyond _ hmem).eq_of_length_le (hlast place h.mem)).symm

end Furthest

/-! ### Trying and looking ahead -/

/-- How trying compares with looking ahead, which reads something or gets stuck.
After a failure, trying may go on with something it has given back; the token it
goes back to is then one that is `dead`: of no use for what comes next. -/
inductive Follows {α : Type} (dead : Token → Prop) (ts : Tokens) (x : Attempt α) :
    Except Tokens (α × Tokens) → Prop
  /-- Both read the same. -/
  | ok {a : α} {rest : Tokens} (answer : x.answer = some (a, rest)) (left : rest <:+ ts)
    (notBeyond : NotBeyond rest x.failures) : Follows dead ts x (.ok (a, rest))
  /-- Both fail, and trying has got as far as looking ahead. -/
  | error {stuck : Tokens} (answer : x.answer = none) (left : stuck <:+ ts)
    (furthest : Furthest x.failures stuck) : Follows dead ts x (.error stuck)
  /-- Trying has got as far as looking ahead, and has gone back. -/
  | back {a : α} {t : Located Token} {rest stuck : Tokens} (answer : x.answer = some (a, t :: rest))
    (useless : dead t.value) (kept : t :: rest <:+ ts) (left : stuck <:+ t :: rest)
    (furthest : Furthest x.failures stuck) : Follows dead ts x (.error stuck)

/-- Nothing is dead: what is read is not gone back on. -/
abbrev Never : Token → Prop := fun _ => False

/-- The reader has no use for the first token: it fails, and gets nowhere. -/
structure Reader.Refuses {α : Type} (p : Reader α) (ts : Tokens) : Prop where
  answer : (p ts).answer = none
  notBeyond : NotBeyond ts (p ts).failures

namespace Follows

open Reader

variable {α β : Type} {dead dead' : Token → Prop} {ts us rest : Tokens} {x : Attempt α}
  {r : Except Tokens (α × Tokens)} {p q : Reader α}

theorem of_error {stuck : Tokens} (h : Follows Never ts x (.error stuck)) :
    x.answer = none ∧ stuck <:+ ts ∧ Furthest x.failures stuck := by
  cases h with
  | error answer left furthest => exact ⟨answer, left, furthest⟩
  | back _ useless => exact useless.elim

theorem refuses (h : Follows Never ts (p ts) (.error ts)) : p.Refuses ts :=
  ⟨h.of_error.1, h.of_error.2.2.notBeyond⟩

theorem left_of_answer {a : α} (h : Follows dead ts x r) (hx : x.answer = some (a, rest)) :
    rest <:+ ts := by
  cases h with
  | ok answer left =>
    cases hx.symm.trans answer
    exact left
  | error answer => cases hx.symm.trans answer
  | back answer _ kept =>
    cases hx.symm.trans answer
    exact kept

theorem of_answer_none (h : Follows dead ts x r) (hx : x.answer = none) :
    ∃ stuck, r = .error stuck ∧ stuck <:+ ts ∧ Furthest x.failures stuck := by
  cases h with
  | ok answer => cases hx.symm.trans answer
  | error _ left furthest => exact ⟨_, rfl, left, furthest⟩
  | back answer => cases hx.symm.trans answer

theorem mono (h : Follows dead ts x r) (hdead : ∀ t, dead t → dead' t) : Follows dead' ts x r := by
  cases h with
  | ok answer left notBeyond => exact .ok answer left notBeyond
  | error answer left furthest => exact .error answer left furthest
  | back answer useless kept left furthest =>
    exact .back answer (hdead _ useless) kept left furthest

theorem of_never (dead : Token → Prop) (h : Follows Never ts x r) : Follows dead ts x r :=
  h.mono fun _ h => h.elim

/-- Failures before the place where reading begins change nothing. -/
theorem after {failures : List Tokens} (h : Follows dead ts x r) (hts : ts <:+ us)
    (hfailures : NotBeyond ts failures) : Follows dead us (x.after failures) r := by
  cases h with
  | ok answer left notBeyond =>
    exact .ok answer (left.trans hts) ((hfailures.mono left).append notBeyond)
  | error answer left furthest =>
    exact .error answer (left.trans hts) (.append_left (hfailures.mono left) furthest)
  | back answer useless kept left furthest =>
    exact .back answer useless (kept.trans hts) left
      (.append_left (hfailures.mono (left.trans kept)) furthest)

theorem map (h : Follows dead ts x r) (f : α → β) :
    Follows dead ts (x.map f) (r.map fun (a, rest) => (f a, rest)) := by
  have hanswer {a : α} {rest : Tokens} (h : x.answer = some (a, rest)) :
      (x.map f).answer = some (f a, rest) := by
    rw [Attempt.map, h]
    rfl
  cases h with
  | ok answer left notBeyond => exact .ok (hanswer answer) left notBeyond
  | error answer left furthest =>
    exact .error (by rw [Attempt.map, answer]; rfl) left furthest
  | back answer useless kept left furthest =>
    exact .back (hanswer answer) useless kept left furthest

theorem bind_pure (h : Follows dead ts (p ts) r) (f : α → β) :
    Follows dead ts ((p >>= fun a => Pure.pure (f a)) ts) (r.map fun (a, rest) => (f a, rest)) := by
  rw [bind_pure_apply]
  exact h.map f

theorem bind_ok {a : α} {f : α → Reader β} {r : Except Tokens (β × Tokens)}
    (h : Follows dead ts (p ts) (.ok (a, rest))) (hf : Follows dead' rest (f a rest) r) :
    Follows dead' ts ((p >>= f) ts) r := by
  cases h with | ok answer left notBeyond =>
  rw [bind_of_some answer]
  exact hf.after left notBeyond

/-- What comes next has to refuse what the first reader may have gone back to. -/
theorem bind_error {stuck : Tokens} {f : α → Reader β} (h : Follows dead ts (p ts) (.error stuck))
    (hdead : ∀ a t rest, dead t.value → (f a).Refuses (t :: rest)) :
    Follows dead' ts ((p >>= f) ts) (.error stuck) := by
  cases h with
  | error answer left furthest =>
    rw [bind_of_none answer]
    exact .error rfl left furthest
  | @back a t rest _ answer useless kept left furthest =>
    have hrefuses := hdead a t rest useless
    rw [bind_of_some answer]
    exact .error hrefuses.answer (left.trans kept)
      (furthest.append_right (hrefuses.notBeyond.mono left))

/-- One reader after the other. -/
theorem bind {f : α → Reader β} {g : α × Tokens → Except Tokens (β × Tokens)}
    (h : Follows dead ts (p ts) r)
    (hf : ∀ a rest, r = .ok (a, rest) → Follows dead' rest (f a rest) (g (a, rest)))
    (hdead : ∀ a t rest, dead t.value → (f a).Refuses (t :: rest)) :
    Follows dead' ts ((p >>= f) ts) (r >>= g) := by
  cases r with
  | ok found => exact h.bind_ok (hf found.1 found.2 rfl)
  | error stuck => exact h.bind_error hdead

/-- The same, where the first reader never goes back. -/
theorem bind_of_never {f : α → Reader β} {g : α × Tokens → Except Tokens (β × Tokens)}
    (h : Follows Never ts (p ts) r)
    (hf : ∀ a rest, r = .ok (a, rest) → Follows dead rest (f a rest) (g (a, rest))) :
    Follows dead ts ((p >>= f) ts) (r >>= g) := h.bind hf fun _ _ _ h => h.elim

/-- A token that has to be there. -/
theorem just_bind {t : Token} {span : Span} {f : Unit → Reader α}
    (h : Follows dead ts (f () ts) r) :
    Follows dead (⟨t, span⟩ :: ts) ((just t >>= f) (⟨t, span⟩ :: ts)) r := by
  rw [just_bind_cons]
  exact h.after (List.suffix_cons _ _) (.nil _)

theorem just_pure (t : Token) (span : Span) (ts : Tokens) (a : α) : Follows dead (⟨t, span⟩ :: ts)
    ((do just t; return a : Reader α) (⟨t, span⟩ :: ts)) (.ok (a, ts)) :=
  just_bind (.ok rfl (List.suffix_refl ts) (.nil ts))

theorem just_bind_of_ne {t : Token} (h : ∀ span us, ts ≠ ⟨t, span⟩ :: us) (f : Unit → Reader α) :
    Follows dead ts ((just t >>= f) ts) (.error ts) := by
  rw [Reader.just_bind_of_ne h]
  exact .error rfl (List.suffix_refl ts) (.self ts)

theorem orElse_ok {found : α × Tokens} (h : Follows dead ts (p ts) (.ok found)) :
    Follows dead ts ((p <|> q) ts) (.ok found) := by
  cases h with | ok answer left notBeyond =>
  rw [orElse_of_some answer]
  exact .ok answer left notBeyond

/-- Where trying fails it may go on without, if the first token is then dead. -/
theorem orElse_pure {t : Located Token} (h : Follows dead (t :: ts) (p (t :: ts)) r)
    (ht : dead t.value) (a : α) :
    Follows dead (t :: ts) ((p <|> Pure.pure a : Reader α) (t :: ts)) r := by
  cases h with
  | ok answer left notBeyond => exact orElse_ok (.ok answer left notBeyond)
  | error answer left furthest =>
    rw [orElse_of_none answer]
    exact .back rfl ht (List.suffix_refl _) left (furthest.append_right (.nil _))
  | back answer useless kept left furthest =>
    rw [orElse_of_some answer]
    exact .back answer useless kept left furthest

/-- The second alternative has no use for the first token. -/
theorem orElse_left (h : Follows Never ts (p ts) r) (hq : q.Refuses ts) :
    Follows Never ts ((p <|> q) ts) r := by
  cases r with
  | ok found => exact h.orElse_ok
  | error stuck =>
    obtain ⟨answer, left, furthest⟩ := h.of_error
    rw [orElse_of_none answer]
    exact .error hq.answer left (furthest.append_right (hq.notBeyond.mono left))

/-- The first alternative has no use for the first token. -/
theorem orElse_right (hp : p.Refuses ts) (h : Follows dead ts (q ts) r) :
    Follows dead ts ((p <|> q) ts) r := by
  rw [orElse_of_none hp.answer]
  exact h.after (List.suffix_refl ts) hp.notBeyond

/-- What the tokens cover that were read is what looking ahead has as their place. -/
theorem spanned {r : Except Tokens (Located α × Tokens)}
    (h : Follows dead ts (p ts) (r.map fun (x, rest) => (x.value, rest)))
    (hspan : ∀ x used rest, ts = used ++ rest → r = .ok (x, rest) → x.span = cover used) :
    Follows dead ts (spanned p ts) r := by
  cases r with
  | ok found =>
    obtain ⟨x, rest⟩ := found
    cases h with
    | ok answer left notBeyond =>
      obtain ⟨used, rfl⟩ := left
      have hread := spanned_of_some used answer
      rw [← hspan x used rest rfl rfl] at hread
      exact .ok hread (List.suffix_append _ _) notBeyond
  | error stuck =>
    cases h with
    | error answer left furthest =>
      exact .error (by rw [Reader.spanned, answer, Option.map_none]) left furthest
    | back answer useless kept left furthest =>
      exact .back (by rw [Reader.spanned, answer, Option.map_some]) useless kept left furthest

end Follows

namespace Reader.Refuses

variable {α β : Type} {dead : Token → Prop} {ts : Tokens} {p q : Reader α}

/-- Where trying gets nowhere, it goes on without. -/
theorem orElse_pure (h : p.Refuses ts) (a : α) :
    Follows dead ts ((p <|> pure a : Reader α) ts) (.ok (a, ts)) :=
  .orElse_right h (.ok rfl (List.suffix_refl ts) (.nil ts))

theorem orElse (hp : p.Refuses ts) (hq : q.Refuses ts) : (p <|> q).Refuses ts := by
  have heq := orElse_of_none (q := q) hp.answer
  exact ⟨by rw [heq]; exact hq.answer, by rw [heq]; exact hp.notBeyond.append hq.notBeyond⟩

theorem bind (h : p.Refuses ts) (f : α → Reader β) : (p >>= f).Refuses ts := by
  have heq := bind_of_none (f := f) h.answer
  exact ⟨by rw [heq], by rw [heq]; exact h.notBeyond⟩

theorem just_bind {t : Token} (h : ∀ span rest, ts ≠ ⟨t, span⟩ :: rest) (f : Unit → Reader α) :
    (just t >>= f).Refuses ts := by
  have heq := Reader.just_bind_of_ne h f
  exact ⟨by rw [heq], by rw [heq]; exact .self ts⟩

end Reader.Refuses

/-! ### Operands, priorities and conditions -/

namespace Choice

open Reader

theorem simple_follows {dead : Token → Prop} (ts : Tokens) :
    Follows dead ts (simple ts) (VisualFormat.simple ts) := by
  rcases ts with _ | ⟨⟨t, span⟩, rest⟩
  · exact .error rfl (List.suffix_refl _) ((Furthest.self _).append_right (.self _))
  · have hcons : rest <:+ ⟨t, span⟩ :: rest := List.suffix_cons _ _
    cases t with
    | number x => exact .ok (spanned_of_some [⟨.number x, span⟩] rfl) hcons (.nil _)
    | name n =>
      exact .ok (spanned_of_some [⟨.name n, span⟩] rfl) hcons ((NotBeyond.self _).mono hcons)
    | _ => exact .error rfl (List.suffix_refl _) ((Furthest.self _).append_right (.self _))

theorem operand_follows {dead : Token → Prop} (ts : Tokens) :
    Follows dead ts (operand ts) (VisualFormat.operand ts) := by
  have hself (ts : Tokens) : Furthest [ts, ts, ts] ts :=
    (Furthest.self ts).append_right ((NotBeyond.self ts).append (.self ts))
  rcases ts with _ | ⟨⟨t, span⟩, rest⟩
  · exact .error rfl (List.suffix_refl _) (hself _)
  · have hcons : rest <:+ ⟨t, span⟩ :: rest := List.suffix_cons _ _
    cases t with
    | number x => exact .ok (spanned_of_some [⟨.number x, span⟩] rfl) hcons (.nil _)
    | name n =>
      exact .ok (spanned_of_some [⟨.name n, span⟩] rfl) hcons
        (((NotBeyond.self _).append (.self _)).mono hcons)
    | dash =>
      -- the first alternative fails at the dash, the last one there again
      rcases rest with _ | ⟨⟨u, span'⟩, rest⟩
      · exact .error rfl hcons (.append_left ((NotBeyond.self _).mono hcons)
          ((Furthest.self _).append_right ((NotBeyond.self _).mono hcons)))
      · have hcons' : rest <:+ ⟨u, span'⟩ :: rest := List.suffix_cons _ _
        cases u with
        | number x =>
          exact .ok (spanned_of_some [⟨.dash, span⟩, ⟨.number x, span'⟩] rfl) (hcons'.trans hcons)
            ((NotBeyond.self _).mono (hcons'.trans hcons))
        | _ =>
          exact .error rfl hcons (.append_left ((NotBeyond.self _).mono hcons)
            ((Furthest.self _).append_right ((NotBeyond.self _).mono hcons)))
    | _ => exact .error rfl (List.suffix_refl _) (hself _)

theorem relation_follows {dead : Token → Prop} (ts : Tokens) :
    Follows dead ts (orNot relation ts) (.ok (relation? ts)) := by
  have hself : NotBeyond ts [ts, ts, ts] :=
    (NotBeyond.self ts).append ((NotBeyond.self ts).append (.self ts))
  rcases ts with _ | ⟨⟨t, span⟩, rest⟩
  · exact .ok rfl (List.suffix_refl _) hself
  · have hcons : rest <:+ ⟨t, span⟩ :: rest := List.suffix_cons _ _
    cases t with
    | equal => exact .ok rfl hcons (.nil _)
    | atLeast => exact .ok rfl hcons ((NotBeyond.self _).mono hcons)
    | atMost => exact .ok rfl hcons (((NotBeyond.self _).append (.self _)).mono hcons)
    | _ => exact .ok rfl (List.suffix_refl _) hself

/-- Without its value a priority is given back, the mark included. -/
theorem priority_follows (ts : Tokens) :
    Follows (· = .priorityMark) ts (priority ts) (VisualFormat.priority ts) := by
  rw [priority, orNot]
  unfold VisualFormat.priority
  split
  · rename_i mark ts
    have hwritten : Follows (· = .priorityMark) (⟨.priorityMark, mark⟩ :: ts)
      ((do just .priorityMark; simple : Reader _) _) (VisualFormat.simple ts) :=
      (simple_follows ts).just_bind
    exact (hwritten.bind_pure some).orElse_pure rfl none
  · rename_i hmark
    exact (Refuses.bind (.just_bind hmark _) _).orElse_pure none

theorem condition_follows (ts : Tokens) : Follows (· = .priorityMark) ts (condition ts)
    ((VisualFormat.predicate ts).map (Prod.map Located.value id)) := by
  have hmap {α β γ : Type} (x : Except Tokens α) (g : α → Except Tokens β) (f : β → γ) :
      (x >>= g).map f = x >>= fun a => (g a).map f := by cases x <;> rfl
  have hrelation : Follows Never ts (orNot relation ts) (.ok (relation? ts)) := relation_follows ts
  unfold VisualFormat.predicate
  generalize relation? ts = found at hrelation ⊢
  rw [hmap]
  refine hrelation.bind_ok ?_
  refine (operand_follows found.2).bind_of_never fun o rest _ => ?_
  rw [hmap]
  exact (priority_follows rest).bind_pure _

theorem predicate_follows (ts : Tokens) :
    Follows (· = .priorityMark) ts (predicate ts) (VisualFormat.predicate ts) := by
  refine (condition_follows ts).spanned fun p used rest hts hp => ?_
  obtain ⟨used', hu, heq⟩ := predicate_spells hp
  obtain rfl := List.append_cancel_right (hts.symm.trans heq)
  cases hu
  rfl

/-! ### Conditions in parentheses -/

theorem conditions_of_none {ts : Tokens} (h : (predicate ts).answer = none) :
    conditions ts = ⟨none, (predicate ts).failures⟩ := by
  have hlist : separated predicate (just .comma) ts = ⟨none, (predicate ts).failures⟩ :=
    bind_of_none h
  rw [conditions, bind_of_none (by rw [hlist]), hlist]

/-- Without a comma the round of the repetition fails, and the parenthesis has to follow. -/
theorem conditions_of_last {ts rest : Tokens} {p : Located Predicate}
    (h : (predicate ts).answer = some (p, rest)) (hrest : ∀ span us, rest ≠ ⟨.comma, span⟩ :: us) :
    conditions ts =
      ((just .parenClose rest).map fun _ => [p]).after ((predicate ts).failures ++ [rest]) := by
  have hround := just_bind_of_ne hrest fun _ => predicate
  have hmany : many (do just .comma; predicate) rest = ⟨some ([], rest), [rest]⟩ := by
    rw [many_of_none (by rw [hround]), hround]
  have hlist : separated predicate (just .comma) ts =
      ⟨some ([p], rest), (predicate ts).failures ++ [rest]⟩ := by
    rw [separated_of_some h, hmany]
    rfl
  have hanswer : (separated predicate (just .comma) ts).answer = some ([p], rest) := by rw [hlist]
  rw [conditions, bind_of_some hanswer, hlist]
  exact congrArg (Attempt.after _) (bind_pure_apply _ _ _)

/-- After the comma no condition is read: it is given back, and no parenthesis. -/
theorem conditions_of_comma {ts us : Tokens} {p : Located Predicate} {comma : Span}
    (h : (predicate ts).answer = some (p, ⟨.comma, comma⟩ :: us))
    (hus : (predicate us).answer = none) : conditions ts = ⟨none,
      (predicate ts).failures ++ (predicate us).failures ++ [⟨.comma, comma⟩ :: us]⟩ := by
  have hround := just_bind_cons .comma comma us fun _ => predicate
  have hmany : many (do just .comma; predicate) (⟨.comma, comma⟩ :: us) =
      ⟨some ([], ⟨.comma, comma⟩ :: us), (predicate us).failures⟩ := by
    rw [many_of_none (by rw [hround, hus]), hround]
  have hlist : separated predicate (just .comma) ts = ⟨some ([p], ⟨.comma, comma⟩ :: us),
      (predicate ts).failures ++ (predicate us).failures⟩ := by
    rw [separated_of_some h, hmany]
    rfl
  rw [conditions, bind_of_some (by rw [hlist]), hlist]
  rfl

/-- After the comma the conditions go on. -/
theorem conditions_of_more {ts us rest : Tokens} {p q : Located Predicate} {comma : Span}
    (h : (predicate ts).answer = some (p, ⟨.comma, comma⟩ :: us))
    (hus : (predicate us).answer = some (q, rest)) (hrest : rest <:+ us) :
    conditions ts = ((conditions us).map (p :: ·)).after (predicate ts).failures := by
  have hround := just_bind_cons .comma comma us fun _ => predicate
  have hmany : many (do just .comma; predicate) (⟨.comma, comma⟩ :: us) =
      separated predicate (just .comma) us := by
    rw [many_of_some (by rw [hround, hus]) (Nat.lt_succ_of_le hrest.length_le), hround,
      separated_of_some hus]
  have hlist : separated predicate (just .comma) ts =
      ((separated predicate (just .comma) us).map (p :: ·)).after (predicate ts).failures := by
    rw [separated_of_some h, hmany]
  refine bind_of_map hlist fun ps after => ?_
  rw [bind_pure_apply, bind_pure_apply, Attempt.map_map]
  rfl

theorem conditions_follows (ts : Tokens) :
    Follows Never ts (conditions ts) (VisualFormat.predicates ts) := by
  fun_induction VisualFormat.predicates ts with
  | case1 ts stuck hp =>
    have hfollows := predicate_follows ts
    rw [hp] at hfollows
    cases hfollows with
    | error answer left furthest =>
      rw [conditions_of_none answer]
      exact .error rfl left furthest
    | @back p mark rest _ answer useless kept left furthest =>
      obtain ⟨_, span⟩ := mark
      obtain rfl := useless
      have hmark := (NotBeyond.self (⟨.priorityMark, span⟩ :: rest)).mono left
      rw [conditions_of_last answer (by simp)]
      exact .error rfl (left.trans kept) ((furthest.append_right hmark).append_right hmark)
  | case2 ts p comma us hp ih =>
    have hfollows := predicate_follows ts
    rw [hp] at hfollows
    cases hfollows with | ok answer left notBeyond =>
    have hus : us <:+ ⟨.comma, comma⟩ :: us := List.suffix_cons _ _
    cases hnext : (predicate us).answer with
    | none =>
      -- the comma is given back, and is not the parenthesis wanted there
      rw [conditions_of_none hnext] at ih
      rw [conditions_of_comma answer hnext]
      obtain ⟨stuck, hstuck, left', furthest⟩ := ih.of_answer_none rfl
      rw [hstuck]
      have hcomma := (NotBeyond.self (⟨.comma, comma⟩ :: us)).mono (left'.trans hus)
      exact .error rfl (left'.trans (hus.trans left))
        ((Furthest.append_left (notBeyond.mono (left'.trans hus)) furthest).append_right hcomma)
    | some found =>
      obtain ⟨q, rest⟩ := found
      rw [conditions_of_more answer hnext ((predicate_follows us).left_of_answer hnext)]
      exact (ih.map _).after (hus.trans left) (notBeyond.mono hus)
  | case3 ts p closing rest hp =>
    have hfollows := predicate_follows ts
    rw [hp] at hfollows
    cases hfollows with | ok answer left notBeyond =>
    have hrest : rest <:+ ⟨.parenClose, closing⟩ :: rest := List.suffix_cons _ _
    rw [conditions_of_last answer (by simp)]
    exact .ok rfl (hrest.trans left)
      (((notBeyond.mono hrest).append ((NotBeyond.self _).mono hrest)).append (.nil _))
  | case4 ts p stuck hcomma hclosing hp =>
    have hfollows := predicate_follows ts
    rw [hp] at hfollows
    cases hfollows with | ok answer left notBeyond =>
    rw [conditions_of_last answer fun span us heq => hcomma span us (heq ▸ rfl),
      just_of_ne fun span us heq => hclosing span us (heq ▸ rfl)]
    exact .error rfl left ((Furthest.append_left notBeyond (.self _)).append_right (.self _))

theorem predicates_follows (opening : Span) (ts : Tokens) :
    Follows Never (⟨.parenOpen, opening⟩ :: ts) (predicates (⟨.parenOpen, opening⟩ :: ts))
      (VisualFormat.predicates ts) := (conditions_follows ts).just_bind

/-! ### Connections and views -/

/-- No view and no superview can begin here. -/
def NoItem (t : Token) : Prop := t ≠ .bracketOpen ∧ t ≠ .pipe

theorem dash_follows (c : Connection) (ts : Tokens) :
    Follows Never ts ((do just .dash; return c : Reader Connection) ts)
      (do return (c, ← closingDash ts)) := by
  unfold closingDash
  split
  · exact .just_pure _ _ _ _
  · rename_i hdash
    exact .just_bind_of_ne hdash _

theorem predicates_refuses {ts : Tokens} (h : ∀ span us, ts ≠ ⟨.parenOpen, span⟩ :: us) :
    predicates.Refuses ts := .just_bind h _

/-- Nothing but a number or a name stands between dashes without parentheses. -/
theorem gap_follows_simple {ts rest : Tokens} {o : Located Operand}
    (h : VisualFormat.simple ts = .ok (o, rest)) :
    Follows Never ts (gap ts) (do return (.spacer o, ← closingDash rest)) := by
  have hfollows : Follows Never ts
      ((do let o ← simple; just .dash; return .spacer o : Reader Connection) ts)
      (VisualFormat.simple ts >>= fun found => do
        return (.spacer found.1, ← closingDash found.2)) :=
    (simple_follows ts).bind_of_never fun o rest _ => dash_follows (.spacer o) rest
  rw [h] at hfollows
  refine hfollows.orElse_left (.bind (predicates_refuses fun span us heq => ?_) _)
  rw [heq] at h
  cases h

theorem gap_follows_predicates (opening : Span) (ts : Tokens) :
    Follows Never (⟨.parenOpen, opening⟩ :: ts) (gap (⟨.parenOpen, opening⟩ :: ts))
      (do let (ps, rest) ← VisualFormat.predicates ts
          return (.predicates ps, ← closingDash rest)) := by
  refine .orElse_right (.bind (simple_follows _).refuses _) ?_
  exact (predicates_follows opening ts).bind_of_never fun ps rest _ =>
    dash_follows (.predicates ps) rest

theorem gap_refuses {ts : Tokens} (hsimple : VisualFormat.simple ts = .error ts)
    (hparen : ∀ span us, ts ≠ ⟨.parenOpen, span⟩ :: us) : gap.Refuses ts := by
  have hfollows : Follows Never ts (simple ts) (VisualFormat.simple ts) := simple_follows ts
  rw [hsimple] at hfollows
  exact (hfollows.refuses.bind _).orElse ((predicates_refuses hparen).bind _)

theorem connection_follows_dash (dash : Span) {ts : Tokens}
    {r : Except Tokens (Connection × Tokens)}
    (h : Follows NoItem ts ((do return (← orNot gap).getD .standard : Reader Connection) ts) r) :
    Follows NoItem (⟨.dash, dash⟩ :: ts) (connection (⟨.dash, dash⟩ :: ts)) r := by
  have hdash : Follows NoItem (⟨.dash, dash⟩ :: ts)
    ((do just .dash; return (← orNot gap).getD .standard : Reader Connection) _) r := h.just_bind
  exact hdash.orElse_pure ⟨nofun, nofun⟩ .flush

/-- A gap that no dash ends is given back, and what it begins with is no view. -/
theorem connection_follows_gap (dash : Span) {t : Located Token} {ts : Tokens}
    {r : Except Tokens (Connection × Tokens)} (ht : NoItem t.value)
    (h : Follows Never (t :: ts) (gap (t :: ts)) r) :
    Follows NoItem (⟨.dash, dash⟩ :: t :: ts) (connection (⟨.dash, dash⟩ :: t :: ts)) r := by
  have hgap := (h.of_never NoItem).bind_pure some
  have hread := (hgap.orElse_pure ht none).bind_pure fun c => c.getD .standard
  refine connection_follows_dash dash ?_
  cases r with
  | ok found => exact hread
  | error stuck => exact hread

theorem connection_follows (ts : Tokens) :
    Follows NoItem ts (connection ts) (VisualFormat.connection ts) := by
  unfold VisualFormat.connection
  split
  · exact connection_follows_gap _ ⟨nofun, nofun⟩ (gap_follows_simple rfl)
  · exact connection_follows_gap _ ⟨nofun, nofun⟩ (gap_follows_simple rfl)
  · exact connection_follows_gap _ ⟨nofun, nofun⟩ (gap_follows_predicates _ _)
  · rename_i dash ts hnumber hname hparen
    have hsimple : VisualFormat.simple ts = .error ts := by
      unfold VisualFormat.simple
      split
      · exact absurd rfl (hnumber _ _ _)
      · exact absurd rfl (hname _ _ _)
      · rfl
    have hgap : Follows NoItem ts (orNot gap ts) (.ok (none, ts)) :=
      ((gap_refuses hsimple hparen).bind _).orElse_pure none
    exact connection_follows_dash dash (hgap.bind_pure fun c => c.getD .standard)
  · rename_i hdash
    rw [connection]
    exact (Refuses.just_bind hdash _).orElse_pure Connection.flush

theorem span_of_spellsView {used : Tokens} {v : ViewTerm} (h : SpellsView used v) :
    v.span = cover used := by
  cases h with
  | plain => rfl
  | sized =>
    rw [cover, List.getLast?_append]
    rfl

theorem name_follows (n : String) (span : Span) (ts : Tokens) :
    Follows Never (⟨.name n, span⟩ :: ts) (spanned name (⟨.name n, span⟩ :: ts))
      (.ok (⟨n, span⟩, ts)) :=
  .ok (spanned_of_some [⟨.name n, span⟩] rfl) (List.suffix_cons _ _) (.nil _)

theorem name_follows_of_ne {ts : Tokens} (h : ∀ n span us, ts ≠ ⟨.name n, span⟩ :: us) :
    Follows Never ts (spanned name ts) (.error ts) := by
  rcases ts with _ | ⟨⟨t, span⟩, rest⟩
  · exact .error rfl (List.suffix_refl _) (.self _)
  · cases t with
    | name n => exact absurd rfl (h n span rest)
    | _ => exact .error rfl (List.suffix_refl _) (.self _)

/-- What stands in the brackets may be given back from its parenthesis on, and
this is not the bracket wanted there. -/
theorem bracketed_follows (ts : Tokens) : Follows Never ts (bracketed ts)
    ((VisualFormat.view ts).map fun (v, rest) => ((v.name, v.predicates), rest)) := by
  unfold VisualFormat.view
  split
  · rename_i opening n span closing rest
    have hnone : Follows Never _ (orNot predicates _)
        (.ok (none, ⟨.bracketClose, closing⟩ :: rest)) :=
      ((predicates_refuses (by simp)).bind _).orElse_pure none
    exact .just_bind ((name_follows n span _).bind_ok (hnone.bind_ok (.just_pure _ _ _ _)))
  · rename_i opening n span o ts
    have hsome := ((predicates_follows o ts).of_never (· = .parenOpen)).bind_pure some
    have hsome := hsome.orElse_pure rfl none
    refine .just_bind ((name_follows n span _).bind_ok ?_)
    cases hps : VisualFormat.predicates ts with
    | error stuck =>
      rw [hps] at hsome
      exact hsome.bind_error fun _ _ _ ht =>
        .just_bind (fun span us heq => by cases heq; cases ht) _
    | ok found =>
      obtain ⟨ps, rest⟩ := found
      rw [hps] at hsome
      refine Follows.bind_ok hsome ?_
      rcases rest with _ | ⟨⟨t, closing⟩, rest⟩
      · exact .just_bind_of_ne (by simp) _
      · cases t with
        | bracketClose => exact .just_pure _ _ _ _
        | _ => exact .just_bind_of_ne (by simp) _
  · rename_i opening n span ts hclosing hparen
    have hnone : Follows Never ts (orNot predicates ts) (.ok (none, ts)) :=
      ((predicates_refuses hparen).bind _).orElse_pure none
    exact .just_bind ((name_follows n span _).bind_ok (hnone.bind_ok (.just_bind_of_ne hclosing _)))
  · rename_i hclosing hparen hname
    exact .just_bind ((name_follows_of_ne hname).bind_error fun _ _ _ h => h.elim)
  · rename_i hopening
    exact .just_bind_of_ne hopening _

theorem view_follows (ts : Tokens) : Follows Never ts (view ts) (VisualFormat.view ts) := by
  have hspanned : Follows Never ts (spanned bracketed ts)
      ((VisualFormat.view ts).map fun (v, rest) => (⟨(v.name, v.predicates), v.span⟩, rest)) := by
    refine Follows.spanned ?_ fun v used rest hts hv => ?_
    · have hread := bracketed_follows ts
      cases hview : VisualFormat.view ts <;> rw [hview] at hread <;> exact hread
    · obtain ⟨⟨view, rest'⟩, hview, heq⟩ := map_eq_ok_iff.1 hv
      obtain ⟨rfl, rfl⟩ := Prod.mk.inj heq
      obtain ⟨used', hu, heq⟩ := view_eq_ok_iff.1 hview
      obtain rfl := List.append_cancel_right (hts.symm.trans heq)
      exact span_of_spellsView hu
  have hview := hspanned.bind_pure fun v => (⟨v.value.1, v.value.2, v.span⟩ : ViewTerm)
  cases hread : VisualFormat.view ts with
  | error stuck =>
    rw [hread] at hview
    exact hview
  | ok found =>
    rw [hread] at hview
    exact hview

theorem view_refuses {ts : Tokens} (h : ∀ span us, ts ≠ ⟨.bracketOpen, span⟩ :: us) :
    view.Refuses ts := by
  have hview := view_follows ts
  unfold VisualFormat.view at hview
  split at hview
  · exact absurd rfl (h _ _)
  · exact absurd rfl (h _ _)
  · exact absurd rfl (h _ _)
  · exact absurd rfl (h _ _)
  · exact hview.refuses

/-! ### Formats -/

theorem step_follows {ts next : Tokens} {c : Connection}
    (h : VisualFormat.connection ts = .ok (c, next)) : Follows Never ts (step ts)
      ((VisualFormat.view next).map fun (v, rest) => ((c, v), rest)) := by
  have hconnection := connection_follows ts
  rw [h] at hconnection
  exact hconnection.bind_ok ((view_follows next).bind_pure (c, ·))

theorem step_follows_of_stuck {ts stuck : Tokens} (h : VisualFormat.connection ts = .error stuck) :
    Follows Never ts (step ts) (.error stuck) := by
  have hconnection := connection_follows ts
  rw [h] at hconnection
  exact hconnection.bind_error fun _ _ _ ht =>
    (view_refuses fun _ _ heq => ht.1 (by cases heq; rfl)).bind _

theorem trailing_follows {ts rest : Tokens} {c : Connection} {pipe : Span}
    (h : VisualFormat.connection ts = .ok (c, ⟨.pipe, pipe⟩ :: rest)) :
    Follows Never ts (trailing ts) (.ok (c, rest)) := by
  have hconnection := connection_follows ts
  rw [h] at hconnection
  exact hconnection.bind_ok (.just_pure _ _ _ _)

theorem trailing_follows_of_ne {ts next : Tokens} {c : Connection}
    (h : VisualFormat.connection ts = .ok (c, next))
    (hnext : ∀ pipe rest, next ≠ ⟨.pipe, pipe⟩ :: rest) :
    Follows Never ts (trailing ts) (.error next) := by
  have hconnection := connection_follows ts
  rw [h] at hconnection
  exact hconnection.bind_ok (.just_bind_of_ne hnext _)

theorem trailing_follows_of_stuck {ts stuck : Tokens}
    (h : VisualFormat.connection ts = .error stuck) :
    Follows Never ts (trailing ts) (.error stuck) := by
  have hconnection := connection_follows ts
  rw [h] at hconnection
  exact hconnection.bind_error fun _ _ _ ht =>
    .just_bind (fun _ _ heq => ht.2 (by cases heq; rfl)) _

theorem ending_follows_of_stuck {ts stuck : Tokens} (hne : ts ≠ [])
    (h : Follows Never ts (trailing ts) (.error stuck)) :
    Follows Never ts (ending ts) (.error stuck) := by
  obtain ⟨t, ts, rfl⟩ := List.exists_cons_of_ne_nil hne
  have hsome := (h.of_never fun _ => True).bind_pure some
  have hread : Follows (fun _ => True) (t :: ts) (orNot trailing (t :: ts)) (.error stuck) :=
    hsome.orElse_pure trivial none
  have hend (u : Located Token) (us : Tokens) : atEnd.Refuses (u :: us) := ⟨rfl, .self _⟩
  exact hread.bind_error fun _ u us _ => (hend u us).bind _

theorem tail_of_step_some {ts rest : Tokens} {s : Connection × ViewTerm}
    (h : (step ts).answer = some (s, rest)) (hlt : rest.length < ts.length) :
    tail ts = ((tail rest).map fun (ss, t) => (s :: ss, t)).after (step ts).failures := by
  refine bind_of_map (many_of_some h hlt) fun ss us => ?_
  rw [bind_pure_apply, bind_pure_apply, Attempt.map_map]
  rfl

/-- Where no further view follows. -/
theorem tail_of_step_none {ts : Tokens} (h : (step ts).answer = none) :
    tail ts = ((ending ts).map fun t => ([], t)).after (step ts).failures := by
  have hmany := many_of_none h
  have hanswer : (many step ts).answer = some ([], ts) := by rw [hmany]
  rw [tail, bind_of_some hanswer, hmany]
  exact congrArg (Attempt.after _) (bind_pure_apply _ _ _)

/-- Where no further view follows, and trying for one gets furthest. -/
theorem tail_follows_of_stuck {ts stuck place : Tokens} (hne : ts ≠ [])
    (hstep : Follows Never ts (step ts) (.error stuck))
    (htrailing : Follows Never ts (trailing ts) (.error place)) (hplace : stuck <:+ place) :
    Follows Never ts (tail ts) (.error stuck) := by
  obtain ⟨hnone, left, furthest⟩ := hstep.of_error
  obtain ⟨answer, _, furthest'⟩ := (ending_follows_of_stuck hne htrailing).of_error
  rw [tail_of_step_none hnone]
  exact .error (by rw [Attempt.after, Attempt.map, answer]; rfl) left
    (furthest.append_right (furthest'.notBeyond.mono hplace))

/-- At the superview no further view follows, and there has to be nothing more. -/
theorem tail_follows_of_pipe {ts rest : Tokens} {c : Connection} {pipe : Span}
    (h : VisualFormat.connection ts = .ok (c, ⟨.pipe, pipe⟩ :: rest)) :
    Follows Never ts (tail ts)
      (if rest.isEmpty then .ok (([], some c), []) else .error rest) := by
  obtain ⟨hnone, _, furthest⟩ := (step_follows h).of_error
  have htrailing : Follows Never ts (orNot trailing ts) (.ok (some c, rest)) :=
    ((trailing_follows h).bind_pure some).orElse_ok
  rw [tail_of_step_none hnone]
  cases rest with
  | nil =>
    have hending : Follows Never ts (ending ts) (.ok (some c, [])) :=
      htrailing.bind_ok (.ok rfl (List.suffix_refl []) (.nil []))
    cases hending with | ok answer left _ =>
    exact .ok (by rw [Attempt.after, Attempt.map, answer]; rfl) left fun _ _ => List.nil_suffix
  | cons u us =>
    have hending : Follows Never ts (ending ts) (.error (u :: us)) :=
      htrailing.bind_ok (.error rfl (List.suffix_refl _) (.self _))
    obtain ⟨answer, left, furthest'⟩ := hending.of_error
    exact .error (by rw [Attempt.after, Attempt.map, answer]; rfl) left
      (.append_left (furthest.notBeyond.mono (List.suffix_cons _ _)) furthest')

theorem tail_follows (ts : Tokens) :
    Follows Never ts (tail ts) ((chain ts).map fun r => (r, [])) := by
  fun_induction chain ts with
  | case1 =>
    rw [tail_of_step_none rfl]
    exact .ok rfl (List.suffix_refl _) fun _ _ => List.nil_suffix
  | case2 t ts stuck hc =>
    exact tail_follows_of_stuck (List.cons_ne_nil t ts) (step_follows_of_stuck hc)
      (trailing_follows_of_stuck hc) (List.suffix_refl stuck)
  | case3 t ts c pipe hc => exact tail_follows_of_pipe hc
  | case4 t ts c pipe stuck hstuck hc =>
    have htail := tail_follows_of_pipe hc
    cases stuck with
    | nil => exact (hstuck rfl).elim
    | cons u us => exact htail
  | case5 t ts c next hpipe hmore hc stuck hv =>
    have hview := view_follows next
    have hstep := step_follows hc
    rw [hv] at hview hstep
    exact tail_follows_of_stuck (List.cons_ne_nil t ts) hstep
      (trailing_follows_of_ne hc fun pipe us heq => hmore pipe us (heq ▸ rfl))
      hview.of_error.2.1
  | case6 t ts c next hpipe hmore hc v rest hv ih =>
    have hstep := step_follows hc
    rw [hv] at hstep
    cases hstep with | ok answer left notBeyond =>
    have hc := connection_le hc
    have hv := view_shorter hv
    rw [tail_of_step_some answer (Nat.lt_of_lt_of_le hv hc)]
    have htail := (ih.map fun (ss, trailing) => ((c, v) :: ss, trailing)).after left notBeyond
    generalize chain rest = r at htail ⊢
    cases r <;> exact htail

/-! ### The axis and the front -/

theorem axis_follows {dead : Token → Prop} (ts : Tokens) :
    Follows dead ts (orNot axis ts) (.ok (axis? ts)) := by
  have hself : NotBeyond ts [ts, ts] := (NotBeyond.self ts).append (.self ts)
  rcases ts with _ | ⟨⟨t, span⟩, rest⟩
  · exact .ok rfl (List.suffix_refl _) hself
  · have hcons : rest <:+ ⟨t, span⟩ :: rest := List.suffix_cons _ _
    cases t with
    | horizontal => exact .ok rfl hcons (.nil _)
    | vertical => exact .ok rfl hcons ((NotBeyond.self _).mono hcons)
    | _ => exact .ok rfl (List.suffix_refl _) hself

theorem leading_follows (ts : Tokens) :
    Follows (· ≠ .bracketOpen) ts (orNot leading ts) (leadingConnection ts) := by
  rw [orNot]
  unfold leadingConnection
  split
  · rename_i pipe ts
    have hleading : Follows (· ≠ .bracketOpen) (⟨.pipe, pipe⟩ :: ts) (leading _)
      (VisualFormat.connection ts) := .just_bind ((connection_follows ts).mono fun _ h => h.1)
    exact (hleading.bind_pure some).orElse_pure (by simp) none
  · rename_i hpipe
    exact (Refuses.bind (.just_bind hpipe _) _).orElse_pure none

/-- **Trying reads what looking ahead reads.** And where it reads nothing, it has
got as far. -/
theorem format_follows (ts : Tokens) :
    Follows Never ts (format ts) ((ofTokens ts).map fun f => (f, [])) := by
  unfold ofTokens
  have haxis : Follows Never ts (orNot axis ts) (.ok (axis? ts)) := axis_follows ts
  generalize axis? ts = found at haxis ⊢
  obtain ⟨axis, ts⟩ := found
  refine haxis.bind_ok ?_
  have hleading := leading_follows ts
  show Follows _ _ _ (Except.map _ (leadingConnection ts >>= _))
  cases hl : leadingConnection ts with
  | error stuck =>
    rw [hl] at hleading
    exact hleading.bind_error fun _ _ _ ht =>
      (view_refuses fun _ _ heq => ht (by cases heq; rfl)).bind _
  | ok found =>
    rw [hl] at hleading
    obtain ⟨leading, ts⟩ := found
    refine hleading.bind_ok ?_
    have hview := view_follows ts
    show Follows _ _ _ (Except.map _ (VisualFormat.view ts >>= _))
    cases hv : VisualFormat.view ts with
    | error stuck =>
      rw [hv] at hview
      exact hview.bind_error fun _ _ _ h => h.elim
    | ok found =>
      rw [hv] at hview
      obtain ⟨first, ts⟩ := found
      refine hview.bind_ok ?_
      have htail := (tail_follows ts).bind_pure fun (rest, trailing) =>
        (⟨axis.getD .horizontal, leading, first, rest, trailing⟩ : VisualFormat)
      show Follows _ _ _ (Except.map _ (chain ts >>= _))
      generalize chain ts = r at htail ⊢
      cases r <;> exact htail

theorem format_eq_some_iff {ts rest : Tokens} {f : VisualFormat} :
    (format ts).answer = some (f, rest) ↔ SpellsFormat ts f ∧ rest = [] := by
  rw [← ofTokens_eq_ok_iff]
  have hfollows := format_follows ts
  cases hread : ofTokens ts with
  | ok f' =>
    rw [hread] at hfollows
    cases hfollows with | ok answer =>
    rw [answer]
    simp only [Option.some.injEq, Prod.mk.injEq, Except.ok.injEq, eq_comm]
  | error stuck =>
    rw [hread] at hfollows
    rw [hfollows.of_error.1]
    simp

theorem syntaxError_of_furthest {report : List Tokens → Tokens} (hreport : ReportsFurthest report)
    {text : String} {failures : List Tokens} {stuck : Tokens} (h : Furthest failures stuck) :
    syntaxError report text failures = stuckError text stuck := by
  rw [← h.report_eq hreport]
  cases failures with
  | nil => exact absurd h.mem List.not_mem_nil
  | cons => rfl

/-- **Both report the same.** If the furthest failure is reported, it is the token
that looking ahead gets stuck at. -/
theorem parse_eq {report : List Tokens → Tokens} (hreport : ReportsFurthest report)
    (text : String) : parse report text = VisualFormat.parse text := by
  unfold parse VisualFormat.parse
  cases tokens text with
  | error span => rfl
  | ok ts =>
    cases ts with
    | nil => rfl
    | cons t ts =>
      have hfollows := format_follows (t :: ts)
      cases hread : ofTokens (t :: ts) with
      | ok f =>
        rw [hread] at hfollows
        cases hfollows with | ok answer =>
        simp only [answer, hread]
      | error stuck =>
        rw [hread] at hfollows
        obtain ⟨answer, -, furthest⟩ := hfollows.of_error
        simp only [answer, hread, syntaxError_of_furthest hreport furthest]

end Choice

end ViewMarkup
