/-
# The stages of a format

Parentheses do not nest, so how far the reading of a format has come is one of
finitely many stages, and each token leads from a stage to one other, or does
not fit. The readers go through these stages: one that succeeds passes over the
tokens it takes, and one that fails does so at the first token that does not fit
its stage, or at the end if the stage there is no last one.

Key definitions: `Stage`, `Stage.step`, `Stage.accepts`, `Passes`, `Halts`,
`Tracks`.
Key theorems: `predicates_tracks`, `connection_tracks`, `view_tracks`,
`chain_tracks`, `ofTokens_tracks`.
-/
import ViewMarkup.Proofs.Format.Grammar

namespace ViewMarkup.VisualFormat

/-- Whether a connection leads from the superview to the first view, or from a
view to what comes next. -/
inductive Side
  | leading
  | between
  deriving DecidableEq

/-- What the conditions in parentheses are about. -/
inductive Subject
  | size
  | gap (side : Side)
  deriving DecidableEq

/-- How far the reading of a format has come. -/
inductive Stage
  | start
  | axisRead
  /-- A connection may begin. -/
  | connection (side : Side)
  /-- After the dash that begins a connection. -/
  | dash (side : Side)
  /-- The gap is read, and the dash after it is missing. -/
  | gapRead (side : Side)
  /-- The connection is over. -/
  | item (side : Side)
  /-- After the bracket that opens a view. -/
  | opened
  | nameRead
  /-- A condition may begin. -/
  | condition (subject : Subject)
  /-- The relation is read. -/
  | object (subject : Subject)
  /-- After the dash of a negative number. -/
  | negative (subject : Subject)
  | objectRead (subject : Subject)
  /-- After the mark of a priority. -/
  | priority (subject : Subject)
  | priorityRead (subject : Subject)
  /-- The parentheses are closed. -/
  | closed (subject : Subject)
  | finished
  deriving DecidableEq

namespace Stage

/-- What comes after a connection. -/
def stepItem (side : Side) : Token → Option Stage
  | .bracketOpen => some opened
  | .pipe => if side = .between then some finished else none
  | _ => none

def stepSimple (next : Stage) : Token → Option Stage
  | .number _ => some next
  | .name _ => some next
  | _ => none

def stepObject (subject : Subject) : Token → Option Stage
  | .dash => some (negative subject)
  | t => stepSimple (objectRead subject) t

/-- What comes after a condition. -/
def stepEnd (subject : Subject) : Token → Option Stage
  | .comma => some (condition subject)
  | .parenClose => some (closed subject)
  | _ => none

def stepDash (next : Stage) : Token → Option Stage
  | .dash => some next
  | _ => none

/-- What comes before the first view. -/
def stepLeading : Token → Option Stage
  | .pipe => some (connection .leading)
  | t => stepItem .leading t

/-- The stage that the token leads to. -/
def step : Stage → Token → Option Stage
  | start, .horizontal => some axisRead
  | start, .vertical => some axisRead
  | start, t => stepLeading t
  | axisRead, t => stepLeading t
  | connection side, .dash => some (dash side)
  | connection side, t => stepItem side t
  | dash side, .parenOpen => some (condition (.gap side))
  | dash side, .number _ => some (gapRead side)
  | dash side, .name _ => some (gapRead side)
  | dash side, t => stepItem side t
  | gapRead side, t => stepDash (item side) t
  | item side, t => stepItem side t
  | opened, .name _ => some nameRead
  | nameRead, .bracketClose => some (connection .between)
  | nameRead, .parenOpen => some (condition .size)
  | condition subject, .equal => some (object subject)
  | condition subject, .atLeast => some (object subject)
  | condition subject, .atMost => some (object subject)
  | condition subject, t => stepObject subject t
  | object subject, t => stepObject subject t
  | negative subject, .number _ => some (objectRead subject)
  | objectRead subject, .priorityMark => some (priority subject)
  | objectRead subject, t => stepEnd subject t
  | priority subject, t => stepSimple (priorityRead subject) t
  | priorityRead subject, t => stepEnd subject t
  | closed .size, .bracketClose => some (connection .between)
  | closed (.gap side), t => stepDash (item side) t
  | _, _ => none

/-- Whether the format may end here. -/
def accepts : Stage → Bool
  | connection .between => true
  | finished => true
  | _ => false

/-- The token ahead leads where the function says; if there is none, the format may
not end. -/
def Expects (f : Token → Option Stage) (s : Stage) (ts : Tokens) : Prop :=
  (ts = [] → s.accepts = false) ∧ ∀ t ∈ ts.head?, s.step t.value = f t.value

end Stage

/-! ### Ways through the stages -/

/-- From the stage the tokens up to the rest lead to the last stage. -/
inductive Passes : Stage → Tokens → Tokens → Stage → Prop
  | here {s : Stage} {ts : Tokens} : Passes s ts ts s
  | step {s s' last : Stage} {t : Located Token} {ts rest : Tokens}
    (ht : s.step t.value = some s') (h : Passes s' ts rest last) : Passes s (t :: ts) rest last

/-- From the stage the tokens fit up to the stuck ones, the first of which does
not; or they all fit and end too early. -/
inductive Halts : Stage → Tokens → Tokens → Prop
  | short {s : Stage} (hs : s.accepts = false) : Halts s [] []
  | unfit {s : Stage} {t : Located Token} {ts : Tokens} (ht : s.step t.value = none) :
    Halts s (t :: ts) (t :: ts)
  | step {s s' : Stage} {t : Located Token} {ts stuck : Tokens} (ht : s.step t.value = some s')
    (h : Halts s' ts stuck) : Halts s (t :: ts) stuck

section Ways

variable {s s' last : Stage} {ts mid rest stuck : Tokens}

theorem Passes.trans (h : Passes s ts mid s') (h' : Passes s' mid rest last) :
    Passes s ts rest last := by
  induction h with
  | here => exact h'
  | step ht _ ih => exact .step ht (ih h')

theorem Passes.halts (h : Passes s ts mid s') (h' : Halts s' mid stuck) : Halts s ts stuck := by
  induction h with
  | here => exact h'
  | step ht _ ih => exact .step ht (ih h')

/-- Where the format may not end and what is ahead does not fit, there is no way
on. -/
theorem Stage.Expects.halts {f : Token → Option Stage} (h : s.Expects f ts)
    (hf : ∀ t ∈ ts.head?, f t.value = none) : Halts s ts ts := by
  cases ts with
  | nil => exact .short (h.1 rfl)
  | cons t ts => exact .unfit ((h.2 t rfl).trans (hf t rfl))

end Ways

/-- An outcome goes with the stages: a success passes over the tokens but for those
that are left, to a stage of which `P` holds with them; a failure halts at what it
is stuck at. -/
structure Tracks {α : Type} (left : α → Tokens) (s : Stage) (ts : Tokens) (x : Except Tokens α)
    (P : Stage → Tokens → Prop) : Prop where
  ok : ∀ {a : α}, x = .ok a → ∃ s', Passes s ts (left a) s' ∧ P s' (left a)
  error : ∀ {stuck : Tokens}, x = .error stuck → Halts s ts stuck

namespace Tracks

variable {α β : Type} {left : α → Tokens} {left' : β → Tokens} {s s' : Stage} {t : Located Token}
  {ts mid stuck : Tokens} {a : α} {x : Except Tokens α} {P Q : Stage → Tokens → Prop}

theorem of_ok (h : Passes s ts (left a) s') (hP : P s' (left a)) : Tracks left s ts (.ok a) P where
  ok := fun heq => by
    cases heq
    exact ⟨s', h, hP⟩
  error := fun heq => by cases heq

theorem of_error (h : Halts s ts stuck) : Tracks left s ts (.error stuck) P where
  ok := fun heq => by cases heq
  error := fun heq => by
    cases heq
    exact h

theorem of_passes (h : Passes s ts mid s') (hx : Tracks left s' mid x P) : Tracks left s ts x P where
  ok := fun heq => by
    obtain ⟨last, hlast, hP⟩ := hx.ok heq
    exact ⟨last, h.trans hlast, hP⟩
  error := fun heq => h.halts (hx.error heq)

theorem step (ht : s.step t.value = some s') (hx : Tracks left s' ts x P) :
    Tracks left s (t :: ts) x P := of_passes (.step ht .here) hx

theorem bind {f : α → Except Tokens β} (hx : Tracks left s ts x P)
    (hf : ∀ a s', P s' (left a) → Tracks left' s' (left a) (f a) Q) :
    Tracks left' s ts (x >>= f) Q where
  ok := fun heq => by
    obtain ⟨a, ha, hb⟩ := bind_eq_ok_iff.1 heq
    obtain ⟨s', hs', hP⟩ := hx.ok ha
    exact (of_passes hs' (hf a s' hP)).ok hb
  error := fun heq => by
    rcases bind_eq_error_iff.1 heq with hx' | ⟨a, ha, hb⟩
    · exact hx.error hx'
    · obtain ⟨s', hs', hP⟩ := hx.ok ha
      exact hs'.halts ((hf a s' hP).error hb)

theorem map {f : α → β} (hx : Tracks left s ts x P) (hf : ∀ a, left' (f a) = left a)
    (hP : ∀ s' rest, P s' rest → Q s' rest) : Tracks left' s ts (x.map f) Q where
  ok := fun heq => by
    obtain ⟨a, ha, rfl⟩ := map_eq_ok_iff.1 heq
    obtain ⟨s', hs', h⟩ := hx.ok ha
    rw [hf]
    exact ⟨s', hs', hP _ _ h⟩
  error := fun heq => hx.error (map_eq_error_iff.1 heq)

end Tracks

/-! ### The readers -/

section Readers

open Stage

variable {s next : Stage} {ts : Tokens} {subject : Subject} {side : Side}

theorem expects_nil {f : Token → Option Stage} (ha : s.accepts = false) : s.Expects f [] :=
  ⟨fun _ => ha, fun _ hu => absurd hu (Option.not_mem_none _)⟩

theorem expects_cons {f : Token → Option Stage} {t : Located Token} (ht : s.step t.value = f t.value) :
    s.Expects f (t :: ts) :=
  ⟨fun hnil => absurd hnil (List.cons_ne_nil t ts), fun u hu => by
    obtain rfl := Option.some.inj hu
    exact ht⟩

/-- Some stages do as the function says with every token. -/
theorem expects_all {f : Token → Option Stage} (ha : s.accepts = false) (h : ∀ t, s.step t = f t) :
    s.Expects f ts :=
  ⟨fun _ => ha, fun t _ => h t.value⟩

theorem simple_tracks (hs : s.Expects (stepSimple next) ts) :
    Tracks Prod.snd s ts (simple ts) fun s' _ => s' = next := by
  cases ts with
  | nil => exact .of_error (.short (hs.1 rfl))
  | cons t ts =>
    obtain ⟨value, span⟩ := t
    have hstep := hs.2 _ rfl
    cases value with
    | number x => exact .of_ok (.step hstep .here) rfl
    | name n => exact .of_ok (.step hstep .here) rfl
    | _ => exact .of_error (.unfit hstep)

theorem operand_tracks (hs : s.Expects (stepObject subject) ts) :
    Tracks Prod.snd s ts (operand ts) fun s' _ => s' = objectRead subject := by
  cases ts with
  | nil => exact .of_error (.short (hs.1 rfl))
  | cons t ts =>
    obtain ⟨value, span⟩ := t
    have hstep := hs.2 _ rfl
    cases value with
    | dash =>
      refine .step hstep ?_
      cases ts with
      | nil => exact .of_error (.short rfl)
      | cons t ts =>
        obtain ⟨value, span'⟩ := t
        cases value with
        | number x => exact .of_ok (.step rfl .here) rfl
        | _ => exact .of_error (.unfit rfl)
    | number x => exact .of_ok (.step hstep .here) rfl
    | name n => exact .of_ok (.step hstep .here) rfl
    | _ => exact .of_error (.unfit hstep)

theorem priority_tracks :
    Tracks Prod.snd (objectRead subject) ts (priority ts) (Expects (stepEnd subject)) := by
  cases ts with
  | nil => exact .of_ok .here (expects_nil rfl)
  | cons t ts =>
    obtain ⟨value, span⟩ := t
    cases value with
    | priorityMark =>
      have hsimple : Tracks Prod.snd (.priority subject) ts (simple ts)
          fun s' _ => s' = priorityRead subject := simple_tracks (expects_all rfl fun _ => rfl)
      refine .step rfl (hsimple.map (fun _ => rfl) ?_)
      rintro _ mid rfl
      exact expects_all rfl fun _ => rfl
    | _ => exact .of_ok .here (expects_cons rfl)

theorem relation?_passes (subject : Subject) (ts : Tokens) :
    ∃ s, Passes (condition subject) ts (relation? ts).2 s ∧
      s.Expects (stepObject subject) (relation? ts).2 := by
  cases ts with
  | nil => exact ⟨_, .here, expects_nil rfl⟩
  | cons t ts =>
    obtain ⟨value, span⟩ := t
    cases value with
    | equal => exact ⟨_, .step rfl .here, expects_all rfl fun _ => rfl⟩
    | atLeast => exact ⟨_, .step rfl .here, expects_all rfl fun _ => rfl⟩
    | atMost => exact ⟨_, .step rfl .here, expects_all rfl fun _ => rfl⟩
    | _ => exact ⟨_, .here, expects_cons rfl⟩

theorem predicate_tracks :
    Tracks Prod.snd (condition subject) ts (predicate ts) (Expects (stepEnd subject)) := by
  obtain ⟨s, hpasses, hs⟩ := relation?_passes subject ts
  unfold predicate
  generalize relation? ts = found at hpasses hs
  obtain ⟨r?, after⟩ := found
  refine .of_passes hpasses ((operand_tracks hs).bind ?_)
  rintro ⟨o, mid⟩ _ rfl
  exact priority_tracks.bind fun _ _ h => .of_ok .here h

theorem predicates_tracks :
    Tracks Prod.snd (condition subject) ts (predicates ts) fun s' _ => s' = closed subject := by
  fun_induction predicates ts with
  | case1 ts stuck h => exact .of_error (predicate_tracks.error h)
  | case2 ts p span rest h ih =>
    obtain ⟨s, hs, hexpects⟩ := predicate_tracks.ok h
    exact .of_passes hs (.step (hexpects.2 _ rfl) (ih.map (fun _ => rfl) fun _ _ h => h))
  | case3 ts p span rest h =>
    obtain ⟨s, hs, hexpects⟩ := predicate_tracks.ok h
    exact .of_passes hs (.step (hexpects.2 _ rfl) (.of_ok .here rfl))
  | case4 ts p stuck hcomma hclose h =>
    obtain ⟨s, hs, hexpects⟩ := predicate_tracks.ok h
    refine .of_error (hs.halts (hexpects.halts fun t ht => ?_))
    obtain ⟨rest, rfl⟩ := List.head?_eq_some_iff.1 ht
    obtain ⟨value, span⟩ := t
    cases value with
    | comma => exact (hcomma span rest rfl).elim
    | parenClose => exact (hclose span rest rfl).elim
    | _ => rfl

theorem closingDash_tracks (hs : s.Expects (stepDash next) ts) :
    Tracks id s ts (closingDash ts) fun s' _ => s' = next := by
  cases ts with
  | nil => exact .of_error (.short (hs.1 rfl))
  | cons t ts =>
    obtain ⟨value, span⟩ := t
    have hstep := hs.2 _ rfl
    cases value with
    | dash => exact .of_ok (.step hstep .here) rfl
    | _ => exact .of_error (.unfit hstep)

/-- After a connection only what comes next fits. -/
theorem connection_tracks (hside : ts = [] → side = .leading) :
    Tracks Prod.snd (.connection side) ts (connection ts) (Expects (stepItem side)) := by
  cases ts with
  | nil =>
    rw [hside rfl]
    exact .of_ok .here (expects_nil rfl)
  | cons t ts =>
    obtain ⟨value, span⟩ := t
    cases value with
    | dash =>
      have hgap {c : Connection} {s : Stage} {ts : Tokens}
          (hs : s.Expects (stepDash (item side)) ts) : Tracks Prod.snd s ts
            (closingDash ts >>= fun rest => pure (c, rest)) (Expects (stepItem side)) := by
        refine (closingDash_tracks hs).bind ?_
        rintro rest _ rfl
        exact .of_ok .here (expects_all rfl fun _ => rfl)
      refine .step (rfl : _ = some (Stage.dash side)) ?_
      cases ts with
      | nil => exact .of_ok .here (expects_nil rfl)
      | cons t ts =>
        obtain ⟨value, span'⟩ := t
        cases value with
        | number x => exact .step rfl (hgap (expects_all rfl fun _ => rfl))
        | name n => exact .step rfl (hgap (expects_all rfl fun _ => rfl))
        | parenOpen =>
          refine .step rfl (predicates_tracks.bind ?_)
          rintro ⟨ps, mid⟩ _ rfl
          exact hgap (expects_all rfl fun _ => rfl)
        | _ => exact .of_ok .here (expects_cons rfl)
    | _ => exact .of_ok .here (expects_cons rfl)

theorem view_tracks (hs : s.Expects (stepItem side) ts)
    (hpipe : side = .between → ∀ span rest, ts ≠ ⟨.pipe, span⟩ :: rest) :
    Tracks Prod.snd s ts (view ts) fun s' _ => s' = .connection .between := by
  cases ts with
  | nil => exact .of_error (.short (hs.1 rfl))
  | cons t ts =>
    obtain ⟨value, span⟩ := t
    have hstep := hs.2 _ rfl
    cases value with
    | bracketOpen =>
      refine .step hstep ?_
      cases ts with
      | nil => exact .of_error (.short rfl)
      | cons t ts =>
        obtain ⟨value, span'⟩ := t
        cases value with
        | name n =>
          refine .step (rfl : _ = some nameRead) ?_
          cases ts with
          | nil => exact .of_error (.short rfl)
          | cons t ts =>
            obtain ⟨value, span''⟩ := t
            cases value with
            | bracketClose => exact .of_ok (.step rfl .here) rfl
            | parenOpen =>
              refine .step rfl (predicates_tracks.bind ?_)
              rintro ⟨ps, mid⟩ _ rfl
              cases mid with
              | nil => exact .of_error (.short rfl)
              | cons t rest =>
                obtain ⟨value, closing⟩ := t
                cases value with
                | bracketClose => exact .of_ok (.step rfl .here) rfl
                | _ => exact .of_error (.unfit rfl)
            | _ => exact .of_error (.unfit rfl)
        | _ => exact .of_error (.unfit rfl)
    | pipe =>
      cases side with
      | leading => exact .of_error (.unfit hstep)
      | between => exact absurd rfl (hpipe rfl span ts)
    | _ => exact .of_error (.unfit hstep)

/-- A reader of all that is left ends where the format may end. -/
theorem chain_tracks : Tracks (fun _ => []) (.connection .between) ts (chain ts)
    fun s' _ => s'.accepts = true := by
  have hconnection (t : Located Token) (ts : Tokens) : Tracks Prod.snd (.connection .between)
      (t :: ts) (connection (t :: ts)) (Expects (stepItem .between)) :=
    connection_tracks fun h => absurd h (List.cons_ne_nil t ts)
  fun_induction chain ts with
  | case1 => exact .of_ok .here rfl
  | case2 t ts stuck hc => exact .of_error ((hconnection t ts).error hc)
  | case3 t ts c pipe hc =>
    obtain ⟨s, hs, hexpects⟩ := (hconnection t ts).ok hc
    exact .of_ok (hs.trans (.step (hexpects.2 _ rfl) .here)) rfl
  | case4 t ts c pipe stuck hne hc =>
    obtain ⟨s, hs, hexpects⟩ := (hconnection t ts).ok hc
    refine .of_error (hs.halts (.step (hexpects.2 _ rfl) ?_))
    cases stuck with
    | nil => exact (hne rfl).elim
    | cons u stuck => exact .unfit rfl
  | case5 t ts c next hlast hpipe hc stuck hv =>
    obtain ⟨s, hs, hexpects⟩ := (hconnection t ts).ok hc
    exact .of_error (hs.halts ((view_tracks hexpects fun _ => hpipe).error hv))
  | case6 t ts c next hlast hpipe hc v rest hv ih =>
    obtain ⟨s, hs, hexpects⟩ := (hconnection t ts).ok hc
    obtain ⟨_, hview, rfl⟩ := (view_tracks hexpects fun _ => hpipe).ok hv
    exact .of_passes (hs.trans hview) (ih.map (fun _ => rfl) fun _ _ h => h)

theorem axis?_passes (ts : Tokens) :
    ∃ s, Passes start ts (axis? ts).2 s ∧ s.Expects stepLeading (axis? ts).2 := by
  cases ts with
  | nil => exact ⟨_, .here, expects_nil rfl⟩
  | cons t ts =>
    obtain ⟨value, span⟩ := t
    cases value with
    | horizontal => exact ⟨_, .step rfl .here, expects_all rfl fun _ => rfl⟩
    | vertical => exact ⟨_, .step rfl .here, expects_all rfl fun _ => rfl⟩
    | _ => exact ⟨_, .here, expects_cons rfl⟩

theorem leadingConnection_tracks (hs : s.Expects stepLeading ts) :
    Tracks Prod.snd s ts (leadingConnection ts) (Expects (stepItem .leading)) := by
  cases ts with
  | nil => exact .of_ok .here (expects_nil (hs.1 rfl))
  | cons t ts =>
    obtain ⟨value, span⟩ := t
    have hstep := hs.2 _ rfl
    cases value with
    | pipe => exact .step hstep ((connection_tracks fun _ => rfl).map (fun _ => rfl) fun _ _ h => h)
    | _ => exact .of_ok .here (expects_cons hstep)

theorem ofTokens_tracks : Tracks (fun _ => []) .start ts (ofTokens ts)
    fun s' _ => s'.accepts = true := by
  obtain ⟨s, hpasses, hs⟩ := axis?_passes ts
  unfold ofTokens
  generalize axis? ts = found at hpasses hs
  obtain ⟨a?, after⟩ := found
  refine .of_passes hpasses ((leadingConnection_tracks hs).bind ?_)
  rintro ⟨leading, mid⟩ s' hs'
  refine (view_tracks hs' fun h => by cases h).bind ?_
  rintro ⟨first, mid'⟩ _ rfl
  exact chain_tracks.bind fun _ _ h => .of_ok .here h

end Readers

end ViewMarkup.VisualFormat
