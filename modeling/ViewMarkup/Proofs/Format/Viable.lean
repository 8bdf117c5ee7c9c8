/-
# Where reading a format gets stuck

From every stage some format can be completed, with tokens that can be written.
So the tokens of a text that is no format can be gone on with up to the one that
reading gets stuck at, and not past it; and if reading gets stuck at the end,
the text is the beginning of a format.

Key definitions: `Stage.run`, `Stage.completion`, `Viable`.
Key theorems: `exists_ofTokens_iff`, `Viable.exists_run`, `viable_of_run`,
`parse_blames_first_hopeless_token`.
-/
import ViewMarkup.Proofs.Format.Choice
import ViewMarkup.Proofs.Format.Parts
import ViewMarkup.Proofs.Format.Stage
import ViewMarkup.Proofs.Format.Tiling

namespace ViewMarkup.VisualFormat

namespace Stage

/-- The stage that the tokens lead to, one after the other. -/
def run (s : Stage) (ts : List Token) : Option Stage := ts.foldlM step s

theorem run_append (s : Stage) (ts us : List Token) :
    s.run (ts ++ us) = (s.run ts).bind fun s' => s'.run us := List.foldlM_append

theorem run_cons_of_step {s s' : Stage} {t : Token} (h : s.step t = some s') (ts : List Token) :
    s.run (t :: ts) = s'.run ts := by
  rw [run, List.foldlM_cons, h]
  rfl

theorem run_cons_of_step_none {s : Stage} {t : Token} (h : s.step t = none) (ts : List Token) :
    s.run (t :: ts) = none := by
  rw [run, List.foldlM_cons, h]
  rfl

/-! ### Every stage can be completed -/

/-- A view, and nothing after it. -/
def lastView : List Token := [.bracketOpen, .name "a", .bracketClose]

/-- The end of a format in whose parentheses the last condition is read. -/
def afterConditions : Subject → List Token
  | .size => [.parenClose, .bracketClose]
  | .gap _ => .parenClose :: .dash :: lastView

/-- Tokens that complete a format from the stage. -/
def completion : Stage → List Token
  | start | axisRead | connection .leading | dash _ | item _ => lastView
  | connection .between | finished => []
  | gapRead _ | closed (.gap _) => .dash :: lastView
  | opened => [.name "a", .bracketClose]
  | nameRead | closed .size => [.bracketClose]
  | condition subject | object subject | priority subject => .name "a" :: afterConditions subject
  | negative subject =>
    .number (.ofDecimal .double false ⟨digitsValue ['0'], 0⟩) :: afterConditions subject
  | objectRead subject | priorityRead subject => afterConditions subject

theorem run_completion (s : Stage) : ∃ s', s.run s.completion = some s' ∧ s'.accepts = true := by
  cases s with
  | connection side => cases side <;> exact ⟨_, rfl, rfl⟩
  | condition subject => cases subject <;> exact ⟨_, rfl, rfl⟩
  | object subject => cases subject <;> exact ⟨_, rfl, rfl⟩
  | negative subject => cases subject <;> exact ⟨_, rfl, rfl⟩
  | objectRead subject => cases subject <;> exact ⟨_, rfl, rfl⟩
  | priority subject => cases subject <;> exact ⟨_, rfl, rfl⟩
  | priorityRead subject => cases subject <;> exact ⟨_, rfl, rfl⟩
  | closed subject => cases subject <;> exact ⟨_, rfl, rfl⟩
  | _ => exact ⟨_, rfl, rfl⟩

/-- The tokens that completions are made of. -/
def fillers : List Token :=
  [.bracketOpen, .bracketClose, .parenClose, .dash, .name "a",
    .number (.ofDecimal .double false ⟨digitsValue ['0'], 0⟩)]

theorem completion_subset (s : Stage) : s.completion ⊆ fillers := by
  cases s with
  | connection side => cases side <;> simp [completion, lastView, fillers]
  | condition subject => cases subject <;> simp [completion, afterConditions, lastView, fillers]
  | object subject => cases subject <;> simp [completion, afterConditions, lastView, fillers]
  | negative subject => cases subject <;> simp [completion, afterConditions, lastView, fillers]
  | objectRead subject => cases subject <;> simp [completion, afterConditions, lastView, fillers]
  | priority subject => cases subject <;> simp [completion, afterConditions, lastView, fillers]
  | priorityRead subject => cases subject <;> simp [completion, afterConditions, lastView, fillers]
  | closed subject => cases subject <;> simp [completion, lastView, fillers]
  | _ => simp [completion, lastView, fillers]

theorem completion_spelled (s : Stage) : ∀ t ∈ s.completion, ∃ part, t.Spells part := by
  have hname : Token.Spells (.name (String.ofList ['a'])) ['a'] :=
    .name (by decide) fun d hd => absurd hd List.not_mem_nil
  have hzero : IsDigits ['0'] := ⟨by decide, List.forall_mem_singleton.2 rfl⟩
  have hfillers : ∀ t ∈ fillers, ∃ part, t.Spells part := by
    simp only [fillers, List.forall_mem_cons]
    exact ⟨⟨_, .sign rfl⟩, ⟨_, .sign rfl⟩, ⟨_, .sign rfl⟩, ⟨_, .sign rfl⟩, ⟨_, hname⟩,
      ⟨_, .whole hzero⟩, fun t ht => absurd ht List.not_mem_nil⟩
  exact fun t ht => hfillers t (completion_subset s ht)

end Stage

/-! ### Formats and stages -/

section Accepted

variable {s s' : Stage} {ts rest stuck : Tokens}

theorem Passes.run_eq (h : Passes s ts rest s') :
    s.run (ts.map Located.value) = s'.run (rest.map Located.value) := by
  induction h with
  | here => rfl
  | step ht _ ih => rw [List.map_cons, Stage.run_cons_of_step ht, ih]

theorem Halts.exists_run (h : Halts s ts stuck) :
    ∃ before s', ts = before ++ stuck ∧ s.run (before.map Located.value) = some s' ∧
      (stuck = [] → s'.accepts = false) ∧ ∀ t ∈ stuck.head?, s'.step t.value = none := by
  induction h with
  | short hs => exact ⟨[], _, rfl, rfl, fun _ => hs, fun _ ht => absurd ht (Option.not_mem_none _)⟩
  | @unfit s t ts ht =>
    refine ⟨[], s, rfl, rfl, fun h => absurd h (List.cons_ne_nil t ts), fun u hu => ?_⟩
    obtain rfl := Option.some.inj hu
    exact ht
  | @step s s' t ts stuck ht _ ih =>
    obtain ⟨before, last, rfl, hrun, hend, hhead⟩ := ih
    exact ⟨t :: before, last, rfl, (Stage.run_cons_of_step ht _).trans hrun, hend, hhead⟩

/-- Whether tokens are read as a format depends on where they lead alone. -/
theorem exists_ofTokens_iff : (∃ f, ofTokens ts = .ok f) ↔
    ∃ s, Stage.start.run (ts.map Located.value) = some s ∧ s.accepts = true := by
  constructor
  · rintro ⟨f, hf⟩
    obtain ⟨s, hs, haccepts⟩ := ofTokens_tracks.ok hf
    exact ⟨s, hs.run_eq, haccepts⟩
  · rintro ⟨s, hs, haccepts⟩
    cases h : ofTokens ts with
    | ok f => exact ⟨f, rfl⟩
    | error stuck =>
      obtain ⟨before, s', rfl, hrun, hend, hhead⟩ := (ofTokens_tracks.error h).exists_run
      rw [List.map_append, Stage.run_append, hrun, Option.bind_some] at hs
      cases stuck with
      | nil =>
        cases hs
        rw [hend rfl] at haccepts
        cases haccepts
      | cons t stuck =>
        rw [List.map_cons, Stage.run_cons_of_step_none (hhead t rfl)] at hs
        cases hs

end Accepted

/-! ### Beginnings of formats -/

/-- Some format begins with these tokens. -/
def Viable (ts : List Token) : Prop :=
  ∃ format us f, tokens format = .ok us ∧ parse format = .ok f ∧ ts <+: us.map Located.value

theorem ofTokens_of_parse {format : String} {us : Tokens} {f : VisualFormat}
    (hus : tokens format = .ok us) (h : parse format = .ok f) : ofTokens us = .ok f := by
  obtain ⟨us', hus', hf⟩ := parse_eq_ok_iff.1 h
  obtain rfl := Except.ok.inj (hus.symm.trans hus')
  exact ofTokens_eq_ok_iff.2 hf

/-- What formats begin with leads to a stage. -/
theorem Viable.exists_run {ts : List Token} (h : Viable ts) : ∃ s, Stage.start.run ts = some s := by
  obtain ⟨format, us, f, hus, hf, more, hmore⟩ := h
  obtain ⟨s, hs, -⟩ := exists_ofTokens_iff.1 ⟨f, ofTokens_of_parse hus hf⟩
  rw [← hmore, Stage.run_append] at hs
  obtain ⟨s', hs', -⟩ := Option.bind_eq_some_iff.1 hs
  exact ⟨s', hs'⟩

/-- What leads to a stage some format begins with, if it can be spelled. -/
theorem viable_of_run {ts : List Token} {s : Stage} (hts : ∀ t ∈ ts, ∃ part, t.Spells part)
    (hs : Stage.start.run ts = some s) : Viable ts := by
  have hall : ∀ t ∈ ts ++ s.completion, ∃ part, t.Spells part :=
    List.forall_mem_append.2 ⟨hts, s.completion_spelled⟩
  obtain ⟨format, us, hus, hvalues⟩ := exists_tokens_of_spells hall
  obtain ⟨last, hlast, haccepts⟩ := s.run_completion
  have hrun : Stage.start.run (us.map Located.value) = some last := by
    rw [hvalues, Stage.run_append, hs]
    exact hlast
  obtain ⟨f, hf⟩ := exists_ofTokens_iff.2 ⟨last, hrun, haccepts⟩
  refine ⟨format, us, f, hus, parse_eq_ok_iff.2 ⟨us, hus, ofTokens_eq_ok_iff.1 hf⟩, ?_⟩
  rw [hvalues]
  exact List.prefix_append _ _

/-- **The first hopeless token is reported.** If the tokens of a text are no
format, the error is at the first of them with which the tokens so far begin no
format any more; or at the end of the text, if with all of them some format
begins. This is where trying every alternative fails, given that the furthest of
all failures is the one reported, and looking ahead fails there too. -/
theorem parse_blames_first_hopeless_token {report : List Tokens → Tokens}
    (hreport : ReportsFurthest report) {format : String} {ts : Tokens}
    (hts : tokens format = .ok ts) (hne : ts ≠ []) (hno : ∀ f, ¬ SpellsFormat ts f) :
    parse format = Choice.parse report format ∧
    ((∃ before t after, ts = before ++ t :: after ∧ Viable (before.map Located.value) ∧
      ¬ Viable ((before ++ [t]).map Located.value) ∧ Choice.parse report format =
        .error (.ofFormat format t.span ("unexpected " ++ t.value.describe))) ∨
    Viable (ts.map Located.value) ∧ Choice.parse report format = .error (.ofFormat format
      ⟨format.utf8ByteSize, format.utf8ByteSize⟩ "unexpected end of format string")) := by
  have htrying := Choice.parse_eq hreport format
  refine ⟨htrying.symm, ?_⟩
  rw [htrying]
  cases hread : ofTokens ts with
  | ok f => exact absurd (ofTokens_eq_ok_iff.1 hread) (hno f)
  | error stuck =>
    have hspelled : ∀ {us : Tokens}, us ⊆ ts →
        ∀ t ∈ us.map Located.value, ∃ part, t.Spells part := by
      intro us hus t ht
      obtain ⟨u, hu, rfl⟩ := List.mem_map.1 ht
      obtain ⟨part, -, hpart⟩ := tokens_select hts (hus hu)
      exact ⟨part, hpart⟩
    have hparse : parse format = .error (stuckError format stuck) := by
      obtain ⟨t, rest, rfl⟩ := List.exists_cons_of_ne_nil hne
      simp only [parse, hts, hread]
    obtain ⟨before, s, rfl, hrun, hend, hhead⟩ := (ofTokens_tracks.error hread).exists_run
    cases stuck with
    | nil =>
      rw [List.append_nil] at hspelled ⊢
      exact .inr ⟨viable_of_run (hspelled (List.Subset.refl before)) hrun, hparse⟩
    | cons t after =>
      refine .inl ⟨before, t, after, rfl, ?_, fun hviable => ?_, hparse⟩
      · exact viable_of_run (hspelled (List.subset_append_left before _)) hrun
      · obtain ⟨s', hs'⟩ := hviable.exists_run
        rw [List.map_append, Stage.run_append, hrun, Option.bind_some, List.map_singleton,
          Stage.run_cons_of_step_none (hhead t rfl)] at hs'
        cases hs'

/-! ### A bracket that is not closed -/

/-- The tokens of `[a-[b]`. -/
def unclosedTokens : Tokens :=
  [⟨.bracketOpen, ⟨0, 1⟩⟩, ⟨.name "a", ⟨1, 2⟩⟩, ⟨.dash, ⟨2, 3⟩⟩, ⟨.bracketOpen, ⟨3, 4⟩⟩,
    ⟨.name "b", ⟨4, 5⟩⟩, ⟨.bracketClose, ⟨5, 6⟩⟩]

theorem unclosedTokens_blamed : tokens "[a-[b]" = .ok unclosedTokens ∧
    ReportsFurthest Choice.furthest ∧ parse "[a-[b]" = Choice.parse Choice.furthest "[a-[b]" ∧
    ∃ before t after, unclosedTokens = before ++ t :: after ∧ Viable (before.map Located.value) ∧
      ¬ Viable ((before ++ [t]).map Located.value) ∧ Choice.parse Choice.furthest "[a-[b]" =
        .error (.ofFormat "[a-[b]" t.span ("unexpected " ++ t.value.describe)) := by
  have htokens : tokens "[a-[b]" = .ok unclosedTokens := by decide +kernel
  have hrun : Stage.start.run (unclosedTokens.map Located.value) = none := rfl
  have hno : ∀ f, ¬ SpellsFormat unclosedTokens f := by
    intro f hf
    obtain ⟨s, hs, -⟩ := exists_ofTokens_iff.1 ⟨f, ofTokens_eq_ok_iff.2 hf⟩
    rw [hrun] at hs
    cases hs
  have hreport := Choice.furthest_reportsFurthest
  obtain ⟨heq, hstuck | ⟨hviable, -⟩⟩ :=
    parse_blames_first_hopeless_token hreport htokens (by decide) hno
  · exact ⟨htokens, hreport, heq, hstuck⟩
  · obtain ⟨s, hs⟩ := hviable.exists_run
    rw [hrun] at hs
    cases hs

end ViewMarkup.VisualFormat
