/-
# Labels cover the text at fault

The report on an error that points into a text shows this text and labels a part of
it. The part is told in bytes, by readers of formats and templates and by what
resolves a spec, and is shown in characters. Each such part begins and ends between
two characters of the text it was read from, so that nothing of it is lost when
characters are counted instead of bytes.

Key definitions: `MarkupError.label?`, `Span.Covers`, `MarkupError.LabelsPartOf`,
`MarkupError.Selects`.
Key theorems: `MarkupError.report_eq`, `Span.Selects.covers`,
`VisualFormat.parse_selects`, `resolve_labelsPartOf`, `Template.parse_labelsPartOf`,
`labels_cover`.
-/
import ViewMarkup.Proofs.Constraint.Accepted
import ViewMarkup.Proofs.Format.Viable
import ViewMarkup.Proofs.Template.Openings
import ViewMarkup.Report

namespace ViewMarkup

/-! ### Labels -/

/-- The text that a report on the error shows, the part of it that is labelled, and the
label; none where the report is the message alone. -/
def MarkupError.label? (e : MarkupError) : Option (String × Span × String) :=
  match e.fault with
  | .malformedFormat format (some span) text _ => some (format, span, text)
  | .unterminatedExpression template offset =>
    some (template, ⟨offset, template.utf8ByteSize⟩, "expression is never closed")
  | _ => none

/-- A report draws the part that is labelled, counted in characters. -/
theorem MarkupError.report_eq (e : MarkupError) (filename : String) : e.report filename =
    match e.label? with
    | some (source, span, label) =>
      Report.draw e.message filename source (span.inChars source) label
    | none => "Error: " ++ e.message := by
  unfold report label?
  cases e.fault with
  | malformedFormat format span text names => cases span <;> rfl
  | _ => rfl

/-- The span lies in the text and begins and ends between characters, and the
characters counted to be in it are those whose bytes it holds. -/
structure Span.Covers (span : Span) (text : String) : Prop where
  le : span.start ≤ span.stop
  le_size : span.stop ≤ text.utf8ByteSize
  start_isValid : String.Pos.Raw.IsValid text ⟨span.start⟩
  stop_isValid : String.Pos.Raw.IsValid text ⟨span.stop⟩
  chars_le : (span.inChars text).start ≤ (span.inChars text).stop
  chars_le_length : (span.inChars text).stop ≤ text.length
  same : (String.ofList (span.slice text)).toByteArray =
    text.toByteArray.extract span.start span.stop

/-- If the report on the error labels anything, it is a part of this text, counted in
characters. -/
def MarkupError.LabelsPartOf (text : String) (e : MarkupError) : Prop :=
  ∀ source span label, e.label? = some (source, span, label) →
    source = text ∧ span.Covers text ∧
      ∀ filename, e.report filename = Report.draw e.message filename text (span.inChars text) label

/-! ### Parts of a text -/

variable {span : Span} {text : String} {part : List Char}

/-- What selects a part of a text covers it. -/
theorem Span.Selects.covers (h : span.Selects text part) : span.Covers text := by
  have hslice := h.slice_eq
  obtain ⟨before, after, htext, hstart, hstop⟩ := h
  have hchars := Span.inChars_eq htext hstart hstop
  have hcut : text = String.ofList before ++ String.ofList part ++ String.ofList after := by
    rw [← String.ofList_append, ← String.ofList_append, ← htext, String.ofList_toList]
  have hbytes : text.toByteArray = (String.ofList before).toByteArray ++
      (String.ofList part).toByteArray ++ (String.ofList after).toByteArray := by
    rw [hcut, String.toByteArray_append, String.toByteArray_append]
  rw [byteLength_eq_utf8ByteSize] at hstart
  rw [byteLength_eq_utf8ByteSize, byteLength_eq_utf8ByteSize] at hstop
  have hle : span.start ≤ span.stop := by omega
  refine ⟨hle, ?_, ?_, ?_, ?_, ?_, ?_⟩
  · rw [hcut, String.utf8ByteSize_append, String.utf8ByteSize_append]
    omega
  · refine String.Pos.Raw.isValid_iff_exists_append.2 ⟨String.ofList before,
      String.ofList part ++ String.ofList after, ?_, congrArg _ hstart⟩
    rw [hcut, String.append_assoc]
  · refine String.Pos.Raw.isValid_iff_exists_append.2 ⟨_, _, hcut, congrArg _ ?_⟩
    rw [hstop, String.utf8ByteSize_append]
  · rw [hchars]
    exact Nat.le_add_right _ _
  · rw [hchars, ← String.length_toList, htext, List.length_append, List.length_append]
    exact Nat.le_add_right _ _
  · have hsize (s t : String) : (s.toByteArray ++ t.toByteArray).size =
        s.utf8ByteSize + t.utf8ByteSize := by simp
    rw [hslice, hbytes, ByteArray.extract_append, hsize, ← hstop, Nat.sub_self,
      Nat.sub_eq_zero_of_le hle, ByteArray.extract_same, ByteArray.append_empty]
    exact (ByteArray.extract_append_eq_right hstart hstop).symm

/-- The whole text is a part of itself. -/
theorem Span.selects_all (text : String) : Span.Selects ⟨0, text.utf8ByteSize⟩ text text.toList :=
  ⟨[], [], by simp, rfl, by rw [byteLength_toList, byteLength, Nat.zero_add]⟩

/-- At the end of a text stands nothing. -/
theorem Span.selects_end (text : String) :
    Span.Selects ⟨text.utf8ByteSize, text.utf8ByteSize⟩ text [] :=
  ⟨text.toList, [], by simp, (byteLength_toList text).symm, (byteLength_toList text).symm⟩

/-- The report on the error labels what the span selects in this text. -/
def MarkupError.Selects (text : String) (e : MarkupError) : Prop :=
  ∃ span label part, e.label? = some (text, span, label) ∧ span.Selects text part

theorem MarkupError.Selects.labelsPartOf {e : MarkupError} (h : e.Selects text) :
    e.LabelsPartOf text := by
  obtain ⟨span, label, part, hlabel, hselects⟩ := h
  intro source span' label' hlabel'
  rw [hlabel] at hlabel'
  cases hlabel'
  refine ⟨rfl, hselects.covers, fun filename => ?_⟩
  rw [e.report_eq, hlabel]

theorem MarkupError.labelsPartOf_of_none {e : MarkupError} (h : e.label? = none) (text : String) :
    e.LabelsPartOf text := by
  intro source span label hlabel
  rw [h] at hlabel
  cases hlabel

/-! ### Formats -/

/-- The scan stops at one character, which is labelled and named. -/
theorem parse_of_tokens_error {format : String} {span : Span} (h : tokens format = .error span) :
    ∃ c, span.Selects format [c] ∧ VisualFormat.parse format =
      .error (.ofFormat format span ("unexpected character '" ++ String.ofList [c] ++ "'")) := by
  obtain ⟨before, c, after, htext, rfl, -⟩ := StopsAt.of_tokens h
  have hselects : Span.Selects ⟨byteLength before, byteLength before + c.utf8Size⟩ format [c] :=
    ⟨before, after, by rw [htext, List.append_assoc, List.singleton_append], rfl,
      by rw [byteLength_singleton]⟩
  have hslice := hselects.slice_eq
  refine ⟨c, hselects, ?_⟩
  rw [← hslice]
  simp only [VisualFormat.parse, h]
  rfl

/-- What is wrong with a format is labelled in it. -/
theorem VisualFormat.parse_selects (format : String) :
    FailsWith (MarkupError.Selects format) (parse format) := by
  cases htokens : tokens format with
  | error span =>
    obtain ⟨c, hselects, hparse⟩ := parse_of_tokens_error htokens
    rw [hparse]
    exact .error ⟨_, _, _, rfl, hselects⟩
  | ok ts =>
    cases ts with
    | nil =>
      simp only [parse, htokens]
      exact .error ⟨_, _, _, rfl, Span.selects_all format⟩
    | cons t ts =>
      cases hread : ofTokens (t :: ts) with
      | ok f =>
        simp only [parse, htokens, hread]
        exact .ok f
      | error stuck =>
        simp only [parse, htokens, hread]
        -- The reader stops among the tokens, or after the last of them.
        obtain ⟨before, s, hsplit, -⟩ := (ofTokens_tracks.error hread).exists_run
        cases stuck with
        | nil => exact .error ⟨_, _, _, rfl, Span.selects_end format⟩
        | cons u after =>
          have hu : u ∈ t :: ts := by simp [hsplit]
          obtain ⟨part, hselects, -⟩ := tokens_select htokens hu
          exact .error ⟨_, _, _, rfl, hselects⟩

/-! ### Specs -/

/-- What is wrong with options is no part of the format. -/
theorem FormatOptions.parse_unlabelled (format : String) (options : List String) :
    FailsWith (fun e => e.label? = none) (FormatOptions.parse format options) := by
  refine .bind (.foldlM (fun option _ state => ?_) _) fun _ => .ok _
  unfold add
  dsimp only
  split
  · exact .ok _
  · split
    · exact .error rfl
    · exact .ok _
  · exact .error rfl

/-- What is wrong with a spec is labelled in its format, if it is a part of it. -/
theorem resolve_labelsPartOf (spec : ConstraintSpec) (ids : IdTable) (spacing : Spacing) :
    FailsWith (MarkupError.LabelsPartOf spec.format) (resolve spec ids spacing) := by
  intro e he
  have hsteps := he
  rcases bind_eq_error_iff.1 hsteps with hparse | ⟨f, hparse, hsteps⟩
  · exact (VisualFormat.parse_selects spec.format e hparse).labelsPartOf
  · rcases bind_eq_error_iff.1 hsteps with hoptions | ⟨options, hoptions, hsteps⟩
    · exact MarkupError.labelsPartOf_of_none (FormatOptions.parse_unlabelled _ _ e hoptions) _
    · split at hsteps
      · cases hsteps
        exact MarkupError.labelsPartOf_of_none rfl _
      · rename_i hnone
        have hfit : FormatOptions.Fit spec.options f.axis := by
          refine FormatOptions.parse_ok_iff.1 ⟨options, hoptions, fun a ha => ?_⟩
          have hacross := List.find?_eq_none.1 hnone a ha
          rwa [decide_eq_true_iff] at hacross
        obtain ⟨t, text, names, hflaw, rfl⟩ := resolve_blames hparse hfit e he
        obtain ⟨ts, hts, hspells⟩ := VisualFormat.parse_eq_ok_iff.1 hparse
        obtain ⟨part, hselects, -⟩ := tokens_select hts (hflaw.mem hspells)
        exact MarkupError.Selects.labelsPartOf ⟨_, _, _, rfl, hselects⟩

/-! ### Templates -/

/-- What is wrong with a path is no part of a template. -/
theorem Path.Fails.unlabelled {e : MarkupError} (h : Path.Fails text e) : e.label? = none := by
  cases h <;> rfl

theorem Expression.Fails.unlabelled {body : List Char} {e : MarkupError}
    (h : Expression.Fails body e) : e.label? = none := by
  cases h with
  | path _ h => exact h.unlabelled
  | inner _ h => exact h.unlabelled
  | call => rfl

namespace Template

/-- An opening that is never closed is labelled from its first character to the end. -/
theorem Opening.Blames.labelsPartOf {source : String} {o : Opening} {e : MarkupError}
    (h : o.Blames source e) (hstands : o.StandsIn source) : e.LabelsPartOf source := by
  cases h with
  | unclosed offset =>
    obtain ⟨before, after, hsource, hoffset, -⟩ := hstands
    have hsize := byteLength_toList source
    rw [hsource, byteLength_append] at hsize
    exact MarkupError.Selects.labelsPartOf ⟨_, _, '#' :: '{' :: after, rfl, before, [],
      by rw [hsource, List.append_nil], hoffset, hsize.symm⟩
  | body h => exact MarkupError.labelsPartOf_of_none h.unlabelled source

theorem parse_labelsPartOf (source : String) :
    FailsWith (MarkupError.LabelsPartOf source) (Template.parse source) := by
  obtain ⟨openings, h⟩ := Openings.exists_openings 0 source.toList
  refine .bind ?_ fun segments => ?_
  · rcases h.scan source with ⟨-, segments, hscan⟩ | ⟨front, o, back, e, rfl, -, -, hblames, hscan⟩
    · rw [hscan]
      exact .ok segments
    · rw [hscan]
      exact .error (hblames.labelsPartOf (h.stands [] rfl rfl o (by simp)))
  · split <;> exact .ok _

end Template

/-! ### All labels -/

/-- **Labels cover the text at fault.** If the report on what is wrong with a format, a
spec or a template labels anything, it draws the format or the template, and the label
has a place in it: it begins and ends between characters, and counted in characters it
is on the same text as in bytes. Where a format is not even cut into tokens, the label
is on the one character that the message names. -/
theorem labels_cover :
    (∀ format, FailsWith (MarkupError.LabelsPartOf format) (VisualFormat.parse format)) ∧
      (∀ (spec : ConstraintSpec) (ids : IdTable) (spacing : Spacing),
        FailsWith (MarkupError.LabelsPartOf spec.format) (resolve spec ids spacing)) ∧
      (∀ template, FailsWith (MarkupError.LabelsPartOf template) (Template.parse template)) ∧
      ∀ format span, tokens format = .error span → ∃ c, span.slice format = [c] ∧
        VisualFormat.parse format =
          .error (.ofFormat format span
            ("unexpected character '" ++ String.ofList [c] ++ "'")) := by
  refine ⟨fun format e he => (VisualFormat.parse_selects format e he).labelsPartOf,
    resolve_labelsPartOf, Template.parse_labelsPartOf, fun format span h => ?_⟩
  obtain ⟨c, hselects, hparse⟩ := parse_of_tokens_error h
  exact ⟨c, hselects.slice_eq, hparse⟩

/-- Characters of two bytes at fault, and in front of what is. -/
theorem accentedTexts_labelled :
    (Span.Covers ⟨4, 6⟩ "[café]" ∧ Span.inChars ⟨4, 6⟩ "[café]" = ⟨4, 5⟩ ∧
      VisualFormat.parse "[café]" =
        .error (.ofFormat "[café]" ⟨4, 6⟩
          ("unexpected character '" ++ String.ofList ['é'] ++ "'"))) ∧
      Span.Covers ⟨8, 14⟩ "Grüße #\x7bname" ∧ Span.inChars ⟨8, 14⟩ "Grüße #\x7bname" = ⟨6, 12⟩ := by
  obtain ⟨hformats, -, htemplates, hscan⟩ := labels_cover
  have htokens : tokens "[café]" = .error ⟨4, 6⟩ := by decide +kernel
  obtain ⟨c, hslice, hparse⟩ := hscan _ _ htokens
  obtain rfl : c = 'é' := by
    have hc : Span.slice ⟨4, 6⟩ "[café]" = ['é'] := by decide +kernel
    rw [hc] at hslice
    cases hslice
    rfl
  have htemplate : Template.parse "Grüße #\x7bname" =
      .error { fault := .unterminatedExpression "Grüße #\x7bname" 8 } := by decide +kernel
  have hformat := (hformats _ _ hparse _ _ _ rfl).2.1
  have hcovers := (htemplates _ _ htemplate _ _ _ rfl).2.1
  exact ⟨⟨hformat, by decide +kernel, hparse⟩, hcovers, by decide +kernel⟩

end ViewMarkup
