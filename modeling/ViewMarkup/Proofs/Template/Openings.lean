/-
# The openings of a template, and the first fault

An opening stands before every expression of a text: the first in the text, the
first after the brace that balances it, and so on, up to one that is never
balanced. A text is read as a template exactly if every opening is balanced and
every body spells a path, by itself or in a call that binds it. Any other text is
refused for the first opening at fault, whatever is wrong further on.

Key definitions: `Path.Fails`, `Expression.Spells`, `Expression.Fails`,
`Template.Opening`, `Template.Openings`.
Key theorems: `Path.parse_eq_error`, `Expression.parse_eq_ok_iff`,
`Expression.fails_of_parse`, `Template.Openings.scan`,
`Template.parse_reports_first_fault`.
-/
import ViewMarkup.Proofs.Template.Writing

namespace ViewMarkup

/-! ### Paths -/

namespace Path

/-- Why a text spells no path: there is nothing in it, or this is the first of the
parts between its points that is no segment. -/
inductive Fails (text : String) : MarkupError → Prop
  | blank (h : trimText text = "") : Fails text (.unresolved "" "empty expression")
  | part {before after : List (List Char)} {part : List Char} (h : trimText text ≠ "")
    (hparts : (trimText text).toList.splitOn '.' = before ++ part :: after)
    (hbefore : ∀ s ∈ before, IsValid (String.ofList s)) (hpart : ¬ IsValid (String.ofList part)) :
    Fails text (.unresolved (trimText text)
      ("'" ++ String.ofList part ++ "' is not a valid path segment"))

theorem isSegment_iff_ofList {part : List Char} :
    isSegment part = true ↔ IsValid (String.ofList part) := by
  rw [← isSegment_iff, String.toList_ofList]

theorem parse_fails_iff {text : String} {e : MarkupError} : parse text = .error e ↔ Fails text e := by
  have hempty : (trim text.toList).isEmpty = true ↔ trimText text = "" := by
    rw [List.isEmpty_iff, trimText, String.ofList_eq_empty_iff]
  have hparts : splitAt '.' (trim text.toList) = (trimText text).toList.splitOn '.' := by
    rw [splitAt_eq_splitOn, trimText, String.toList_ofList]
  simp only [parse, hparts]
  constructor
  · intro h
    split at h
    · rename_i hblank
      cases h
      exact .blank (hempty.1 hblank)
    · rename_i hblank
      split at h
      · rename_i part hfind
        cases h
        obtain ⟨hpart, before, after, hsplit, hbefore⟩ := List.find?_eq_some_iff_append.1 hfind
        have hvalid : ∀ s ∈ before, IsValid (String.ofList s) := fun s hs =>
          isSegment_iff_ofList.1 (by simpa using hbefore s hs)
        have hbad : ¬ IsValid (String.ofList part) := fun hvalid => by
          simp [isSegment_iff_ofList.2 hvalid] at hpart
        exact .part (fun hnil => hblank (hempty.2 hnil)) hsplit hvalid hbad
      · cases h
  · intro h
    cases h with
    | blank h => rw [if_pos (hempty.2 h)]
    | @part before after part h hsplit hbefore hpart =>
      have hbad : (!isSegment part) = true := by
        simpa using fun hgood => hpart (isSegment_iff_ofList.1 hgood)
      have hgood : ∀ s ∈ before, (!(!isSegment s)) = true := fun s hs => by
        simpa using isSegment_iff_ofList.2 (hbefore s hs)
      have hfind : ((trimText text).toList.splitOn '.').find? (fun part => !isSegment part) =
          some part := List.find?_eq_some_iff_append.2 ⟨hbad, before, after, hsplit, hgood⟩
      rw [if_neg (fun hblank => h (hempty.1 hblank)), hfind]
      rfl

/-- Blanks around a text change nothing. -/
theorem Spells.of_trim {text text' : String} {segments : List String}
    (htrim : trimText text = trimText text') (h : Spells text segments) : Spells text' segments :=
  ⟨h.nonempty, h.valid, htrim ▸ h.trimmed⟩

theorem Fails.of_trim {text text' : String} {e : MarkupError}
    (htrim : trimText text = trimText text') (h : Fails text e) : Fails text' e := by
  cases h with
  | blank h => exact .blank (htrim ▸ h)
  | part h hparts hbefore hpart =>
    rw [htrim] at h hparts ⊢
    exact .part h hparts hbefore hpart

end Path

theorem trimText_trim (cs : List Char) : trimText (String.ofList (trim cs)) =
    trimText (String.ofList cs) := by
  rw [trimText, trimText, String.toList_ofList, String.toList_ofList, trim_trim]

/-! ### Bodies -/

namespace Expression

variable {body : List Char} {segments : List String} {mode : BindMode} {span : Span}

/-- The body, apart from blanks around it, spells a path, or is a call that binds
one. -/
inductive Spells (body : List Char) (segments : List String) : BindMode → Prop
  | implicit (h : Path.Spells (String.ofList body) segments) : Spells body segments .implicit
  | explicit {inner : List Char} (hcall : trim body = bindCall ++ inner ++ [')'])
    (h : Path.Spells (String.ofList inner) segments) : Spells body segments .explicit

/-- Why a body stands for no path: what should be a path is none, or a call is not
closed. -/
inductive Fails (body : List Char) : MarkupError → Prop
  | path {e : MarkupError} (hcall : ¬ bindCall <+: trim body)
    (h : Path.Fails (String.ofList body) e) : Fails body e
  | inner {inner : List Char} {e : MarkupError} (hcall : trim body = bindCall ++ inner ++ [')'])
    (h : Path.Fails (String.ofList inner) e) : Fails body e
  | call {rest : List Char} (hcall : trim body = bindCall ++ rest)
    (hopen : ∀ inner, rest ≠ inner ++ [')']) :
    Fails body (.unresolved (trimText (String.ofList body))
      "malformed @bind call, expected @bind(path)")

/-- A path does not start like a call. -/
theorem not_call_of_spells (h : Path.Spells (String.ofList body) segments) :
    ¬ bindCall <+: trim body := by
  rintro ⟨rest, hrest⟩
  have htrim : (Path.joined segments).toList = trim body := by
    rw [← h.trimmed, trimText, String.toList_ofList, String.toList_ofList]
  have hat : '@' ∈ (Path.joined segments).toList := by
    rw [htrim, ← hrest]
    exact List.mem_append_left _ (by decide)
  exact absurd (Path.isWordChar_of_mem_joined h.valid '@' hat) (by decide)

theorem parse_of_spells (h : Spells body segments mode) :
    parse body span = .ok ⟨⟨segments⟩, mode, span⟩ := by
  cases h with
  | implicit h =>
    have hcall := dropStart?_eq_none_iff.2 (not_call_of_spells h)
    have hparse := Path.parse_of_spells (p := ⟨segments⟩) (h.of_trim (trimText_trim body).symm)
    simp only [parse, hcall, hparse]
    rfl
  | explicit hcall h =>
    have hparse := Path.parse_of_spells (p := ⟨segments⟩) h
    simp only [parse, dropStart?_eq_some_iff.2 (hcall.trans (List.append_assoc ..)),
      dropLast?_append, hparse]
    rfl

theorem spells_of_parse {e : Expression} (h : parse body span = .ok e) :
    Spells body e.path.segments e.mode := by
  simp only [parse] at h
  split at h
  · rename_i call hcall
    split at h
    · rename_i inner hinner
      obtain ⟨path, hpath, rfl⟩ := map_eq_ok_iff.1 h
      have htrim : trim body = bindCall ++ inner ++ [')'] := by
        rw [dropStart?_eq_some_iff.1 hcall, dropLast?_eq_some_iff.1 hinner, List.append_assoc]
      exact .explicit htrim (Path.spells_of_parse hpath)
    · cases h
  · obtain ⟨path, hpath, rfl⟩ := map_eq_ok_iff.1 h
    exact .implicit ((Path.spells_of_parse hpath).of_trim (trimText_trim body))

/-- A body is read exactly if it spells a path or a call that binds one. -/
theorem parse_eq_ok_iff {e : Expression} :
    parse body span = .ok e ↔ Spells body e.path.segments e.mode ∧ e.span = span := by
  constructor
  · exact fun h => ⟨spells_of_parse h, parse_span h⟩
  · rintro ⟨h, rfl⟩
    exact parse_of_spells h

/-- A body is refused exactly for what is wrong with it. -/
theorem parse_fails_iff {e : MarkupError} : parse body span = .error e ↔ Fails body e := by
  have htext : String.ofList (trim body) = trimText (String.ofList body) := by
    rw [trimText, String.toList_ofList]
  simp only [parse]
  constructor
  · intro h
    split at h
    · rename_i call hcall
      have hcall := dropStart?_eq_some_iff.1 hcall
      split at h
      · rename_i inner hinner
        have htrim : trim body = bindCall ++ inner ++ [')'] := by
          rw [hcall, dropLast?_eq_some_iff.1 hinner, List.append_assoc]
        exact .inner htrim (Path.parse_fails_iff.1 (map_eq_error_iff.1 h))
      · rename_i hopen
        cases h
        rw [htext]
        refine .call hcall fun inner hinner => ?_
        rw [dropLast?_eq_some_iff.2 hinner] at hopen
        cases hopen
    · rename_i hcall
      have hpath := Path.parse_fails_iff.1 (map_eq_error_iff.1 h)
      exact .path (dropStart?_eq_none_iff.1 hcall) (hpath.of_trim (trimText_trim body))
  · intro h
    cases h with
    | path hcall h =>
      rw [dropStart?_eq_none_iff.2 hcall]
      exact map_eq_error_iff.2 (Path.parse_fails_iff.2 (h.of_trim (trimText_trim body).symm))
    | inner hcall h =>
      simp only [dropStart?_eq_some_iff.2 (hcall.trans (List.append_assoc ..)), dropLast?_append]
      exact map_eq_error_iff.2 (Path.parse_fails_iff.2 h)
    | @call rest hcall hopen =>
      have hlast : dropLast? ')' rest = none := Option.eq_none_iff_forall_ne_some.2
        fun inner hinner => hopen inner (dropLast?_eq_some_iff.1 hinner)
      simp only [dropStart?_eq_some_iff.2 hcall, hlast, htext]

end Expression

/-! ### Openings -/

namespace Template

/-- No brace in the text balances an opening before it. -/
def Unclosed (after : List Char) : Prop := ∀ body rest, Balanced body → after ≠ body ++ '}' :: rest

theorem unclosed_iff {after : List Char} : Unclosed after ↔ spanBody 0 after = none := by
  rw [Option.eq_none_iff_forall_ne_some]
  constructor
  · rintro h ⟨body, rest⟩ hspan
    obtain ⟨hafter, hbody⟩ := spanBody_eq_some_iff.1 hspan
    exact h body rest hbody hafter
  · exact fun h body rest hbody hafter => h _ (spanBody_eq_some_iff.2 ⟨hafter, hbody⟩)

/-- Where an opening is, and the body up to the brace that balances it, if there is
one. -/
structure Opening where
  offset : Nat
  body? : Option (List Char)
  deriving DecidableEq

namespace Opening

/-- The opening is in the text at its offset, in bytes, and its body is what stands
up to the brace that balances it. -/
def StandsIn (source : String) (o : Opening) : Prop :=
  ∃ before after, source.toList = before ++ '#' :: '{' :: after ∧ o.offset = byteLength before ∧
    (o.body? = none → Unclosed after) ∧
    ∀ body, o.body? = some body → ∃ rest, after = body ++ '}' :: rest ∧ Balanced body

/-- The opening is balanced, and its body stands for a path. -/
def Sound (o : Opening) : Prop :=
  ∃ body segments mode, o.body? = some body ∧ Expression.Spells body segments mode

/-- What is wrong with an opening: it is never closed, or its body stands for no
path. -/
inductive Blames (source : String) : Opening → MarkupError → Prop
  | unclosed (offset : Nat) :
    Blames source ⟨offset, none⟩ { fault := .unterminatedExpression source offset }
  | body {offset : Nat} {body : List Char} {e : MarkupError} (h : Expression.Fails body e) :
    Blames source ⟨offset, some body⟩ e

end Opening

/-- The openings of a text, the first character of which is at the offset. One that
is never closed is the last. -/
inductive Openings : Nat → List Char → List Opening → Prop
  | none {offset : Nat} {text : List Char} (h : NoOpening text) : Openings offset text []
  | unclosed {offset : Nat} {before after : List Char} (hbefore : NoOpening before)
    (h : Unclosed after) :
    Openings offset (before ++ '#' :: '{' :: after) [⟨offset + byteLength before, .none⟩]
  | closed {offset : Nat} {before body rest : List Char} {openings : List Opening}
    (hbefore : NoOpening before) (hbody : Balanced body)
    (h : Openings (offset + byteLength before + 2 + byteLength body + 1) rest openings) :
    Openings offset (before ++ '#' :: '{' :: (body ++ '}' :: rest))
      (⟨offset + byteLength before, some body⟩ :: openings)

/-- A text has one first opening at most. -/
theorem first_opening_unique : ∀ {a b x y : List Char}, NoOpening a → NoOpening b →
    a ++ '#' :: '{' :: x = b ++ '#' :: '{' :: y → a = b ∧ x = y
  | [], [], _, _, _, _, h => ⟨rfl, by simpa using h⟩
  | [], c :: b, x, y, _, hb, h => by
    obtain ⟨rfl, hrest⟩ := List.cons.inj h
    refine absurd ⟨rfl, ?_⟩ (noOpening_cons.1 hb).1
    cases b with
    | nil => cases hrest
    | cons d b => exact congrArg some (List.cons.inj hrest).1.symm
  | c :: a, [], x, y, ha, _, h => by
    obtain ⟨rfl, hrest⟩ := List.cons.inj h
    refine absurd ⟨rfl, ?_⟩ (noOpening_cons.1 ha).1
    cases a with
    | nil => cases hrest
    | cons d a => exact congrArg some (List.cons.inj hrest).1
  | c :: a, d :: b, x, y, ha, hb, h => by
    obtain ⟨rfl, hrest⟩ := List.cons.inj h
    obtain ⟨rfl, rfl⟩ := first_opening_unique (noOpening_cons.1 ha).2 (noOpening_cons.1 hb).2 hrest
    exact ⟨rfl, rfl⟩

theorem not_noOpening {before after : List Char} :
    ¬ NoOpening (before ++ '#' :: '{' :: after) :=
  fun h => h ⟨before, after, by simp [opening]⟩

namespace Openings

variable {offset : Nat} {cs : List Char} {openings others : List Opening} {source : String}

theorem unique (h : Openings offset cs openings) (h' : Openings offset cs others) :
    openings = others := by
  induction h generalizing others with
  | @none offset text h =>
    cases h' with
    | none => rfl
    | unclosed => exact absurd h not_noOpening
    | closed => exact absurd h not_noOpening
  | @unclosed offset before after hbefore h =>
    generalize hcs : before ++ '#' :: '{' :: after = cs at h'
    cases h' with
    | none h' => exact absurd (hcs ▸ h') not_noOpening
    | unclosed hbefore' =>
      obtain ⟨rfl, -⟩ := first_opening_unique hbefore hbefore' hcs
      rfl
    | closed hbefore' hbody =>
      obtain ⟨-, rfl⟩ := first_opening_unique hbefore hbefore' hcs
      exact absurd rfl (h _ _ hbody)
  | @closed offset before body rest openings hbefore hbody h ih =>
    generalize hcs : before ++ '#' :: '{' :: (body ++ '}' :: rest) = cs at h'
    cases h' with
    | none h' => exact absurd (hcs ▸ h') not_noOpening
    | unclosed hbefore' h' =>
      obtain ⟨-, rfl⟩ := first_opening_unique hbefore hbefore' hcs
      exact absurd rfl (h' _ _ hbody)
    | closed hbefore' hbody' h' =>
      obtain ⟨rfl, hafter⟩ := first_opening_unique hbefore hbefore' hcs
      have hspan := spanBody_eq_some_iff.2 ⟨hafter, hbody'⟩
      rw [spanBody_eq_some_iff.2 ⟨rfl, hbody⟩] at hspan
      obtain ⟨rfl, rfl⟩ := Prod.mk.inj (Option.some.inj hspan)
      rw [ih h']

theorem exists_openings (offset : Nat) (cs : List Char) : ∃ openings, Openings offset cs openings := by
  induction hlength : cs.length using Nat.strong_induction_on generalizing offset cs with
  | _ n ih =>
    rcases noOpening_or_first cs with hnone | ⟨before, after, hbefore, rfl⟩
    · exact ⟨[], .none hnone⟩
    · cases hspan : spanBody 0 after with
      | none => exact ⟨_, .unclosed hbefore (unclosed_iff.2 hspan)⟩
      | some found =>
        obtain ⟨body, rest⟩ := found
        obtain ⟨rfl, hbody⟩ := spanBody_eq_some_iff.1 hspan
        obtain ⟨openings, h⟩ := ih rest.length (by simp [← hlength]; omega)
          (offset + byteLength before + 2 + byteLength body + 1) rest rfl
        exact ⟨_, .closed hbefore hbody h⟩

/-- Each opening is where it says, and has the body it says. -/
theorem stands (h : Openings offset cs openings) : ∀ front, source.toList = front ++ cs →
    offset = byteLength front → ∀ o ∈ openings, o.StandsIn source := by
  induction h with
  | none => exact fun _ _ _ o ho => absurd ho List.not_mem_nil
  | @unclosed offset before after hbefore h =>
    intro front hsource hoffset o ho
    obtain rfl := List.mem_singleton.1 ho
    refine ⟨front ++ before, after, ?_, ?_, fun _ => h, fun body hbody => by cases hbody⟩
    · rw [hsource, List.append_assoc]
    · rw [byteLength_append, hoffset]
  | @closed offset before body rest openings hbefore hbody h ih =>
    intro front hsource hoffset
    refine List.forall_mem_cons.2 ⟨?_, ?_⟩
    · refine ⟨front ++ before, body ++ '}' :: rest, ?_, ?_, ?_, ?_⟩
      · rw [hsource, List.append_assoc]
      · rw [byteLength_append, hoffset]
      · exact fun hnone => absurd hnone (Option.some_ne_none body)
      · intro body' hbody'
        obtain rfl := Option.some.inj hbody'
        exact ⟨rest, rfl, hbody⟩
    · refine ih (front ++ before ++ '#' :: '{' :: (body ++ ['}'])) ?_ ?_
      · simp [hsource]
      · have hsharp : '#'.utf8Size = 1 := rfl
        have hopen : '{'.utf8Size = 1 := rfl
        have hclose : '}'.utf8Size = 1 := rfl
        rw [byteLength_append, byteLength_append, byteLength, byteLength, byteLength_append,
          byteLength_singleton, hoffset]
        omega

/-- A text whose openings are sound is cut, and any other is refused for the first
that is not. -/
theorem scan (h : Openings offset cs openings) (source : String) :
    ((∀ o ∈ openings, o.Sound) ∧ ∃ segments, Template.scan source offset [] cs = .ok segments) ∨
      ∃ front o back e, openings = front ++ o :: back ∧ (∀ p ∈ front, p.Sound) ∧ ¬ o.Sound ∧
        o.Blames source e ∧ Template.scan source offset [] cs = .error e := by
  induction h with
  | none h => exact .inl ⟨fun o ho => absurd ho List.not_mem_nil, _, scan_noOpening _ [] h⟩
  | @unclosed offset before after hbefore h =>
    have hscan : Template.scan source (offset + byteLength before) (before.reverse ++ [])
        ('#' :: '{' :: after) = _ := scan_unbalanced (unclosed_iff.1 h) _ _
    refine .inr ⟨[], _, [], _, rfl, fun p hp => absurd hp List.not_mem_nil, ?_, .unclosed _, ?_⟩
    · rintro ⟨body, segments, mode, hbody, -⟩
      cases hbody
    · rw [scan_before _ _ _ hbefore, hscan]
  | @closed offset before body rest openings hbefore hbody h ih =>
    rw [scan_before _ _ _ hbefore, scan_balanced (spanBody_eq_some_iff.2 ⟨rfl, hbody⟩)]
    cases hparse : Expression.parse body ⟨offset + byteLength before,
        offset + byteLength before + 2 + byteLength body + 1⟩ with
    | error e =>
      refine .inr ⟨[], _, openings, e, rfl, fun p hp => absurd hp List.not_mem_nil, ?_,
        .body (Expression.parse_fails_iff.1 hparse), ?_⟩
      · rintro ⟨body', segments, mode, hbody', hspells⟩
        obtain rfl := Option.some.inj hbody'
        rw [Expression.parse_of_spells hspells] at hparse
        cases hparse
      · simp only [hparse]
        rfl
    | ok e =>
      have hsound : Opening.Sound ⟨offset + byteLength before, some body⟩ :=
        ⟨body, _, _, rfl, Expression.spells_of_parse hparse⟩
      rcases ih with ⟨hall, segments, hscan⟩ | ⟨front, o, back, e', rfl, hfront, ho, hblames, hscan⟩
      · refine .inl ⟨List.forall_mem_cons.2 ⟨hsound, hall⟩, ?_⟩
        simp only [hparse, hscan]
        exact ⟨_, rfl⟩
      · refine .inr ⟨_ :: front, o, back, e', rfl, List.forall_mem_cons.2 ⟨hsound, hfront⟩, ho,
          hblames, ?_⟩
        simp only [hparse, hscan]
        rfl

end Openings

/-- **The first fault is reported.** Every text has its openings, each of them
where it says. It is read as a template exactly if every opening is balanced and
every body is sound; if not, the error is that of the first opening that is not,
and what is wrong in later ones does not count. -/
theorem parse_reports_first_fault (source : String) : ∃ openings,
    Openings 0 source.toList openings ∧
    (∀ others, Openings 0 source.toList others → others = openings) ∧
    (∀ o ∈ openings, o.StandsIn source) ∧
    ((∃ t, parse source = .ok t) ↔ ∀ o ∈ openings, o.Sound) ∧
    ∀ e, parse source = .error e → ∃ front o back, openings = front ++ o :: back ∧
      (∀ p ∈ front, p.Sound) ∧ ¬ o.Sound ∧ o.Blames source e := by
  obtain ⟨openings, h⟩ := Openings.exists_openings 0 source.toList
  refine ⟨openings, h, fun others h' => h'.unique h, h.stands [] rfl rfl, ?_⟩
  rcases h.scan source with
    ⟨hall, segments, hscan⟩ | ⟨front, o, back, e, rfl, hfront, ho, hblames, hscan⟩
  · have hparse : ∃ t, parse source = .ok t := by
      unfold parse
      rw [hscan]
      cases segments with
      | nil => exact ⟨_, rfl⟩
      | cons segment rest => exact ⟨_, rfl⟩
    refine ⟨⟨fun _ => hall, fun _ => hparse⟩, fun e he => ?_⟩
    obtain ⟨t, ht⟩ := hparse
    rw [he] at ht
    cases ht
  · have hparse : parse source = .error e := by
      unfold parse
      rw [hscan]
      rfl
    refine ⟨⟨fun ⟨t, ht⟩ => ?_, fun hall => ?_⟩, fun e' he => ?_⟩
    · rw [hparse] at ht
      cases ht
    · exact absurd (hall o (by simp)) ho
    · rw [hparse] at he
      cases he
      exact ⟨front, o, back, rfl, hfront, ho, hblames⟩

/-- Of three openings the second is at fault, and so is the last. -/
example : parse "é#\x7ba\x7d #\x7bb!\x7d #\x7bc" =
    .error (.unresolved "b!" "'b!' is not a valid path segment") := by decide +kernel

/-- The text is a path and nothing else: no blanks stand around it. -/
def IsDotted (text : List Char) : Prop :=
  ∃ segments, segments ≠ [] ∧ (∀ s ∈ segments, Path.IsValid s) ∧ text = (Path.joined segments).toList

theorem IsDotted.chars {text : List Char} (h : IsDotted text) :
    ∀ c ∈ text, Path.IsWordChar c ∨ c = '.' := by
  obtain ⟨segments, -, hvalid, rfl⟩ := h
  exact Path.isWordChar_of_mem_joined hvalid

/-- Blanks within a call are trimmed too, so more is read than paths and calls
without blanks. -/
theorem blank_call_read : ∃ openings, Openings 0 "#\x7b@bind( a )\x7d".toList openings ∧
    ¬ ((∃ t, parse "#\x7b@bind( a )\x7d" = .ok t) ↔ ∀ o ∈ openings, ∃ body, o.body? = some body ∧
      (IsDotted (trim body) ∨ ∃ path, IsDotted path ∧ trim body = bindCall ++ path ++ [')'])) := by
  have hspan : spanBody 0 "@bind( a )\x7d".toList = some ("@bind( a )".toList, []) := by decide
  have hopenings : Openings 0 "#\x7b@bind( a )\x7d".toList [⟨0, some "@bind( a )".toList⟩] :=
    .closed noOpening_nil (spanBody_eq_some_iff.1 hspan).2 (.none noOpening_nil)
  refine ⟨_, hopenings, fun hiff => ?_⟩
  have hread : (parse "#\x7b@bind( a )\x7d").toOption.isSome = true := by decide +kernel
  obtain ⟨t, ht⟩ := Option.isSome_iff_exists.1 hread
  obtain ⟨body, hbody, hcall⟩ := hiff.1 ⟨t, toOption_eq_some_iff.1 ht⟩ _ List.mem_cons_self
  obtain rfl := Option.some.inj hbody
  have htrim : trim "@bind( a )".toList = bindCall ++ " a ".toList ++ [')'] := by decide
  rw [htrim] at hcall
  rcases hcall with hpath | ⟨path, hpath, heq⟩
  · exact absurd (hpath.chars '@' (by decide)) (by decide)
  · have hblank : path = " a ".toList := (List.append_cancel_left (List.append_cancel_right heq)).symm
    subst hblank
    exact absurd (hpath.chars ' ' (by decide)) (by decide)

end Template

end ViewMarkup
