/-
# Templates read and written

What is read as a template can be put together again: literals and the slices
that expressions stand in are the text, with nothing dropped and nothing twice.
And what is written from literals and paths is read as just these, whatever the
literals end or start with, as long as none holds an opening or could be joined
with the next one.

Key definitions: `Template.IsCut`, `Piece`, `Piece.Writable`.
Key theorems: `Template.parse_eq_ok_iff`, `Template.isCut_of_parse`,
`Template.exists_parse_written`, `Template.reads_what_is_written`.
-/
import Mathlib.Data.List.Chain
import ViewMarkup.Proofs.Template.Cut
import ViewMarkup.Proofs.Template.Spelling
import ViewMarkup.Proofs.Text.Affix
import ViewMarkup.Proofs.Text.Blank

namespace ViewMarkup

variable {source : String} {offset : Nat} {cs : List Char} {segments : List Segment}
  {e : Expression} {text : String}

theorem Expression.parse_span {body : List Char} {span : Span}
    (h : Expression.parse body span = .ok e) : e.span = span := by
  obtain ⟨text, path, mode, -, rfl⟩ := exists_of_parse h
  rfl

/-- What a segment says, apart from its place. -/
inductive Piece
  | literal (text : String)
  | expression (path : Path) (mode : BindMode)
  deriving DecidableEq

def Piece.isLiteral : Piece → Bool
  | literal _ => true
  | expression _ _ => false

namespace Segment

def piece : Segment → Piece
  | literal text => .literal text
  | expression e => .expression e.path e.mode

def isLiteral (segment : Segment) : Bool := segment.piece.isLiteral

/-- What of the source the segment stands for. -/
def portion (source : String) : Segment → List Char
  | literal text => text.toList
  | expression e => e.span.slice source

end Segment

namespace Template

/-- The segments are the source, cut before each expression and after the brace
that balances its opening. -/
structure IsCut (source : String) (segments : List Segment) : Prop where
  joined : segments.flatMap (Segment.portion source) = source.toList
  selects : ∀ e, .expression e ∈ segments →
    ∃ body, Balanced body ∧ e.span.Selects source ('#' :: '{' :: (body ++ ['}']))
  increasing : (segments.filterMap Segment.expression?).Pairwise
    fun e f => e.span.stop ≤ f.span.start
  noOpening : ∀ text, .literal text ∈ segments → NoOpening text.toList
  apart : segments.IsChain fun a b => ¬ (a.isLiteral = true ∧ b.isLiteral = true)
  empty : .literal "" ∈ segments → source = ""

/-! ### Segments after a literal -/

section withLiteral

variable {before : List Char}

theorem withLiteral_nil : withLiteral [] segments = segments := rfl

theorem withLiteral_of_ne_nil (h : before ≠ []) :
    withLiteral before segments = .literal (String.ofList before) :: segments :=
  if_neg fun hempty => h (List.isEmpty_iff.1 hempty)

theorem literal_mem_withLiteral : .literal text ∈ withLiteral before segments ↔
    (before ≠ [] ∧ text = String.ofList before) ∨ .literal text ∈ segments := by
  by_cases h : before = []
  · subst h
    simp [withLiteral_nil]
  · simp [withLiteral_of_ne_nil h, h]

theorem filterMap_withLiteral : (withLiteral before segments).filterMap Segment.expression? =
    segments.filterMap Segment.expression? := by
  by_cases h : before = []
  · rw [h, withLiteral_nil]
  · rw [withLiteral_of_ne_nil h, List.filterMap_cons]
    rfl

theorem flatMap_withLiteral : (withLiteral before segments).flatMap (Segment.portion source) =
    before ++ segments.flatMap (Segment.portion source) := by
  by_cases h : before = []
  · rw [h, withLiteral_nil, List.nil_append]
  · rw [withLiteral_of_ne_nil h, List.flatMap_cons, Segment.portion, String.toList_ofList]

end withLiteral

/-! ### Reading -/

namespace Cut

theorem literals (h : Cut offset cs segments) :
    ∀ text, .literal text ∈ segments → text ≠ "" ∧ NoOpening text.toList := by
  have hliteral {before : List Char} (hne : before ≠ []) (hno : NoOpening before) :
      String.ofList before ≠ "" ∧ NoOpening (String.ofList before).toList := by
    rw [String.toList_ofList]
    exact ⟨fun hempty => hne (String.ofList_eq_empty_iff.1 hempty), hno⟩
  induction h with
  | last h =>
    intro text hmem
    rcases literal_mem_withLiteral.1 hmem with ⟨hne, rfl⟩ | hmem
    · exact hliteral hne h
    · cases hmem
  | expression hbefore _ _ _ ih =>
    intro text hmem
    rcases literal_mem_withLiteral.1 hmem with ⟨hne, rfl⟩ | hmem
    · exact hliteral hne hbefore
    · rcases List.mem_cons.1 hmem with heq | hmem
      · cases heq
      · exact ih text hmem

theorem apart (h : Cut offset cs segments) :
    segments.IsChain fun a b => ¬ (a.isLiteral = true ∧ b.isLiteral = true) := by
  induction h with
  | @last offset text h =>
    by_cases hne : text = []
    · rw [hne, withLiteral_nil]
      exact .nil
    · rw [withLiteral_of_ne_nil hne]
      exact .singleton _
  | @expression offset before body rest e segments hbefore _ _ _ ih =>
    have hrest : (.expression e :: segments).IsChain
        fun a b => ¬ (Segment.isLiteral a = true ∧ b.isLiteral = true) :=
      ih.cons fun b _ hboth => Bool.false_ne_true hboth.1
    by_cases hne : before = []
    · rwa [hne, withLiteral_nil]
    · rw [withLiteral_of_ne_nil hne]
      refine hrest.cons fun b hb hboth => ?_
      obtain rfl := Option.some.inj hb
      exact Bool.false_ne_true hboth.2

/-- Expressions start no earlier than the characters, and each one after those
before it. -/
theorem increasing (h : Cut offset cs segments) :
    (∀ e ∈ segments.filterMap Segment.expression?, offset ≤ e.span.start) ∧
      (segments.filterMap Segment.expression?).Pairwise fun e f => e.span.stop ≤ f.span.start := by
  induction h with
  | last h =>
    rw [filterMap_withLiteral]
    exact ⟨fun e he => absurd he List.not_mem_nil, .nil⟩
  | @expression offset before body rest e segments _ _ he _ ih =>
    obtain ⟨hstart, hpairwise⟩ := ih
    have hspan := Expression.parse_span he
    rw [filterMap_withLiteral, List.filterMap_cons]
    refine ⟨List.forall_mem_cons.2 ⟨?_, fun f hf => ?_⟩, .cons (fun f hf => ?_) hpairwise⟩
    · rw [hspan]
      exact Nat.le_add_right _ _
    · have hle := hstart f hf
      omega
    · rw [hspan]
      exact hstart f hf

theorem selects (h : Cut offset cs segments) :
    ∀ front, source.toList = front ++ cs → offset = byteLength front →
      (∀ e, .expression e ∈ segments →
        ∃ body, Balanced body ∧ e.span.Selects source ('#' :: '{' :: (body ++ ['}']))) ∧
      segments.flatMap (Segment.portion source) = cs := by
  induction h with
  | @last offset text h =>
    intro front _ _
    rw [flatMap_withLiteral, List.flatMap_nil, List.append_nil]
    refine ⟨fun e he => ?_, rfl⟩
    rw [expression_mem_withLiteral] at he
    cases he
  | @expression offset before body rest e segments _ hbody he _ ih =>
    intro front hsource hoffset
    have hsplit : source.toList =
        (front ++ before) ++ ('#' :: '{' :: (body ++ ['}'])) ++ rest := by
      rw [hsource]
      simp
    have hlength : byteLength ('#' :: '{' :: (body ++ ['}'])) = 2 + byteLength body + 1 := by
      have hsharp : '#'.utf8Size = 1 := rfl
      have hopen : '{'.utf8Size = 1 := rfl
      have hclose : '}'.utf8Size = 1 := rfl
      rw [byteLength, byteLength, byteLength_append, byteLength_singleton]
      omega
    have hselects : e.span.Selects source ('#' :: '{' :: (body ++ ['}'])) := by
      refine ⟨front ++ before, rest, hsplit, ?_, ?_⟩
      · rw [Expression.parse_span he, byteLength_append, hoffset]
      · rw [Expression.parse_span he, byteLength_append, hlength, hoffset]
        simp only [Nat.add_assoc]
    have hstop : offset + byteLength before + 2 + byteLength body + 1 =
        byteLength (front ++ before ++ ('#' :: '{' :: (body ++ ['}']))) := by
      rw [byteLength_append, byteLength_append, hlength, hoffset]
      simp only [Nat.add_assoc]
    obtain ⟨hrest, hjoined⟩ := ih _ hsplit hstop
    constructor
    · intro f hf
      rw [expression_mem_withLiteral, List.mem_cons] at hf
      rcases hf with heq | hf
      · cases heq
        exact ⟨body, hbody, hselects⟩
      · exact hrest f hf
    · rw [flatMap_withLiteral, List.flatMap_cons, hjoined, Segment.portion, hselects.slice_eq]
      simp

theorem eq_nil_iff (h : Cut offset cs segments) : segments = [] ↔ cs = [] := by
  cases h with
  | last h =>
    by_cases hne : cs = []
    · simp [hne, withLiteral_nil]
    · simp [withLiteral_of_ne_nil hne, hne]
  | @expression _ before body rest e segments =>
    by_cases hne : before = []
    · simp [hne, withLiteral_nil]
    · simp [withLiteral_of_ne_nil hne]

end Cut

theorem parse_of_cut (hne : source ≠ "") (h : Cut 0 source.toList segments) :
    parse source = .ok ⟨source, segments⟩ := by
  have hsegments : segments ≠ [] := fun hnil => hne (String.toList_eq_nil_iff.1 (h.eq_nil_iff.1 hnil))
  obtain ⟨segment, rest, rfl⟩ := List.exists_cons_of_ne_nil hsegments
  simp only [parse, h.scan]
  rfl

theorem parse_empty : parse "" = .ok ⟨"", [.literal ""]⟩ := by
  have hcut : Cut 0 "".toList [] := .last noOpening_nil
  simp only [parse, hcut.scan]
  rfl

/-- The segments of a template that is read are those of the cut; only the empty
text has none of its own. -/
theorem cut_of_parse {t : Template} (h : parse source = .ok t) :
    source = "" ∧ t.segments = [.literal ""] ∨ source ≠ "" ∧ Cut 0 source.toList t.segments := by
  by_cases hne : source = ""
  · subst hne
    rw [parse_empty] at h
    cases h
    exact .inl ⟨rfl, rfl⟩
  · obtain ⟨segments, hscan, -⟩ := bind_eq_ok_iff.1 h
    have hcut := cut_of_scan hscan
    rw [parse_of_cut hne hcut] at h
    cases h
    exact .inr ⟨hne, hcut⟩

theorem isCut_empty : IsCut "" [.literal ""] where
  joined := rfl
  selects := fun e he => by simp at he
  increasing := .nil
  noOpening := fun text htext => by
    obtain rfl : text = "" := by simpa using htext
    exact noOpening_nil
  apart := .singleton _
  empty := fun _ => rfl

theorem Cut.isCut (h : Cut 0 source.toList segments) : IsCut source segments where
  joined := (h.selects [] (List.nil_append source.toList).symm rfl).2
  selects := (h.selects [] (List.nil_append source.toList).symm rfl).1
  increasing := h.increasing.2
  noOpening := fun text htext => (h.literals text htext).2
  apart := h.apart
  empty := fun hmem => absurd rfl (h.literals "" hmem).1

/-- What is read as a template is the text, cut at its expressions. -/
theorem isCut_of_parse {t : Template} (h : parse source = .ok t) : IsCut source t.segments := by
  rcases cut_of_parse h with ⟨rfl, hsegments⟩ | ⟨-, hcut⟩
  · rw [hsegments]
    exact isCut_empty
  · exact hcut.isCut

end Template

/-! ### Bodies of expressions -/

theorem not_isBlank_of_isWordChar {c : Char} (h : Path.IsWordChar c ∨ c = '.') :
    isBlank c = false := by
  rcases h with (h | rfl) | rfl
  · exact not_isBlank_of_isAlphanum h
  · rfl
  · rfl

section Body

variable {path : Path}

/-- A path that can be written: it has segments, and each is an index or a
name. -/
def Path.IsWritable (path : Path) : Prop :=
  path.segments ≠ [] ∧ ∀ s ∈ path.segments, Path.IsValid s

theorem Path.IsWritable.chars (h : path.IsWritable) :
    ∀ c ∈ path.text.toList, Path.IsWordChar c ∨ c = '.' :=
  Path.isWordChar_of_mem_joined h.2

theorem Path.IsWritable.parse (h : path.IsWritable) : Path.parse path.text = .ok path := by
  refine Path.parse_of_spells ⟨h.1, h.2, ?_⟩
  rw [trimText, trim_eq_self fun c hc => not_isBlank_of_isWordChar (h.chars c hc),
    String.ofList_toList]
  rfl

/-- The body that stands for the path in this mode. -/
def BindMode.body (mode : BindMode) (path : Path) : List Char :=
  if mode = .explicit then bindCall ++ (path.text.toList ++ [')']) else path.text.toList

theorem Path.IsWritable.body_chars (h : path.IsWritable) (mode : BindMode) :
    ∀ c ∈ mode.body path, isBlank c = false ∧ c ≠ '{' ∧ c ≠ '}' := by
  have hpath : ∀ c ∈ path.text.toList, isBlank c = false ∧ c ≠ '{' ∧ c ≠ '}' := by
    intro c hc
    have hchar := h.chars c hc
    refine ⟨not_isBlank_of_isWordChar hchar, ?_, ?_⟩
    · rintro rfl
      exact absurd hchar (by decide)
    · rintro rfl
      exact absurd hchar (by decide)
  cases mode with
  | implicit => exact hpath
  | explicit =>
    have hall : bindCall.all (fun c => decide (isBlank c = false ∧ c ≠ '{' ∧ c ≠ '}')) = true := by
      decide
    have hcall : ∀ c ∈ bindCall, isBlank c = false ∧ c ≠ '{' ∧ c ≠ '}' := fun c hc =>
      of_decide_eq_true (List.all_eq_true.1 hall c hc)
    have hclose : ∀ c ∈ [')'], isBlank c = false ∧ c ≠ '{' ∧ c ≠ '}' :=
      List.forall_mem_singleton.2 (by decide)
    exact List.forall_mem_append.2 ⟨hcall, List.forall_mem_append.2 ⟨hpath, hclose⟩⟩

theorem Path.IsWritable.balanced (h : path.IsWritable) (mode : BindMode) :
    Balanced (mode.body path) := by
  have hcount {part : List Char} (hpart : part <+: mode.body path) :
      part.count '}' = 0 ∧ part.count '{' = 0 := by
    constructor
    · exact List.count_eq_zero_of_not_mem fun hmem =>
        (h.body_chars mode _ (hpart.subset hmem)).2.2 rfl
    · exact List.count_eq_zero_of_not_mem fun hmem =>
        (h.body_chars mode _ (hpart.subset hmem)).2.1 rfl
  refine ⟨fun part hpart => ?_, ?_⟩
  · rw [(hcount hpart).1]
    exact Nat.zero_le _
  · rw [(hcount List.prefix_rfl).1, (hcount List.prefix_rfl).2]

theorem Path.IsWritable.parse_body (h : path.IsWritable) (mode : BindMode) (span : Span) :
    Expression.parse (mode.body path) span = .ok ⟨path, mode, span⟩ := by
  have htrim : trim (mode.body path) = mode.body path :=
    trim_eq_self fun c hc => (h.body_chars mode c hc).1
  cases mode with
  | implicit =>
    have hcall : dropStart? bindCall path.text.toList = none := by
      cases htext : path.text.toList with
      | nil => rfl
      | cons c cs =>
        refine if_neg ?_
        rintro rfl
        exact absurd (h.chars '@' (by rw [htext]; exact List.mem_cons_self)) (by decide)
    have hbody : BindMode.implicit.body path = path.text.toList := rfl
    rw [hbody] at htrim ⊢
    simp only [Expression.parse, htrim, hcall, String.ofList_toList, h.parse]
    rfl
  | explicit =>
    have hbody : BindMode.explicit.body path = bindCall ++ (path.text.toList ++ [')']) := rfl
    rw [hbody] at htrim ⊢
    simp only [Expression.parse, htrim, dropStart?_append, dropLast?_append, String.ofList_toList,
      h.parse]
    rfl

end Body

/-! ### Writing -/

namespace Piece

def written : Piece → List Char
  | literal text => text.toList
  | expression path mode => '#' :: '{' :: (mode.body path ++ ['}'])

/-- Literals have no opening and do not stand next to each other, and none is
empty; paths can be written. -/
structure Writable (pieces : List Piece) : Prop where
  literals : ∀ text, .literal text ∈ pieces → text ≠ "" ∧ Template.NoOpening text.toList
  apart : pieces.IsChain fun a b => ¬ (a.isLiteral = true ∧ b.isLiteral = true)
  paths : ∀ path mode, .expression path mode ∈ pieces → path.IsWritable

theorem Writable.tail {piece : Piece} {pieces : List Piece} (h : Writable (piece :: pieces)) :
    Writable pieces where
  literals := fun text htext => h.literals text (List.mem_cons_of_mem _ htext)
  apart := h.apart.tail
  paths := fun path mode hpath => h.paths path mode (List.mem_cons_of_mem _ hpath)

/-- The template that is written as these pieces. -/
def template (pieces : List Piece) : String := String.ofList (pieces.flatMap written)

end Piece

namespace Template

/-- Pieces that are written after a text without openings are cut from it, as
long as the first is no literal that would go on with the text. -/
theorem Cut.of_pieces {pieces : List Piece} (offset : Nat) {before : List Char}
    (h : Piece.Writable pieces) (hbefore : NoOpening before)
    (hfirst : before ≠ [] → ∀ piece ∈ pieces.head?, piece.isLiteral = false) :
    ∃ segments, Cut offset (before ++ pieces.flatMap Piece.written) (withLiteral before segments) ∧
      segments.map Segment.piece = pieces := by
  induction pieces generalizing offset before with
  | nil =>
    refine ⟨[], ?_, rfl⟩
    rw [List.flatMap_nil, List.append_nil]
    exact .last hbefore
  | cons piece pieces ih =>
    cases piece with
    | literal text =>
      obtain rfl : before = [] := by
        by_contra hne
        exact Bool.false_ne_true (hfirst hne _ rfl).symm
      obtain ⟨hne, hno⟩ := h.literals text List.mem_cons_self
      have hnext : ∀ piece ∈ pieces.head?, piece.isLiteral = false := fun piece hpiece =>
        Bool.eq_false_iff.2 fun hliteral => (List.isChain_cons.1 h.apart).1 piece hpiece ⟨rfl, hliteral⟩
      obtain ⟨segments, hcut, hpieces⟩ := ih offset h.tail hno fun _ => hnext
      refine ⟨withLiteral text.toList segments, ?_, ?_⟩
      · rw [List.flatMap_cons, List.nil_append]
        exact hcut
      · rw [withLiteral_of_ne_nil fun hnil => hne (String.toList_eq_nil_iff.1 hnil), List.map_cons,
          hpieces, String.ofList_toList]
        rfl
    | expression path mode =>
      have hpath := h.paths path mode List.mem_cons_self
      have hwritten : (Piece.expression path mode :: pieces).flatMap Piece.written =
          '#' :: '{' :: (mode.body path ++ '}' :: pieces.flatMap Piece.written) := by
        simp [Piece.written]
      obtain ⟨segments, hcut, hpieces⟩ := ih
        (offset + byteLength before + 2 + byteLength (mode.body path) + 1) h.tail noOpening_nil
        fun hne => absurd rfl hne
      rw [hwritten]
      refine ⟨_, .expression hbefore (hpath.balanced mode) (hpath.parse_body mode _) hcut, ?_⟩
      rw [withLiteral_nil, List.map_cons, hpieces]
      rfl

/-- What is written is read as the same pieces. -/
theorem exists_parse_written {pieces : List Piece} (hne : pieces ≠ []) (h : Piece.Writable pieces) :
    ∃ t, parse (Piece.template pieces) = .ok t ∧ t.segments.map Segment.piece = pieces := by
  obtain ⟨segments, hcut, hpieces⟩ := Cut.of_pieces 0 h noOpening_nil fun hne => absurd rfl hne
  have htext : Cut 0 (Piece.template pieces).toList segments := by
    rw [Piece.template, String.toList_ofList]
    exact hcut
  refine ⟨_, parse_of_cut (fun hempty => hne ?_) htext, hpieces⟩
  rw [hempty] at htext
  rw [← hpieces, htext.eq_nil_iff.2 rfl, List.map_nil]

/-- **Templates are read as they are written.** The segments of a template that is
read are its text, cut at the expressions; and pieces that are written, or the
empty text, are read as the same pieces. -/
theorem reads_what_is_written :
    (∀ source t, parse source = .ok t → IsCut source t.segments) ∧
      ∀ pieces, pieces = [.literal ""] ∨ pieces ≠ [] ∧ Piece.Writable pieces →
        ∃ t, parse (Piece.template pieces) = .ok t ∧ t.segments.map Segment.piece = pieces := by
  refine ⟨fun source t => isCut_of_parse, fun pieces hpieces => ?_⟩
  rcases hpieces with rfl | ⟨hne, hpieces⟩
  · exact ⟨_, parse_empty, rfl⟩
  · exact exists_parse_written hne hpieces

/-- A greeting whose text ends in what openings start with and goes on with what
they end with. -/
def greetingPieces : List Piece :=
  [.literal "Hi #", .expression ⟨["user", "name"]⟩ .explicit, .literal "\x7d"]

theorem greetingPieces_writable : Piece.Writable greetingPieces where
  literals := fun text htext => by
    have htext : text = "Hi #" ∨ text = "\x7d" := by simpa [greetingPieces] using htext
    unfold NoOpening
    rcases htext with rfl | rfl <;> decide
  apart := by decide
  paths := fun path mode hpath => by
    obtain ⟨rfl, -⟩ : path = ⟨["user", "name"]⟩ ∧ mode = .explicit := by
      simpa [greetingPieces] using hpath
    refine ⟨by decide, ?_⟩
    simp only [← Path.isSegment_iff]
    decide

theorem greeting_read :
    ∃ t, parse "Hi ##\x7b@bind(user.name)\x7d\x7d" = .ok t ∧
      t.segments.map Segment.piece = greetingPieces ∧
      IsCut "Hi ##\x7b@bind(user.name)\x7d\x7d" t.segments := by
  have hwritten : Piece.template greetingPieces = "Hi ##\x7b@bind(user.name)\x7d\x7d" := by decide
  obtain ⟨t, ht, hpieces⟩ :=
    reads_what_is_written.2 greetingPieces (.inr ⟨by decide, greetingPieces_writable⟩)
  rw [hwritten] at ht
  exact ⟨t, ht, hpieces, reads_what_is_written.1 _ _ ht⟩

end Template

end ViewMarkup
