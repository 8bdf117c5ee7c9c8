/-
# Tokens tile their format

The scan takes the longest token at each place and skips a blank only where no
token can start. So tokens and blanks together make up the whole format, each
token is told apart from the next by its own characters, and blanks put between
two tokens, before the first or after the last change nothing but places. Where
the scan stops, one character is left over that starts nothing.

Key definitions: `Token.Tiles`, `Located.IsLongestIn`, `TiledBy`, `StopsAt`.
Key theorems: `Token.scan_eq_ok_iff`, `Token.Tiles.spread`, `Token.scan_stops`,
`tokens_select`, `tokens_tile`.
-/
import ViewMarkup.Outcome
import ViewMarkup.Proofs.Format.Longest

namespace ViewMarkup

/-- The span after `gap` bytes were put at `place`. -/
def Span.spread (place gap : Nat) (span : Span) : Span :=
  if place ≤ span.start then ⟨span.start + gap, span.stop + gap⟩ else span

namespace Token

variable {offset : Nat} {cs : List Char} {ts : List (Located Token)}

/-- The characters, the first of them at the offset, are these tokens and blanks;
each token is the longest at its place. -/
inductive Tiles : Nat → List Char → List (Located Token) → Prop
  | nil {offset : Nat} : Tiles offset [] []
  | blank {offset : Nat} {c : Char} {cs : List Char} {ts : List (Located Token)}
    (hc : isBlank c = true) (h : Tiles (offset + 1) cs ts) : Tiles offset (c :: cs) ts
  | token {offset : Nat} {t : Token} {part rest : List Char} {ts : List (Located Token)}
    (ht : Longest t part rest) (h : Tiles (offset + part.length) rest ts) :
    Tiles offset (part ++ rest) (⟨t, ⟨offset, offset + part.length⟩⟩ :: ts)

/-! ### The scan tiles -/

theorem scan_blank {c : Char} (hc : isBlank c = true) (offset : Nat) (cs : List Char) :
    scan offset (c :: cs) = scan (offset + 1) cs := by
  rw [scan, if_pos hc]

theorem scan_token {t : Token} {part rest : List Char} (h : Longest t part rest) (offset : Nat) :
    scan offset (part ++ rest) =
      (scan (offset + part.length) rest).map (⟨t, ⟨offset, offset + part.length⟩⟩ :: ·) := by
  obtain ⟨c, cs, rfl⟩ := List.exists_cons_of_ne_nil h.spells.ne_nil
  have hc : ¬ isBlank c = true := by
    rw [h.spells.no_blank c List.mem_cons_self]
    exact Bool.false_ne_true
  rw [List.cons_append, scan, if_neg hc, h.front?]
  simp only [List.drop_left, List.length_cons, Nat.add_assoc]

theorem Tiles.scan (h : Tiles offset cs ts) : Token.scan offset cs = .ok ts := by
  induction h with
  | nil => exact Token.scan.eq_1 _
  | blank hc _ ih => rw [scan_blank hc, ih]
  | token ht _ ih =>
    rw [scan_token ht, ih]
    rfl

theorem tiles_of_scan : ∀ {ts : List (Located Token)}, scan offset cs = .ok ts →
    Tiles offset cs ts := by
  induction offset, cs using scan.induct with
  | case1 offset =>
    intro ts h
    rw [scan] at h
    cases h
    exact .nil
  | case2 offset c cs hblank ih =>
    intro ts h
    rw [scan_blank hblank] at h
    exact .blank hblank (ih h)
  | case3 offset c cs hblank hfront =>
    intro ts h
    rw [scan, if_neg hblank, hfront] at h
    cases h
  | case4 offset c cs hblank token more hfront ih =>
    intro ts h
    have hlongest := front?_longest hfront
    have hstop : offset + (c :: cs.take more).length = offset + more + 1 := by
      rw [List.length_cons, List.length_take_of_le (front?_spells hfront).2, Nat.add_assoc]
    rw [← List.take_append_drop more cs, ← List.cons_append] at h ⊢
    rw [scan_token hlongest] at h
    obtain ⟨rest, hrest, rfl⟩ := map_eq_ok_iff.1 h
    rw [hstop] at hrest
    exact .token hlongest (hstop ▸ ih hrest)

theorem scan_eq_ok_iff : scan offset cs = .ok ts ↔ Tiles offset cs ts :=
  ⟨tiles_of_scan, Tiles.scan⟩

/-! ### Tokens and the characters between them -/

theorem Longest.length_pos {t : Token} {part rest : List Char} (h : Longest t part rest) :
    0 < part.length := List.length_pos_iff.2 h.spells.ne_nil

theorem Longest.byteLength {t : Token} {part rest : List Char} (h : Longest t part rest) :
    ViewMarkup.byteLength part = part.length := byteLength_of_ascii h.spells.ascii

theorem utf8Size_of_isBlank {c : Char} (h : isBlank c = true) : c.utf8Size = 1 :=
  if_pos (toNat_le_of_isBlank h)

theorem Tiles.span_bounds (h : Tiles offset cs ts) :
    ∀ t ∈ ts, offset ≤ t.span.start ∧ t.span.start < t.span.stop := by
  induction h with
  | nil =>
    intro t ht
    cases ht
  | blank hc _ ih => exact fun t ht => (ih t ht).imp_left Nat.le_of_succ_le
  | token ht _ ih =>
    refine List.forall_mem_cons.2 ⟨⟨le_rfl, Nat.lt_add_of_pos_right ht.length_pos⟩, ?_⟩
    exact fun u hu => (ih u hu).imp_left (Nat.le_add_right _ _).trans

theorem Tiles.apart (h : Tiles offset cs ts) :
    ts.Pairwise fun t u => t.span.stop ≤ u.span.start := by
  induction h with
  | nil => exact .nil
  | blank hc _ ih => exact ih
  | token ht hrest ih => exact .cons (fun u hu => (hrest.span_bounds u hu).1) ih

/-- A character that no token covers is a blank. -/
theorem Tiles.isBlank_of_uncovered (h : Tiles offset cs ts) :
    ∀ {before after : List Char} {c : Char}, cs = before ++ c :: after →
      (∀ t ∈ ts, offset + byteLength before < t.span.start ∨
        t.span.stop ≤ offset + byteLength before) → isBlank c = true := by
  induction h with
  | nil =>
    intro before after c hcs
    cases before <;> cases hcs
  | blank hc _ ih =>
    intro before after d hcs huncovered
    cases before with
    | nil =>
      cases hcs
      exact hc
    | cons b before =>
      cases hcs
      rw [byteLength, utf8Size_of_isBlank hc, ← Nat.add_assoc] at huncovered
      exact ih rfl huncovered
  | @token offset t part rest ts ht _ ih =>
    intro before after c hcs huncovered
    obtain ⟨hhead, hrest⟩ := List.forall_mem_cons.1 huncovered
    have hle : byteLength part ≤ byteLength before := by
      rw [ht.byteLength]
      have hhead : offset + byteLength before < offset ∨
        offset + part.length ≤ offset + byteLength before := hhead
      omega
    obtain ⟨between, rfl, rfl⟩ := exists_append_of_byteLength_le hcs hle
    rw [byteLength_append, ht.byteLength, ← Nat.add_assoc] at hrest
    exact ih rfl hrest

/-! ### Blanks put in -/

variable {blanks : List Char}

theorem Tiles.skip (hblanks : ∀ c ∈ blanks, isBlank c = true)
    (h : Tiles (offset + blanks.length) cs ts) : Tiles offset (blanks ++ cs) ts := by
  induction blanks generalizing offset with
  | nil => exact h
  | cons c blanks ih =>
    obtain ⟨hc, hrest⟩ := List.forall_mem_cons.1 hblanks
    refine .blank hc (ih hrest ?_)
    rwa [List.length_cons, Nat.add_comm blanks.length, ← Nat.add_assoc] at h

/-- No token goes on through a blank. -/
theorem Spells.prefix_before_blank {t : Token} {part before after : List Char} {b : Char}
    (h : t.Spells part) (hb : isBlank b = true) (hstarts : part <+: before ++ b :: after) :
    part <+: before := by
  obtain ⟨rest, hrest⟩ := hstarts
  rcases List.append_eq_append_iff.1 hrest with ⟨gone, heq, -⟩ | ⟨more, rfl, hmore⟩
  · exact ⟨gone, heq.symm⟩
  · cases more with
    | nil => exact ⟨[], by rw [List.append_nil, List.append_nil]⟩
    | cons c more =>
      obtain rfl : b = c := (List.cons.inj hmore).1
      have hno := h.no_blank b (List.mem_append_right before List.mem_cons_self)
      rw [hb] at hno
      cases hno

theorem Longest.spread {t : Token} {part before after : List Char}
    (hblanks : ∀ c ∈ blanks, isBlank c = true) (h : Longest t part (before ++ after)) :
    Longest t part (before ++ blanks ++ after) := by
  refine ⟨h.spells, fun {t' part'} hspells hstarts => ?_⟩
  cases blanks with
  | nil => exact h.length_le hspells (by rwa [List.append_nil] at hstarts)
  | cons b blanks =>
    have hcut : part' <+: (part ++ before) ++ b :: (blanks ++ after) := by
      simpa only [List.append_assoc, List.cons_append] using hstarts
    have hbefore := hspells.prefix_before_blank (hblanks b List.mem_cons_self) hcut
    exact h.length_le hspells (hbefore.trans ⟨after, List.append_assoc part before after⟩)

theorem Tiles.moved {place gap : Nat} (h : Tiles offset cs ts) :
    place ≤ offset →
      Tiles (offset + gap) cs (ts.map fun t => ⟨t.value, t.span.spread place gap⟩) := by
  induction h with
  | nil => exact fun _ => .nil
  | @blank offset c cs ts hc _ ih =>
    intro hplace
    refine .blank hc ?_
    rw [Nat.add_right_comm]
    exact ih (Nat.le_succ_of_le hplace)
  | @token offset t part rest ts ht _ ih =>
    intro hplace
    rw [List.map_cons, Span.spread, if_pos hplace, Nat.add_right_comm]
    refine .token ht ?_
    rw [Nat.add_right_comm]
    exact ih (hplace.trans (Nat.le_add_right _ _))

/-- Blanks put where no token is cut through leave the tokens as they are. -/
theorem Tiles.spread (hblanks : ∀ c ∈ blanks, isBlank c = true) (h : Tiles offset cs ts) :
    ∀ {before after : List Char}, cs = before ++ after →
      (∀ t ∈ ts, ¬ (t.span.start < offset + byteLength before ∧
        offset + byteLength before < t.span.stop)) →
      Tiles offset (before ++ blanks ++ after) (ts.map fun t =>
        ⟨t.value, t.span.spread (offset + byteLength before) blanks.length⟩) := by
  induction h with
  | nil =>
    intro before after hcs _
    obtain ⟨rfl, rfl⟩ := List.append_eq_nil_iff.1 hcs.symm
    rw [List.nil_append]
    exact .skip hblanks .nil
  | blank hc h ih =>
    intro before after hcs hclear
    cases before with
    | nil =>
      obtain rfl := hcs
      exact .skip hblanks ((Tiles.blank hc h).moved le_rfl)
    | cons b before =>
      cases hcs
      rw [byteLength, utf8Size_of_isBlank hc, ← Nat.add_assoc] at hclear ⊢
      exact .blank hc (ih rfl hclear)
  | @token offset t part rest ts ht h ih =>
    intro before after hcs hclear
    obtain ⟨hhead, hrest⟩ := List.forall_mem_cons.1 hclear
    by_cases hbefore : before = []
    · subst hbefore
      obtain rfl := hcs
      exact .skip hblanks ((Tiles.token ht h).moved le_rfl)
    · have hpos := byteLength_pos hbefore
      have hle : byteLength part ≤ byteLength before := by
        rw [ht.byteLength]
        have hhead : ¬ (offset < offset + byteLength before ∧
          offset + byteLength before < offset + part.length) := hhead
        omega
      obtain ⟨between, rfl, rfl⟩ := exists_append_of_byteLength_le hcs hle
      rw [byteLength_append, ht.byteLength, ← Nat.add_assoc] at hrest ⊢
      have hstay : ¬ offset + part.length + byteLength between ≤ offset := by
        have hlength := ht.length_pos
        omega
      rw [List.map_cons, Span.spread, if_neg hstay, List.append_assoc, List.append_assoc,
        ← List.append_assoc between]
      exact .token (ht.spread hblanks) (ih rfl hrest)

/-! ### Tokens written down -/

theorem Spells.longest_before_blank {t : Token} {part after : List Char} {b : Char}
    (h : t.Spells part) (hb : isBlank b = true) : Longest t part (b :: after) :=
  ⟨h, fun hspells hstarts => (hspells.prefix_before_blank hb hstarts).length_le⟩

/-- Tokens that can be spelled can be written with blanks between them. -/
theorem exists_tiles {tokens : List Token} (h : ∀ t ∈ tokens, ∃ part, t.Spells part) :
    ∀ offset, ∃ cs ts, Tiles offset cs ts ∧ ts.map Located.value = tokens := by
  induction tokens with
  | nil => exact fun offset => ⟨[], [], .nil, rfl⟩
  | cons t tokens ih =>
    intro offset
    obtain ⟨⟨part, hpart⟩, hrest⟩ := List.forall_mem_cons.1 h
    obtain ⟨cs, ts, hts, rfl⟩ := ih hrest (offset + part.length + 1)
    have hblank : isBlank ' ' = true := by decide
    exact ⟨_, _, .token (hpart.longest_before_blank hblank) (.blank hblank hts), rfl⟩

/-! ### Where the scan stops -/

theorem Longest.of_append {t : Token} {part before after : List Char}
    (h : Longest t part (before ++ after)) : Longest t part before := by
  exact ⟨h.spells, fun hspells hstarts =>
    h.length_le hspells (hstarts.trans ⟨after, List.append_assoc part before after⟩)⟩

/-- The scan stops at a character that is no blank and that no token starts with;
what stands before it is tiled. -/
theorem scan_stops : ∀ {span : Span}, scan offset cs = .error span →
    ∃ before c after ts, cs = before ++ c :: after ∧
      span = ⟨offset + byteLength before, offset + byteLength before + c.utf8Size⟩ ∧
      isBlank c = false ∧ front? c after = none ∧ Tiles offset before ts := by
  induction offset, cs using scan.induct with
  | case1 offset =>
    intro span h
    rw [scan] at h
    cases h
  | case2 offset c cs hblank ih =>
    intro span h
    rw [scan_blank hblank] at h
    obtain ⟨before, d, after, ts, rfl, rfl, hd, hnone, htiles⟩ := ih h
    refine ⟨c :: before, d, after, ts, rfl, ?_, hd, hnone, .blank hblank htiles⟩
    rw [byteLength, utf8Size_of_isBlank hblank, ← Nat.add_assoc]
  | case3 offset c cs hblank hfront =>
    intro span h
    rw [scan, if_neg hblank, hfront] at h
    cases h
    exact ⟨[], c, cs, [], rfl, rfl, Bool.eq_false_iff.2 hblank, hfront, .nil⟩
  | case4 offset c cs hblank token more hfront ih =>
    intro span h
    have hlongest := front?_longest hfront
    have hlength : (c :: cs.take more).length = more + 1 := by
      rw [List.length_cons, List.length_take_of_le (front?_spells hfront).2]
    rw [scan, if_neg hblank, hfront] at h
    obtain ⟨before, d, after, ts, hcs, rfl, hd, hnone, htiles⟩ := ih (map_eq_error_iff.1 h)
    rw [hcs] at hlongest
    refine ⟨(c :: cs.take more) ++ before, d, after, _ :: ts, ?_, ?_, hd, hnone,
      .token hlongest.of_append ?_⟩
    · rw [List.append_assoc, ← hcs, List.cons_append, List.take_append_drop]
    · rw [byteLength_append, hlongest.byteLength, hlength, ← Nat.add_assoc, ← Nat.add_assoc]
    · rwa [hlength, ← Nat.add_assoc]

end Token

/-! ### The tokens of a format -/

/-- What the span selects spells this token and no other one, and no longer part
of the text from its start on spells a token. -/
def Located.IsLongestIn (t : Located Token) (text : String) : Prop :=
  ∃ before part after, text.toList = before ++ part ++ after ∧
    t.span = ⟨byteLength before, byteLength before + byteLength part⟩ ∧
    t.value.Longest part after ∧ ∀ u : Token, u.Spells part → u = t.value

/-- The tokens tile the text. -/
structure TiledBy (text : String) (ts : List (Located Token)) : Prop where
  longest : ∀ t ∈ ts, t.IsLongestIn text
  nonempty : ∀ t ∈ ts, t.span.start < t.span.stop
  apart : ts.Pairwise fun t u => t.span.stop ≤ u.span.start
  isBlank : ∀ before c after, text.toList = before ++ c :: after →
    (∀ t ∈ ts, byteLength before < t.span.start ∨ t.span.stop ≤ byteLength before) →
    Token.isBlank c = true
  spread : ∀ before blanks after, text.toList = before ++ after →
    (∀ c ∈ blanks, Token.isBlank c = true) →
    (∀ t ∈ ts, ¬ (t.span.start < byteLength before ∧ byteLength before < t.span.stop)) →
    tokens (String.ofList (before ++ blanks ++ after)) =
      .ok (ts.map fun t => ⟨t.value, t.span.spread (byteLength before) blanks.length⟩)

/-- The span is that of one character, which is no blank and which no token
starts with, and the text before it has tokens. -/
def StopsAt (text : String) (span : Span) : Prop :=
  ∃ before c after, text.toList = before ++ c :: after ∧
    span = ⟨byteLength before, byteLength before + c.utf8Size⟩ ∧ Token.isBlank c = false ∧
    (∀ (t : Token) part, t.Spells part → ¬ part <+: c :: after) ∧
    ∃ ts, tokens (String.ofList before) = .ok ts

/-- There is a format with these tokens, if each of them can be spelled. -/
theorem exists_tokens_of_spells {ts : List Token} (h : ∀ t ∈ ts, ∃ part, t.Spells part) :
    ∃ format us, tokens format = .ok us ∧ us.map Located.value = ts := by
  obtain ⟨cs, us, hus, hvalues⟩ := Token.exists_tiles h 0
  refine ⟨String.ofList cs, us, ?_, hvalues⟩
  rw [tokens, String.toList_ofList]
  exact hus.scan

theorem Token.Tiles.isLongestIn {text : String} {offset : Nat} {cs : List Char}
    {ts : List (Located Token)} (h : Tiles offset cs ts) :
    ∀ before, text.toList = before ++ cs → offset = byteLength before →
      ∀ t ∈ ts, t.IsLongestIn text := by
  induction h with
  | nil =>
    intro before _ _ t ht
    cases ht
  | @blank offset c cs ts hc _ ih =>
    intro before htext hoffset
    refine ih (before ++ [c]) ?_ ?_
    · rw [htext, List.append_assoc, List.singleton_append]
    · rw [hoffset, byteLength_append, byteLength_singleton, utf8Size_of_isBlank hc]
  | @token offset t part rest ts ht _ ih =>
    intro before htext hoffset
    rw [← List.append_assoc] at htext
    refine List.forall_mem_cons.2 ⟨⟨before, part, rest, htext, ?_, ht, ?_⟩, ih _ htext ?_⟩
    · rw [hoffset, ht.byteLength]
    · exact fun u hu => hu.unique ht.spells
    · rw [hoffset, byteLength_append, ht.byteLength]

theorem TiledBy.of_tokens {text : String} {ts : List (Located Token)}
    (h : tokens text = .ok ts) : TiledBy text ts where
  longest := (Token.tiles_of_scan h).isLongestIn [] rfl rfl
  nonempty := fun t ht => ((Token.tiles_of_scan h).span_bounds t ht).2
  apart := (Token.tiles_of_scan h).apart
  isBlank := fun before c after htext huncovered => by
    refine (Token.tiles_of_scan h).isBlank_of_uncovered htext fun t ht => ?_
    rw [Nat.zero_add]
    exact huncovered t ht
  spread := fun before blanks after htext hblanks hclear => by
    have hspread := (Token.tiles_of_scan h).spread hblanks htext
    simp only [Nat.zero_add] at hspread
    rw [tokens, String.toList_ofList]
    exact (hspread hclear).scan

/-- Tokens stand where they say: what the span of a token selects in the format is
a spelling of the token. -/
theorem tokens_select {format : String} {ts : List (Located Token)} (h : tokens format = .ok ts)
    {t : Located Token} (ht : t ∈ ts) :
    ∃ part, t.span.Selects format part ∧ t.value.Spells part := by
  obtain ⟨before, part, after, htext, hspan, hlongest, -⟩ := (TiledBy.of_tokens h).longest t ht
  exact ⟨part, ⟨before, after, htext, by rw [hspan], by rw [hspan]⟩, hlongest.spells⟩

theorem StopsAt.of_tokens {text : String} {span : Span} (h : tokens text = .error span) :
    StopsAt text span := by
  obtain ⟨before, c, after, ts, htext, rfl, hc, hnone, htiles⟩ := Token.scan_stops h
  refine ⟨before, c, after, htext, ?_, hc, Token.front?_eq_none_iff.1 hnone, ts, ?_⟩
  · rw [Nat.zero_add]
  · rw [tokens, String.toList_ofList]
    exact htiles.scan

/-- **Tokens tile their format.** Either the tokens and blanks of a format make
it up, each token the longest at its place, and blanks put between tokens change
only places; or the span that is reported is that of one character, at which
neither a token nor a blank starts, after a text that has tokens. -/
theorem tokens_tile (format : String) :
    (∃ ts, tokens format = .ok ts ∧ TiledBy format ts) ∨
      ∃ span, tokens format = .error span ∧ StopsAt format span := by
  cases h : tokens format with
  | ok ts => exact .inl ⟨ts, rfl, .of_tokens h⟩
  | error span => exact .inr ⟨span, rfl, .of_tokens h⟩

end ViewMarkup
