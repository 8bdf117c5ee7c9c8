/-
# Colors and the texts they are read from

A color is read from six or eight hexadecimal digits, of either case, and from
nothing else. It is written in lower case, an opaque one without its alpha: so a text
and the text of its color differ in the case of letters and in a last `ff` of eight
digits, and what is written is read as the color it was written for.

A text that is refused is refused for its length, or for its first character that is
no digit. The length is taken in bytes and told in characters. Where the two counts
disagree about six and eight, the wrong fault is told (`ofHex_diagnoses_iff`).

Key definitions: `Color.SpellsColor`, `Color.shownDigits`, `Color.FirstNoDigit`,
`Color.Diagnoses`.
Key theorems: `Color.hexDigits_eq_ok`, `Color.hexDigits_eq_error`,
`Color.ofHex_of_spells`, `Color.ofHex_hexChars`, `Color.read_and_written`,
`Color.ofHex_diagnoses_iff`.
-/
import Mathlib.Data.List.Basic
import Mathlib.Tactic.IntervalCases
import ViewMarkup.Color
import ViewMarkup.Proofs.Text.Ascii
import ViewMarkup.Proofs.Text.Span

namespace ViewMarkup.Color

/-! ### Digits -/

/-- All hexadecimal digits. -/
def hexAlphabet : List Char := "0123456789abcdefABCDEF".toList

theorem mem_hexAlphabet {c : Char} (h : c.isHexDigit = true) : c ∈ hexAlphabet := by
  have hbounds : (48 ≤ c.toNat ∧ c.toNat ≤ 57) ∨ (97 ≤ c.toNat ∧ c.toNat ≤ 102) ∨
      (65 ≤ c.toNat ∧ c.toNat ≤ 70) := by
    rw [Char.isHexDigit, Bool.or_eq_true, Bool.or_eq_true, Bool.and_eq_true, Bool.and_eq_true,
      or_assoc] at h
    exact h.imp toNat_of_isDigit (Or.imp (And.imp of_decide_eq_true of_decide_eq_true)
      (And.imp of_decide_eq_true of_decide_eq_true))
  rw [← Char.ofNat_toNat c]
  rcases hbounds with ⟨hlo, hhi⟩ | ⟨hlo, hhi⟩ | ⟨hlo, hhi⟩ <;> interval_cases c.toNat <;> decide

theorem toNat_le_of_isHexDigit {c : Char} (h : c.isHexDigit = true) : c.toNat ≤ 127 := by
  have hall : (hexAlphabet.all fun c => c.toNat ≤ 127) = true := by decide
  exact of_decide_eq_true (List.all_eq_true.1 hall c (mem_hexAlphabet h))

/-- A digit is written in lower case. -/
theorem hexDigit?_of_isHexDigit {c : Char} (h : c.isHexDigit = true) :
    ∃ d, hexDigit? c = some d ∧ hexChar d = c.toLower := by
  have hall : (hexAlphabet.all fun c => ∃ d, hexDigit? c = some d ∧ hexChar d = c.toLower) =
      true := by decide
  exact of_decide_eq_true (List.all_eq_true.1 hall c (mem_hexAlphabet h))

theorem hexDigit?_eq_none {c : Char} (h : c.isHexDigit = false) : hexDigit? c = none := by
  have hout : ∀ {lo hi : Char}, (decide (c.val ≥ lo.val) && decide (c.val ≤ hi.val)) = false →
      ¬ (lo ≤ c ∧ c ≤ hi) := by
    rintro lo hi hfalse ⟨hlo, hhi⟩
    rw [decide_eq_true (show c.val ≥ lo.val from hlo),
      decide_eq_true (show c.val ≤ hi.val from hhi)] at hfalse
    cases hfalse
  rw [Char.isHexDigit, Bool.or_eq_false_iff, Bool.or_eq_false_iff] at h
  obtain ⟨⟨hdigit, hlower⟩, hupper⟩ := h
  rw [hexDigit?, if_neg (hout hdigit), if_neg (hout hlower), if_neg (hout hupper)]

theorem isHexDigit_hexChar : ∀ d : Fin 16, (hexChar d).isHexDigit = true := by decide

theorem hexDigit?_hexChar : ∀ d : Fin 16, hexDigit? (hexChar d) = some d := by decide

theorem hexChar_eq_f_iff : ∀ d : Fin 16, hexChar d = 'f' ↔ d = 15 := by decide

theorem hexDigits_eq_ok : ∀ {cs : List Char}, (∀ c ∈ cs, c.isHexDigit = true) →
    ∃ ds, hexDigits cs = .ok ds ∧ ds.map hexChar = cs.map Char.toLower
  | [], _ => ⟨[], rfl, rfl⟩
  | c :: cs, h => by
    obtain ⟨hc, hcs⟩ := List.forall_mem_cons.1 h
    obtain ⟨d, hd, hchar⟩ := hexDigit?_of_isHexDigit hc
    obtain ⟨ds, hds, hchars⟩ := hexDigits_eq_ok hcs
    refine ⟨d :: ds, ?_, ?_⟩
    · rw [hexDigits, hd, hds]
      rfl
    · rw [List.map_cons, List.map_cons, hchar, hchars]

theorem hexDigits_eq_error {c : Char} {after : List Char} (hc : c.isHexDigit = false) :
    ∀ {before : List Char}, (∀ d ∈ before, d.isHexDigit = true) →
      hexDigits (before ++ c :: after) = .error (.digit c)
  | [], _ => by
    rw [List.nil_append, hexDigits, hexDigit?_eq_none hc]
  | b :: before, h => by
    obtain ⟨hb, hbefore⟩ := List.forall_mem_cons.1 h
    obtain ⟨d, hd, -⟩ := hexDigit?_of_isHexDigit hb
    rw [List.cons_append, hexDigits, hd, hexDigits_eq_error hc hbefore]
    rfl

theorem hexDigits_map_hexChar : ∀ ds : List (Fin 16), hexDigits (ds.map hexChar) = .ok ds
  | [] => rfl
  | d :: ds => by
    rw [List.map_cons, hexDigits, hexDigit?_hexChar, hexDigits_map_hexChar ds]
    rfl

/-! ### Channels -/

theorem channel_div_lt (c : Channel) : c.val / 16 < 16 := by omega

theorem channel_mod_lt (c : Channel) : c.val % 16 < 16 := Nat.mod_lt _ (by decide)

/-- The two digits of a channel. -/
def channelDigits (c : Channel) : List (Fin 16) :=
  [⟨c.val / 16, channel_div_lt c⟩, ⟨c.val % 16, channel_mod_lt c⟩]

theorem channelChars_eq (c : Channel) : channelChars c = (channelDigits c).map hexChar := rfl

theorem channel_div_mod (c : Channel) :
    channel ⟨c.val / 16, channel_div_lt c⟩ ⟨c.val % 16, channel_mod_lt c⟩ = c :=
  Fin.ext (Nat.div_add_mod' c.val 16)

theorem channelChars_channel (high low : Fin 16) :
    channelChars (channel high low) = [hexChar high, hexChar low] := by
  have hhigh : (high.val * 16 + low.val) / 16 = high.val := by omega
  have hlow : (high.val * 16 + low.val) % 16 = low.val := by omega
  simp only [channelChars, channel, hhigh, hlow]

theorem channel_eq_opaque_iff (high low : Fin 16) :
    channel high low = opaqueChannel ↔ high = 15 ∧ low = 15 := by
  rw [Fin.ext_iff, Fin.ext_iff, Fin.ext_iff]
  show high.val * 16 + low.val = 255 ↔ high.val = 15 ∧ low.val = 15
  omega

/-! ### Reading -/

/-- Six or eight hexadecimal digits. -/
def SpellsColor (text : String) : Prop :=
  (text.length = 6 ∨ text.length = 8) ∧ ∀ c ∈ text.toList, c.isHexDigit = true

/-- The digits in lower case, without an alpha of `ff`. -/
def shownDigits (text : String) : List Char :=
  let lower := text.toList.map Char.toLower
  if text.length = 8 ∧ lower.drop 6 = ['f', 'f'] then lower.take 6 else lower

/-- The character is the first of the text that is no hexadecimal digit. -/
def FirstNoDigit (text : String) (c : Char) : Prop :=
  ∃ before after, text.toList = before ++ c :: after ∧
    (∀ d ∈ before, d.isHexDigit = true) ∧ c.isHexDigit = false

variable {text : String}

theorem digits_or_firstNoDigit (text : String) :
    (∀ c ∈ text.toList, c.isHexDigit = true) ∨ ∃ c, FirstNoDigit text c := by
  cases hfind : text.toList.find? fun c => !c.isHexDigit with
  | none => exact .inl fun c hc => by simpa using List.find?_eq_none.1 hfind c hc
  | some c =>
    obtain ⟨hc, before, after, htext, hbefore⟩ := List.find?_eq_some_iff_append.1 hfind
    exact .inr ⟨c, before, after, htext, by simpa using hbefore, by simpa using hc⟩

theorem utf8ByteSize_of_digits (h : ∀ c ∈ text.toList, c.isHexDigit = true) :
    text.utf8ByteSize = text.length := by
  rw [← byteLength_toList, byteLength_of_ascii fun c hc => toNat_le_of_isHexDigit (h c hc),
    String.length_toList]

theorem ofHex_of_size (h : text.utf8ByteSize ≠ 6 ∧ text.utf8ByteSize ≠ 8) :
    ofHex text = .error (.length text.length) := by
  rw [← byteLength_toList] at h
  rw [ofHex, if_pos h, String.length_toList]

theorem ofHex_of_firstNoDigit {c : Char} (hsize : text.utf8ByteSize = 6 ∨ text.utf8ByteSize = 8)
    (h : FirstNoDigit text c) : ofHex text = .error (.digit c) := by
  obtain ⟨before, after, htext, hbefore, hc⟩ := h
  rw [← byteLength_toList] at hsize
  rw [ofHex, if_neg (by omega), htext, hexDigits_eq_error hc hbefore]
  rfl

theorem ofHex_of_six {r r' g g' b b' : Fin 16}
    (h : hexDigits text.toList = .ok [r, r', g, g', b, b']) (hsize : text.utf8ByteSize = 6) :
    ofHex text = .ok (rgb (channel r r') (channel g g') (channel b b')) := by
  rw [← byteLength_toList] at hsize
  rw [ofHex, if_neg (by omega), h]
  rfl

theorem ofHex_of_eight {r r' g g' b b' a a' : Fin 16}
    (h : hexDigits text.toList = .ok [r, r', g, g', b, b', a, a']) (hsize : text.utf8ByteSize = 8) :
    ofHex text = .ok ⟨channel r r', channel g g', channel b b', channel a a'⟩ := by
  rw [← byteLength_toList] at hsize
  rw [ofHex, if_neg (by omega), h]
  rfl

/-- What spells a color is read as one, and written as its own digits. -/
theorem ofHex_of_spells (h : SpellsColor text) :
    ∃ c, ofHex text = .ok c ∧ c.hexChars = shownDigits text := by
  obtain ⟨hlength, hdigits⟩ := h
  have hsize := utf8ByteSize_of_digits hdigits
  obtain ⟨ds, hds, hchars⟩ := hexDigits_eq_ok hdigits
  have hcount : ds.length = text.length := by
    rw [← List.length_map hexChar, hchars, List.length_map, String.length_toList]
  rw [shownDigits, ← hchars]
  rcases hlength with hsix | height
  · match ds, hcount.trans hsix with
    | [r, r', g, g', b, b'], _ =>
      refine ⟨_, ofHex_of_six hds (hsize.trans hsix), ?_⟩
      simp [hexChars, rgb, isOpaque, channelChars_channel, hsix]
  · match ds, hcount.trans height with
    | [r, r', g, g', b, b', a, a'], _ =>
      refine ⟨_, ofHex_of_eight hds (hsize.trans height), ?_⟩
      simp only [hexChars, isOpaque, channel_eq_opaque_iff, channelChars_channel, height]
      by_cases hfull : a = 15 ∧ a' = 15
      · simp [hfull, hexChar_eq_f_iff]
      · simp [hfull, hexChar_eq_f_iff]

/-- What is read spells a color. -/
theorem spells_of_ofHex {c : Color} (h : ofHex text = .ok c) : SpellsColor text := by
  by_cases hsize : text.utf8ByteSize ≠ 6 ∧ text.utf8ByteSize ≠ 8
  · rw [ofHex_of_size hsize] at h
    cases h
  · rcases digits_or_firstNoDigit text with hdigits | ⟨d, hd⟩
    · have hcount := utf8ByteSize_of_digits hdigits
      exact ⟨by omega, hdigits⟩
    · rw [ofHex_of_firstNoDigit (by omega) hd] at h
      cases h

/-! ### Reading what is written -/

theorem hexChars_eq (c : Color) : c.hexChars = (channelDigits c.red ++ channelDigits c.green ++
    channelDigits c.blue ++ if c.isOpaque then [] else channelDigits c.alpha).map hexChar := by
  rw [hexChars]
  split <;> simp [channelChars_eq]

theorem isHexDigit_of_mem_hexChars (c : Color) : ∀ d ∈ c.hexChars, d.isHexDigit = true := by
  intro d hd
  rw [hexChars_eq] at hd
  obtain ⟨digit, -, rfl⟩ := List.mem_map.1 hd
  exact isHexDigit_hexChar digit

/-- What is written of a color is read as that color. -/
theorem ofHex_hexChars (c : Color) : ofHex (String.ofList c.hexChars) = .ok c := by
  have hdigits : ∀ d ∈ (String.ofList c.hexChars).toList, d.isHexDigit = true := by
    rw [String.toList_ofList]
    exact isHexDigit_of_mem_hexChars c
  have hsize := utf8ByteSize_of_digits hdigits
  rw [String.length_ofList] at hsize
  have hread : hexDigits (String.ofList c.hexChars).toList = .ok (channelDigits c.red ++
      channelDigits c.green ++ channelDigits c.blue ++
      if c.isOpaque then [] else channelDigits c.alpha) := by
    rw [String.toList_ofList, hexChars_eq, hexDigits_map_hexChar]
  by_cases hfull : c.alpha = opaqueChannel
  · rw [isOpaque, decide_eq_true hfull, if_pos rfl] at hread
    have hsix : c.hexChars.length = 6 := by
      rw [hexChars, isOpaque, decide_eq_true hfull]
      rfl
    rw [ofHex_of_six hread (hsize.trans hsix), channel_div_mod, channel_div_mod, channel_div_mod,
      rgb, ← hfull]
  · rw [isOpaque, decide_eq_false hfull, if_neg Bool.false_ne_true] at hread
    have height : c.hexChars.length = 8 := by
      rw [hexChars, isOpaque, decide_eq_false hfull]
      rfl
    rw [ofHex_of_eight hread (hsize.trans height), channel_div_mod, channel_div_mod,
      channel_div_mod, channel_div_mod]

/-- **Colors are read from their digits and written as them.** A text is read as a
color exactly if it is six or eight hexadecimal digits, and then the color is written
as these digits in lower case, but for a last `ff` of eight. Every color is read from
what is written for it after the `#`. -/
theorem read_and_written :
    (∀ text, (∃ c, ofHex text = .ok c) ↔ SpellsColor text) ∧
      (∀ text c, ofHex text = .ok c → c.text = "#" ++ String.ofList (shownDigits text)) ∧
      ∀ c : Color, ∃ digits, c.text = "#" ++ digits ∧ ofHex digits = .ok c := by
  have htext : ∀ c : Color, c.text = "#" ++ String.ofList c.hexChars := fun c => by
    rw [text, ← List.singleton_append, String.ofList_append]
  refine ⟨fun text => ⟨fun ⟨c, h⟩ => spells_of_ofHex h, fun h => ?_⟩, fun text c h => ?_,
    fun c => ?_⟩
  · obtain ⟨c, hc, -⟩ := ofHex_of_spells h
    exact ⟨c, hc⟩
  · obtain ⟨c', hc', hchars⟩ := ofHex_of_spells (spells_of_ofHex h)
    rw [h] at hc'
    cases hc'
    rw [htext, hchars]
  · exact ⟨_, htext c, ofHex_hexChars c⟩

/-- Eight digits of an opaque color, in both cases. -/
theorem opaqueTeal_read_and_written : ofHex "00ABb0FF" = .ok (rgb 0 171 176) ∧
    SpellsColor "00ABb0FF" ∧ (rgb 0 171 176).text = "#00abb0" ∧
      ofHex "00abb0" = .ok (rgb 0 171 176) := by
  obtain ⟨hreads, hwrites, hback⟩ := read_and_written
  have hread : ofHex "00ABb0FF" = .ok (rgb 0 171 176) := by decide +kernel
  have hwritten : (rgb 0 171 176).text = "#" ++ "00abb0" :=
    (hwrites _ _ hread).trans (by decide +kernel)
  obtain ⟨digits, hdigits, hcolor⟩ := hback (rgb 0 171 176)
  rw [hwritten] at hdigits
  obtain rfl : "00abb0" = digits := by
    simpa [← String.toList_inj] using hdigits
  exact ⟨hread, (hreads _).1 ⟨_, hread⟩, hwritten, hcolor⟩

/-! ### Why a text is refused -/

/-- The fault is that of the characters of the text: their number, if it is neither six
nor eight, and else the first of them that is no digit. -/
structure Diagnoses (text : String) (fault : HexFault) : Prop where
  length_iff : fault = .length text.length ↔ text.length ≠ 6 ∧ text.length ≠ 8
  digit : text.length = 6 ∨ text.length = 8 → ∃ c, fault = .digit c ∧ FirstNoDigit text c

/-- **A text is refused for its bytes or for its first character that is no digit.** If
its bytes are neither six nor eight, its length is at fault, and the number of its
characters is told; else its first character that is no digit is. That is the fault of
its characters exactly if their number is six or eight just when the number of bytes
is. -/
theorem ofHex_diagnoses_iff {fault : HexFault} (h : ofHex text = .error fault) :
    (text.utf8ByteSize ≠ 6 ∧ text.utf8ByteSize ≠ 8 → fault = .length text.length) ∧
      (text.utf8ByteSize = 6 ∨ text.utf8ByteSize = 8 →
        ∃ c, fault = .digit c ∧ FirstNoDigit text c) ∧
      (Diagnoses text fault ↔ ((text.length = 6 ∨ text.length = 8) ↔
        (text.utf8ByteSize = 6 ∨ text.utf8ByteSize = 8))) := by
  by_cases hsize : text.utf8ByteSize = 6 ∨ text.utf8ByteSize = 8
  · obtain ⟨c, hc⟩ : ∃ c, FirstNoDigit text c := by
      refine (digits_or_firstNoDigit text).resolve_left fun hdigits => ?_
      have hcount := utf8ByteSize_of_digits hdigits
      obtain ⟨color, hcolor, -⟩ := ofHex_of_spells ⟨by omega, hdigits⟩
      rw [h] at hcolor
      cases hcolor
    rw [ofHex_of_firstNoDigit hsize hc] at h
    cases h
    refine ⟨fun hother => by omega, fun _ => ⟨c, rfl, hc⟩, fun hdiagnoses => ?_, fun hcounts => ?_⟩
    · refine iff_of_true ?_ hsize
      by_contra hlength
      cases hdiagnoses.length_iff.2 (by omega)
    · have hlength := hcounts.2 hsize
      exact ⟨iff_of_false nofun (by omega), fun _ => ⟨c, rfl, hc⟩⟩
  · rw [ofHex_of_size (by omega)] at h
    cases h
    refine ⟨fun _ => rfl, fun hother => absurd hother hsize, fun hdiagnoses => ?_,
      fun hcounts => ?_⟩
    · refine iff_of_false (fun hlength => ?_) hsize
      obtain ⟨c, hc, -⟩ := hdiagnoses.digit hlength
      cases hc
    · have hlength : ¬ (text.length = 6 ∨ text.length = 8) := mt hcounts.1 hsize
      exact ⟨iff_of_true rfl (by omega), fun hother => absurd hother hlength⟩

/-- Four characters are too few, though they take five bytes. -/
theorem fourLetters_diagnosed : ofHex "café" = .error (.length 4) ∧
    Diagnoses "café" (.length 4) := by
  have hrefused : ofHex "café" = .error (.length 4) := by decide +kernel
  exact ⟨hrefused, (ofHex_diagnoses_iff hrefused).2.2.2 (by decide +kernel)⟩

/-- Of six characters one takes two bytes: they are refused for a length that is none
of theirs. -/
theorem accentedDigits_misdiagnosed : "00abé0".length = 6 ∧
    ofHex "00abé0" = .error (.length 6) ∧
    (HexFault.length 6).message = "expected 6 or 8 hex digits, found 6" ∧
    FirstNoDigit "00abé0" 'é' ∧ ¬ Diagnoses "00abé0" (.length 6) := by
  refine ⟨by decide, by decide +kernel, by decide +kernel,
    ⟨"00ab".toList, ['0'], by decide, List.all_eq_true.1 (by decide), by decide⟩, fun hdiagnoses => ?_⟩
  obtain ⟨c, hc, -⟩ := hdiagnoses.digit (.inl (by decide))
  cases hc

end ViewMarkup.Color
