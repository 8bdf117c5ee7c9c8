/-
# Parts of a text

A span selects the characters between its first byte and its last. Counting
bytes loses nothing: two splits of a text are ordered as the bytes before them
are.

Key definitions: `Span.Selects`, `Span.slice`.
Key theorems: `byteLength_append`, `byteLength_toList`,
`exists_append_of_byteLength_le`, `Span.inChars_eq`, `Span.Selects.slice_eq`.
-/
import Mathlib.Data.List.Basic
import ViewMarkup.Text.Span

namespace ViewMarkup

/-- From its first byte to its last, the span holds these characters of the
text. -/
def Span.Selects (span : Span) (text : String) (part : List Char) : Prop :=
  ∃ before after, text.toList = before ++ part ++ after ∧ span.start = byteLength before ∧
    span.stop = byteLength before + byteLength part

theorem byteLength_append : ∀ cs ds : List Char,
    byteLength (cs ++ ds) = byteLength cs + byteLength ds
  | [], ds => (Nat.zero_add _).symm
  | c :: cs, ds => by
    rw [List.cons_append, byteLength, byteLength, byteLength_append cs, Nat.add_assoc]

/-- Characters of ASCII take one byte each. -/
theorem byteLength_of_ascii : ∀ {cs : List Char}, (∀ c ∈ cs, c.toNat ≤ 127) →
    byteLength cs = cs.length
  | [], _ => rfl
  | c :: cs, h => by
    have hc : c.utf8Size = 1 := if_pos (h c List.mem_cons_self)
    rw [byteLength, hc, byteLength_of_ascii fun d hd => h d (List.mem_cons_of_mem _ hd),
      List.length_cons, Nat.add_comm]

theorem byteLength_eq_utf8ByteSize : ∀ cs : List Char,
    byteLength cs = (String.ofList cs).utf8ByteSize
  | [] => rfl
  | c :: cs => by
    rw [byteLength, byteLength_eq_utf8ByteSize cs, String.ofList_cons, String.utf8ByteSize_append,
      String.utf8ByteSize_singleton]

theorem byteLength_toList (text : String) : byteLength text.toList = text.utf8ByteSize := by
  rw [byteLength_eq_utf8ByteSize, String.ofList_toList]

theorem byteLength_singleton (c : Char) : byteLength [c] = c.utf8Size := Nat.add_zero _

theorem byteLength_pos {cs : List Char} (h : cs ≠ []) : 0 < byteLength cs := by
  obtain ⟨c, cs, rfl⟩ := List.exists_cons_of_ne_nil h
  exact Nat.add_pos_left c.utf8Size_pos _

/-- Of two splits of a text, the one with more bytes in front is the later one. -/
theorem exists_append_of_byteLength_le {before after before' after' : List Char}
    (h : before ++ after = before' ++ after') (hle : byteLength before ≤ byteLength before') :
    ∃ between, before' = before ++ between ∧ after = between ++ after' := by
  rcases List.append_eq_append_iff.1 h with ⟨between, hbefore, hafter⟩ | ⟨between, rfl, rfl⟩
  · exact ⟨between, hbefore, hafter⟩
  · obtain rfl : between = [] := by
      by_contra hne
      have hpos := byteLength_pos hne
      rw [byteLength_append] at hle
      omega
    exact ⟨[], by simp, rfl⟩

/-! ### Slices -/

/-- The characters of the text in the span. -/
def Span.slice (span : Span) (text : String) : List Char :=
  let chars := span.inChars text
  (text.toList.drop chars.start).take (chars.stop - chars.start)

theorem charsBefore_byteLength : ∀ before after : List Char,
    charsBefore (byteLength before) (before ++ after) = before.length
  | [], [] => rfl
  | [], c :: after => if_pos rfl
  | c :: before, after => by
    have hpos : byteLength (c :: before) ≠ 0 :=
      Nat.pos_iff_ne_zero.1 (byteLength_pos (List.cons_ne_nil c before))
    rw [List.cons_append, charsBefore, if_neg hpos, byteLength, Nat.add_sub_cancel_left,
      charsBefore_byteLength before after, List.length_cons, Nat.add_comm]

/-- Between the characters in front of a part and those behind it are its characters,
as between the bytes. -/
theorem Span.inChars_eq {span : Span} {text : String} {before part after : List Char}
    (htext : text.toList = before ++ part ++ after) (hstart : span.start = byteLength before)
    (hstop : span.stop = byteLength before + byteLength part) :
    span.inChars text = ⟨before.length, before.length + part.length⟩ := by
  have hfront : charsBefore span.start text.toList = before.length := by
    rw [hstart, htext, List.append_assoc, charsBefore_byteLength]
  have hback : charsBefore span.stop text.toList = before.length + part.length := by
    rw [hstop, htext, ← byteLength_append, charsBefore_byteLength, List.length_append]
  rw [Span.inChars, hfront, hback]

/-- The slice of a text at a span is what the span selects. -/
theorem Span.Selects.slice_eq {span : Span} {text : String} {part : List Char}
    (h : span.Selects text part) : span.slice text = part := by
  obtain ⟨before, after, htext, hstart, hstop⟩ := h
  simp only [Span.slice, Span.inChars_eq htext hstart hstop, Nat.add_sub_cancel_left]
  rw [htext, List.append_assoc, List.drop_left, List.take_left]

end ViewMarkup
