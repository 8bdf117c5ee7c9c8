/-
# Places in a text

A span is a range of byte offsets into the UTF-8 form of a text, end exclusive.
Readers walk a list of characters and count the bytes passed, so every offset
they report lies between two characters; `charsBefore` turns it into a count of
characters.

Key definitions: `Span`, `Located`, `byteLength`, `charsBefore`,
`Span.inChars`.
-/

namespace ViewMarkup

/-- The bytes from `start` up to `stop`. -/
structure Span where
  start : Nat
  stop : Nat
  deriving DecidableEq, Repr

/-- Something read from a text, and where. -/
structure Located (α : Type) where
  value : α
  span : Span
  deriving DecidableEq, Repr

/-- The length of the characters in UTF-8. -/
def byteLength : List Char → Nat
  | [] => 0
  | c :: cs => c.utf8Size + byteLength cs

/-- How many characters start before the byte offset. -/
def charsBefore : Nat → List Char → Nat
  | _, [] => 0
  | offset, c :: cs => if offset = 0 then 0 else 1 + charsBefore (offset - c.utf8Size) cs

/-- The span in characters instead of bytes. -/
def Span.inChars (span : Span) (text : String) : Span :=
  ⟨charsBefore span.start text.toList, charsBefore span.stop text.toList⟩

end ViewMarkup
