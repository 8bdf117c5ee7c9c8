/-
# Colors

A color has four channels of 8 bits. It is written as `#rrggbb`, with two more
digits for its alpha unless it is opaque, and read from 6 or 8 hexadecimal
digits. The system colors have names of their own.

Key definitions: `Color`, `Color.ofHex`, `Color.text`, `HexFault.message`,
`systemColors`.
-/
import ViewMarkup.Text.Span

namespace ViewMarkup

abbrev Channel := Fin 256

structure Color where
  red : Channel
  green : Channel
  blue : Channel
  alpha : Channel
  deriving DecidableEq

/-- Why hexadecimal digits are not a color. -/
inductive HexFault
  /-- They do not have the length of a color. -/
  | length (found : Nat)
  /-- One of them is no digit. -/
  | digit (c : Char)
  deriving DecidableEq

namespace HexFault

def message : HexFault → String
  | length found => "expected 6 or 8 hex digits, found " ++ toString found
  | digit c => "'" ++ c.toString ++ "' is not a hex digit"

end HexFault

namespace Color

def opaqueChannel : Channel := 255

def rgb (red green blue : Channel) : Color := ⟨red, green, blue, opaqueChannel⟩

def isOpaque (c : Color) : Bool := c.alpha = opaqueChannel

/-- The value of an ASCII hexadecimal digit, of either case. -/
def hexDigit? (c : Char) : Option (Fin 16) :=
  if '0' ≤ c ∧ c ≤ '9' then some (Fin.ofNat 16 (c.toNat - '0'.toNat))
  else if 'a' ≤ c ∧ c ≤ 'f' then some (Fin.ofNat 16 (c.toNat - 'a'.toNat + 10))
  else if 'A' ≤ c ∧ c ≤ 'F' then some (Fin.ofNat 16 (c.toNat - 'A'.toNat + 10))
  else none

def channel (high low : Fin 16) : Channel := ⟨high.val * 16 + low.val, by omega⟩

/-- The values of the digits, or the first character that is none. -/
def hexDigits : List Char → Except HexFault (List (Fin 16))
  | [] => .ok []
  | c :: cs =>
    match hexDigit? c with
    | some d => (hexDigits cs).map (d :: ·)
    | none => .error (.digit c)

/-- A color from its digits. The length is that of the text in UTF-8, so a text
whose length is right and whose characters are not all ASCII is refused for the
first of them. -/
def ofHex (text : String) : Except HexFault Color :=
  let cs := text.toList
  if byteLength cs ≠ 6 ∧ byteLength cs ≠ 8 then .error (.length cs.length)
  else do
    match ← hexDigits cs with
    | [r, r', g, g', b, b'] => .ok (rgb (channel r r') (channel g g') (channel b b'))
    | [r, r', g, g', b, b', a, a'] =>
      .ok ⟨channel r r', channel g g', channel b b', channel a a'⟩
    | digits => .error (.length digits.length)

def hexChar (d : Fin 16) : Char :=
  if d.val < 10 then Char.ofNat ('0'.toNat + d.val) else Char.ofNat ('a'.toNat + (d.val - 10))

/-- Two digits of a channel. -/
def channelChars (c : Channel) : List Char :=
  [hexChar ⟨c.val / 16, by omega⟩, hexChar ⟨c.val % 16, by omega⟩]

/-- The digits of a color; an opaque one leaves out its alpha. -/
def hexChars (c : Color) : List Char :=
  channelChars c.red ++ channelChars c.green ++ channelChars c.blue ++
    if c.isOpaque then [] else channelChars c.alpha

def text (c : Color) : String := String.ofList ('#' :: c.hexChars)

end Color

/-- The colors every palette knows. -/
def systemColors : List (String × Color) :=
  [("black", .rgb 0 0 0),
   ("darkGray", .rgb 85 85 85),
   ("lightGray", .rgb 170 170 170),
   ("white", .rgb 255 255 255),
   ("gray", .rgb 128 128 128),
   ("red", .rgb 255 0 0),
   ("green", .rgb 0 255 0),
   ("blue", .rgb 0 0 255),
   ("cyan", .rgb 0 255 255),
   ("yellow", .rgb 255 255 0),
   ("magenta", .rgb 255 0 255),
   ("orange", .rgb 255 128 0),
   ("purple", .rgb 128 0 128),
   ("brown", .rgb 153 102 51),
   ("clear", ⟨0, 0, 0, 0⟩)]

end ViewMarkup
