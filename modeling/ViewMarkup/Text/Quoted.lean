/-
# Quoted text

A text between double quotes, in which quotes, backslashes, the usual controls
and every character that does not print by itself are written as escapes.

Key definitions: `escapeChar`, `quoted`.
-/
import ViewMarkup.Text.CharTable

namespace ViewMarkup

/-- Whether a character is written by its code. -/
def isUnprinted (c : Char) : Bool :=
  if c.toNat < 0x7f then c.toNat < 0x20 else CharTable.holds CharTable.unprinted c

def escapeChar (c : Char) : String :=
  if c = '\x00' then "\\0"
  else if c = '\t' then "\\t"
  else if c = '\r' then "\\r"
  else if c = '\n' then "\\n"
  else if c = '\\' then "\\\\"
  else if c = '"' then "\\\""
  else if isUnprinted c then
    "\\u" ++ "\x7b" ++ String.ofList (Nat.toDigits 16 c.toNat) ++ "\x7d"
  else c.toString

/-- The text between double quotes, with escapes. -/
def quoted (text : String) : String :=
  "\"" ++ String.join (text.toList.map escapeChar) ++ "\""

end ViewMarkup
