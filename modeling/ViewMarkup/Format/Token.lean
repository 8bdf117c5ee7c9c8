/-
# Tokens of the visual format language

A format is cut into tokens by longest match; blanks between them are skipped.
Tokens are made of ASCII characters alone, so their lengths in characters and
in bytes agree. The first character at which neither a token nor a blank starts
stops the scan.

Key definitions: `Token`, `Token.front?`, `Token.scan`, `tokens`.
-/
import ViewMarkup.Numeric.Reading
import ViewMarkup.Text.Span

namespace ViewMarkup

inductive Token
  | horizontal
  | vertical
  | pipe
  | dash
  | bracketOpen
  | bracketClose
  | parenOpen
  | parenClose
  | comma
  | priorityMark
  | equal
  | atLeast
  | atMost
  | name (text : String)
  | number (x : Double)
  deriving DecidableEq

namespace Token

/-- The token as messages name it. -/
def describe : Token → String
  | horizontal => "'H:'"
  | vertical => "'V:'"
  | pipe => "'|'"
  | dash => "'-'"
  | bracketOpen => "'['"
  | bracketClose => "']'"
  | parenOpen => "'('"
  | parenClose => "')'"
  | comma => "','"
  | priorityMark => "'@'"
  | equal => "'=='"
  | atLeast => "'>='"
  | atMost => "'<='"
  | name text => "name '" ++ text ++ "'"
  | number x => "number " ++ x.text

def isBlank (c : Char) : Bool := c = ' ' || c = '\t' || c = '\n' || c = '\r'

def isNameStart (c : Char) : Bool := c.isAlpha || c = '_'

def isNameChar (c : Char) : Bool := c.isAlphanum || c = '_'

/-- How many of the characters after a digit belong to the same number: digits,
and a point if a digit follows it. -/
def numberTail (cs : List Char) : Nat :=
  let whole := (cs.takeWhile Char.isDigit).length
  match cs.drop whole with
  | '.' :: rest =>
    let fraction := (rest.takeWhile Char.isDigit).length
    if fraction = 0 then whole else whole + 1 + fraction
  | _ => whole

/-- The value of a number token's characters. -/
def numberValue (cs : List Char) : Double :=
  match decimal? cs with
  | some d => .ofDecimal .double false d
  | none => .nan

/-- The longest token that starts with the character `c`, and how many of the
characters after `c` it takes. -/
def front? (c : Char) (cs : List Char) : Option (Token × Nat) :=
  if c = '|' then some (pipe, 0)
  else if c = '-' then some (dash, 0)
  else if c = '[' then some (bracketOpen, 0)
  else if c = ']' then some (bracketClose, 0)
  else if c = '(' then some (parenOpen, 0)
  else if c = ')' then some (parenClose, 0)
  else if c = ',' then some (comma, 0)
  else if c = '@' then some (priorityMark, 0)
  else if c = '=' then if cs.head? = some '=' then some (equal, 1) else none
  else if c = '>' then if cs.head? = some '=' then some (atLeast, 1) else none
  else if c = '<' then if cs.head? = some '=' then some (atMost, 1) else none
  else if c.isDigit then
    some (number (numberValue (c :: cs.take (numberTail cs))), numberTail cs)
  else if c = 'H' && cs.head? = some ':' then some (horizontal, 1)
  else if c = 'V' && cs.head? = some ':' then some (vertical, 1)
  else if isNameStart c then
    let tail := cs.takeWhile isNameChar
    some (name (String.ofList (c :: tail)), tail.length)
  else none

/-- The tokens of the characters, the first of which is at `offset`; or the
place of the first character at which no token starts. -/
def scan (offset : Nat) : List Char → Except Span (List (Located Token))
  | [] => .ok []
  | c :: cs =>
    if isBlank c then scan (offset + 1) cs
    else match front? c cs with
      | none => .error ⟨offset, offset + c.utf8Size⟩
      | some (token, more) =>
        (scan (offset + more + 1) (cs.drop more)).map
          (⟨token, ⟨offset, offset + more + 1⟩⟩ :: ·)
termination_by cs => cs.length
decreasing_by
  · simp only [List.length_cons]
    omega
  · simp only [List.length_cons, List.length_drop]
    omega

end Token

/-- The tokens of a format. -/
def tokens (format : String) : Except Span (List (Located Token)) := Token.scan 0 format.toList

end ViewMarkup
