/-
# Reading JSON text

A text is read into a `Reading`, which has the shape of a value but keeps what
went wrong at its place: a container that stops before its end says how it
stopped, and a number or string that is well formed but denotes no value, as a
number beyond the doubles or half of a surrogate pair, is there without one.
Whoever wants the value reports the first such fault; whoever skips a value
only has to know whether it is well formed (`Reading.fault?`).

`Json.ofText` reads a whole text as a value.

Key definitions: `Reading`, `Reading.ofText`, `Reading.toJson`, `Json.ofText`,
`Json.reading`.
-/
import ViewMarkup.Json.Basic
import ViewMarkup.Text.Span

namespace ViewMarkup.Json

/-- Why a text is not JSON: it breaks a rule, or it ends too early. -/
inductive TextFault
  | malformed
  | truncated
  deriving DecidableEq

/-- A value as far as it could be read. -/
inductive Reading
  | null
  | bool (b : Bool)
  | number (n : Option Number)
  | string (s : Option String)
  | array (items : List Reading) (fault : Option TextFault)
  | object (members : List (Option String × Reading)) (fault : Option TextFault)
  /-- A container nested deeper than values may be. -/
  | tooDeep (inner : Reading)
  /-- Nothing that starts a value. -/
  | broken (fault : TextFault)
  deriving Inhabited

/-- A value, and what is wrong with the text after it. -/
structure Reading.Document where
  value : Reading
  trailing : Option TextFault

namespace Reading

/-- How deep values may nest. -/
def depthLimit : Nat := 127

def isSpace (c : Char) : Bool := c = ' ' || c = '\n' || c = '\t' || c = '\r'

def skipSpace (cs : List Char) : List Char := cs.dropWhile isSpace

/-- `malformed` if there is text where a rule is broken, `truncated` if the text
is over. -/
def faultAt : List Char → TextFault
  | [] => .truncated
  | _ :: _ => .malformed

/-- The rest after a word that has to come next. -/
def word : List Char → List Char → Except TextFault (List Char)
  | [], cs => .ok cs
  | _ :: _, [] => .error .truncated
  | w :: ws, c :: cs => if w = c then word ws cs else .error .malformed

/-- A run of digits that may not be empty. -/
def someDigits (cs : List Char) : Except TextFault (List Char × List Char) :=
  let (digits, rest) := spanDigits cs
  if digits.isEmpty then .error (faultAt rest) else .ok (digits, rest)

/-- The digits before the point: no zero before other digits. -/
def wholeDigits : List Char → Except TextFault (List Char × List Char)
  | '0' :: c :: cs => if c.isDigit then .error .malformed else .ok (['0'], c :: cs)
  | cs => someDigits cs

/-- A number, at its sign or its first digit. -/
def numeral (cs : List Char) : Except TextFault (Numeral × List Char) := do
  let (negative, cs) := match cs with
    | '-' :: cs => (true, cs)
    | cs => (false, cs)
  let (whole, cs) ← wholeDigits cs
  let (fraction, cs) ← match cs with
    | '.' :: cs => do
      let (digits, cs) ← someDigits cs
      pure (some digits, cs)
    | cs => pure (none, cs)
  match cs with
  | c :: rest =>
    if c = 'e' || c = 'E' then do
      let (sign, rest) := spanSign rest
      let (digits, rest) ← someDigits rest
      pure (⟨negative, whole, fraction, some (sign, digits)⟩, rest)
    else pure (⟨negative, whole, fraction, none⟩, cs)
  | [] => pure (⟨negative, whole, fraction, none⟩, [])

def hexDigit? (c : Char) : Option Nat :=
  if c.isDigit then some (c.toNat - '0'.toNat)
  else if 'a' ≤ c && c ≤ 'f' then some (c.toNat - 'a'.toNat + 10)
  else if 'A' ≤ c && c ≤ 'F' then some (c.toNat - 'A'.toNat + 10)
  else none

/-- The value of four hexadecimal digits. -/
def hex4? (a b c d : Char) : Option Nat := do
  let a ← hexDigit? a
  let b ← hexDigit? b
  let c ← hexDigit? c
  let d ← hexDigit? d
  pure (((a * 16 + b) * 16 + c) * 16 + d)

/-- The character of a simple escape. -/
def escaped? : Char → Option Char
  | '"' => some '"'
  | '\\' => some '\\'
  | '/' => some '/'
  | 'b' => some '\x08'
  | 'f' => some '\x0c'
  | 'n' => some '\n'
  | 'r' => some '\r'
  | 't' => some '\t'
  | _ => none

/-- A string after its opening quote: its code points, with surrogates as they
are escaped, and the rest. -/
def stringBody : List Char → Except TextFault (List Nat × List Char)
  | [] => .error .truncated
  | '"' :: cs => .ok ([], cs)
  | '\\' :: 'u' :: a :: b :: c :: d :: cs =>
    match hex4? a b c d with
    | some code => (stringBody cs).map (put code)
    | none => .error .malformed
  | '\\' :: 'u' :: cs => .error (if byteLength cs < 4 then .truncated else .malformed)
  | '\\' :: c :: cs =>
    match escaped? c with
    | some e => (stringBody cs).map (put e.toNat)
    | none => .error .malformed
  | '\\' :: [] => .error .truncated
  | c :: cs => if c.toNat < 0x20 then .error .malformed else (stringBody cs).map (put c.toNat)
where
  put (code : Nat) (r : List Nat × List Char) : List Nat × List Char := (code :: r.1, r.2)

def isHighSurrogate (code : Nat) : Bool := 0xd800 ≤ code && code < 0xdc00

def isLowSurrogate (code : Nat) : Bool := 0xdc00 ≤ code && code < 0xe000

/-- The characters of code points in which a high and a low surrogate stand for
one character; none if half of a pair stands alone. -/
def joinSurrogates : List Nat → Option (List Char)
  | [] => some []
  | [code] =>
    if isHighSurrogate code || isLowSurrogate code then none else some [Char.ofNat code]
  | code :: next :: codes =>
    if isHighSurrogate code then
      if isLowSurrogate next then
        (joinSurrogates codes).map
          (Char.ofNat (0x10000 + (code - 0xd800) * 0x400 + (next - 0xdc00)) :: ·)
      else none
    else if isLowSurrogate code then none
    else (joinSurrogates (next :: codes)).map (Char.ofNat code :: ·)

/-- The text of code points, if they have one. -/
def textOf? (codes : List Nat) : Option String := (joinSurrogates codes).map String.ofList

/-- What was read, and the rest of the text unless it stopped there. -/
abbrev Step (α : Type) := α × Option (List Char)

private def ofWord (r : Except TextFault (List Char)) (value : Reading) : Step Reading :=
  match r with
  | .ok rest => (value, some rest)
  | .error fault => (.broken fault, none)

mutual

/-- A value. `depth` containers are open around it; `fuel` bounds the steps. -/
def value : Nat → Nat → List Char → Step Reading
  | 0, _, _ => (.broken .truncated, none)
  | fuel + 1, depth, cs =>
    match skipSpace cs with
    | [] => (.broken .truncated, none)
    | '"' :: cs =>
      match stringBody cs with
      | .ok (s, rest) => (.string (textOf? s), some rest)
      | .error fault => (.broken fault, none)
    | '[' :: cs => limited depth <|
      match skipSpace cs with
      | ']' :: rest => (.array [] none, some rest)
      | [] => (.array [] (some .truncated), none)
      | cs =>
        let ((read, fault), rest) := items fuel (depth + 1) cs
        (.array read fault, rest)
    | '{' :: cs => limited depth <|
      match skipSpace cs with
      | '}' :: rest => (.object [] none, some rest)
      | cs =>
        let ((read, fault), rest) := members fuel (depth + 1) cs
        (.object read fault, rest)
    | 'n' :: cs => ofWord (word ['u', 'l', 'l'] cs) .null
    | 't' :: cs => ofWord (word ['r', 'u', 'e'] cs) (.bool true)
    | 'f' :: cs => ofWord (word ['a', 'l', 's', 'e'] cs) (.bool false)
    | c :: cs =>
      if c = '-' || c.isDigit then
        match numeral (c :: cs) with
        | .ok (n, rest) => (.number n.number?, some rest)
        | .error fault => (.broken fault, none)
      else (.broken .malformed, none)

/-- The items of an array from the next one on, to its closing bracket. -/
def items : Nat → Nat → List Char → Step (List Reading × Option TextFault)
  | 0, _, _ => (([], some .truncated), none)
  | fuel + 1, depth, cs =>
    match value fuel depth cs with
    | (item, none) => (([item], none), none)
    | (item, some cs) =>
      match skipSpace cs with
      | ']' :: rest => (([item], none), some rest)
      | ',' :: cs =>
        match skipSpace cs with
        | ']' :: _ => (([item], some .malformed), none)
        | cs =>
          let ((read, fault), rest) := items fuel depth cs
          ((item :: read, fault), rest)
      | cs => (([item], some (faultAt cs)), none)

/-- The members of an object from the next key on, to its closing brace. -/
def members : Nat → Nat → List Char →
    Step (List (Option String × Reading) × Option TextFault)
  | 0, _, _ => (([], some .truncated), none)
  | fuel + 1, depth, cs =>
    match skipSpace cs with
    | '"' :: cs =>
      match stringBody cs with
      | .error fault => (([], some fault), none)
      | .ok (key, cs) =>
        let key := textOf? key
        match skipSpace cs with
        | ':' :: cs =>
          match value fuel depth cs with
          | (v, none) => (([(key, v)], none), none)
          | (v, some cs) =>
            match skipSpace cs with
            | '}' :: rest => (([(key, v)], none), some rest)
            | ',' :: cs =>
              let ((read, fault), rest) := members fuel depth cs
              (((key, v) :: read, fault), rest)
            | cs => (([(key, v)], some (faultAt cs)), none)
        | cs => (([(key, .broken (faultAt cs))], none), none)
    | cs => (([], some (faultAt cs)), none)

/-- Marks a container that is nested too deep. -/
def limited (depth : Nat) (r : Step Reading) : Step Reading :=
  if depth < depthLimit then r else (.tooDeep r.1, r.2)

end

/-- Reads a whole text. -/
def ofText (text : String) : Document :=
  let cs := text.toList
  match value (2 * cs.length + 2) 0 cs with
  | (v, none) => ⟨v, none⟩
  | (v, some rest) => ⟨v, if (skipSpace rest).isEmpty then none else some .malformed⟩

mutual

/-- The first fault of form in a value that is skipped. -/
def fault? : Reading → Option TextFault
  | array items fault => (itemsFault? items).or fault
  | object members fault => (membersFault? members).or fault
  | tooDeep inner => inner.fault?
  | broken fault => some fault
  | _ => none
termination_by structural r => r

def itemsFault? : List Reading → Option TextFault
  | [] => none
  | r :: rest => r.fault?.or (itemsFault? rest)
termination_by structural items => items

def membersFault? : List (Option String × Reading) → Option TextFault
  | [] => none
  | m :: rest => (memberFault? m).or (membersFault? rest)
termination_by structural members => members

def memberFault? : Option String × Reading → Option TextFault
  | (_, r) => r.fault?
termination_by structural m => m

end

/-- What has to be there; a part without a value is malformed. -/
def require {α : Type} : Option α → Except TextFault α
  | some a => .ok a
  | none => .error .malformed

/-- Stops with the fault, if there is one. -/
def stop : Option TextFault → Except TextFault Unit
  | none => .ok ()
  | some fault => .error fault

mutual

/-- The value read, or the first fault. -/
def toJson : Reading → Except TextFault Json
  | null => .ok .null
  | bool b => .ok (.bool b)
  | number n => (require n).map .number
  | string s => (require s).map .string
  | array items fault => do
    let items ← toItems items
    stop fault
    return .array items
  | object members fault => do
    let members ← toMembers members
    stop fault
    return .object (gather members)
  | tooDeep _ => .error .malformed
  | broken fault => .error fault
termination_by structural r => r

def toItems : List Reading → Except TextFault (List Json)
  | [] => .ok []
  | r :: rest => do
    let v ← r.toJson
    let vs ← toItems rest
    return v :: vs
termination_by structural items => items

def toMembers : List (Option String × Reading) → Except TextFault (List (String × Json))
  | [] => .ok []
  | m :: rest => do
    let v ← toMember m
    let vs ← toMembers rest
    return v :: vs
termination_by structural members => members

def toMember : Option String × Reading → Except TextFault (String × Json)
  | (key, r) => do
    let key ← require key
    let v ← r.toJson
    return (key, v)
termination_by structural m => m

end

/-- The value of a text that holds nothing else. -/
def Document.toJson (doc : Document) : Except TextFault Json := do
  let v ← doc.value.toJson
  stop doc.trailing
  return v

end Reading

/-- Reads a whole text as a value. -/
def ofText (text : String) : Except TextFault Json := (Reading.ofText text).toJson

mutual

/-- A value, as reading its text gives it. -/
def reading : Json → Reading
  | null => .null
  | bool b => .bool b
  | number n => .number (some n)
  | string s => .string (some s)
  | array items => .array (itemReadings items) none
  | object members => .object (memberReadings members) none
termination_by structural v => v

def itemReadings : List Json → List Reading
  | [] => []
  | v :: rest => v.reading :: itemReadings rest
termination_by structural items => items

def memberReadings : List (String × Json) → List (Option String × Reading)
  | [] => []
  | m :: rest => memberReading m :: memberReadings rest
termination_by structural members => members

def memberReading : String × Json → Option String × Reading
  | (key, v) => (some key, v.reading)
termination_by structural m => m

end

end ViewMarkup.Json
