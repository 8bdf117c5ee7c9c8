/-
# Reading configuration text

TOML 1.0: key and value lines under table headers, with dotted keys, inline
tables, arrays of tables, four kinds of strings, and the rules on defining a
table twice. A text that breaks a rule is not read at all.

Key definitions: `Toml.parse`.
-/
import ViewMarkup.Toml.Value

namespace ViewMarkup.Toml

/-- How a table came to be: by its own header, as a step towards another
header's table, or by a dotted key. -/
inductive Origin
  | header
  | step
  | dotted
  deriving DecidableEq

/-- What a key holds while the text is read. Tables stay open to later lines,
values do not. -/
inductive Entry
  | value (v : Value)
  | table (origin : Origin) (entries : List (String × Entry))
  | tables (items : List (List (String × Entry)))
  deriving Inhabited

abbrev Entries := List (String × Entry)

/-- A reader of something at the front of the text. -/
abbrev Reader (α : Type) := List Char → Option (α × List Char)

def isSpace (c : Char) : Bool := c = ' ' || c = '\t'

def skipSpace (cs : List Char) : List Char := cs.dropWhile isSpace

/-- Characters that may not stand in comments and strings. -/
def isControl (c : Char) : Bool := (c.toNat < 0x20 && c ≠ '\t') || c.toNat == 0x7f

/-- The rest after a comment, if one starts here. -/
def skipComment : List Char → Option (List Char)
  | '#' :: cs =>
    let rest := cs.dropWhile fun c => !isControl c
    match rest with
    | [] => some []
    | '\n' :: _ => some rest
    | '\r' :: '\n' :: _ => some rest
    | _ => none
  | cs => some cs

/-- The rest after the end of a line. -/
def newline? : List Char → Option (List Char)
  | '\n' :: cs => some cs
  | '\r' :: '\n' :: cs => some cs
  | _ => none

/-- The rest after spaces and a comment, which have to end the line. -/
def endOfLine (cs : List Char) : Option (List Char) := do
  match ← skipComment (skipSpace cs) with
  | [] => some []
  | cs => newline? cs

/-- The rest after spaces, comments and line ends. -/
def skipLines : Nat → List Char → Option (List Char)
  | 0, cs => some cs
  | fuel + 1, cs => do
    let cs ← skipComment (skipSpace cs)
    match newline? cs with
    | some cs => skipLines fuel cs
    | none => some cs

def hexValue? (c : Char) : Option Nat :=
  if c.isDigit then some (c.toNat - '0'.toNat)
  else if 'a' ≤ c && c ≤ 'f' then some (c.toNat - 'a'.toNat + 10)
  else if 'A' ≤ c && c ≤ 'F' then some (c.toNat - 'A'.toNat + 10)
  else none

/-- The character with the code that the digits give. -/
def codeChar? (digits : List Char) : Option Char := do
  let code ← digits.foldlM (fun n c => (hexValue? c).map (n * 16 + ·)) 0
  if h : code.isValidChar then some (Char.ofNatAux code h) else none

/-- A character written as an escape, after the backslash. -/
def escape? : Reader Char
  | 'b' :: cs => some ('\x08', cs)
  | 't' :: cs => some ('\t', cs)
  | 'n' :: cs => some ('\n', cs)
  | 'f' :: cs => some ('\x0c', cs)
  | 'r' :: cs => some ('\r', cs)
  | '"' :: cs => some ('"', cs)
  | '\\' :: cs => some ('\\', cs)
  | 'u' :: cs => if cs.length < 4 then none else (codeChar? (cs.take 4)).map (·, cs.drop 4)
  | 'U' :: cs => if cs.length < 8 then none else (codeChar? (cs.take 8)).map (·, cs.drop 8)
  | _ => none

/-- A string on one line, after its opening quote. -/
def basicString : Nat → Reader (List Char)
  | 0, _ => none
  | _, [] => none
  | _, '"' :: cs => some ([], cs)
  | fuel + 1, '\\' :: cs => do
    let (c, cs) ← escape? cs
    let (body, cs) ← basicString fuel cs
    return (c :: body, cs)
  | fuel + 1, c :: cs => do
    if isControl c then none
    let (body, cs) ← basicString fuel cs
    return (c :: body, cs)

def literalString (cs : List Char) : Option (List Char × List Char) :=
  let body := cs.takeWhile fun c => c ≠ '\'' && !isControl c
  match cs.drop body.length with
  | '\'' :: rest => some (body, rest)
  | _ => none

/-- The end of a string over lines: three quotes, of up to five the last
three. The quotes before them belong to the string. -/
def closing (quote : Char) (cs : List Char) : Option (List Char × List Char) :=
  let run := (cs.takeWhile (· = quote)).length
  if run < 3 then none
  else if run ≤ 5 then some (List.replicate (run - 3) quote, cs.drop run)
  else some (List.replicate 2 quote, cs.drop 5)

/-- A string over lines, after its opening quotes. -/
def longString (escapes : Bool) (quote : Char) : Nat → Reader (List Char)
  | 0, _ => none
  | fuel + 1, cs =>
    match closing quote cs with
    | some r => some r
    | none =>
      match cs with
      | [] => none
      | '\r' :: '\n' :: cs => (longString escapes quote fuel cs).map fun r => ('\n' :: r.1, r.2)
      | '\n' :: cs => (longString escapes quote fuel cs).map fun r => ('\n' :: r.1, r.2)
      | '\\' :: cs =>
        if escapes then
          match newline? (skipSpace cs) with
          | some cs =>
            longString escapes quote fuel (cs.dropWhile fun c => isSpace c || c = '\n' || c = '\r')
          | none => do
            let (c, cs) ← escape? cs
            let (body, cs) ← longString escapes quote fuel cs
            return (c :: body, cs)
        else (longString escapes quote fuel cs).map fun r => ('\\' :: r.1, r.2)
      | c :: cs => do
        if isControl c then none
        let (body, cs) ← longString escapes quote fuel cs
        return (c :: body, cs)

/-- The text without a line end at its front. -/
def withoutNewline (cs : List Char) : List Char := (newline? cs).getD cs

/-- A string of any of the four kinds. -/
def stringValue? (cs : List Char) : Option (String × List Char) := do
  let (body, rest) ← match cs with
    | '"' :: '"' :: '"' :: cs => longString true '"' (cs.length + 1) (withoutNewline cs)
    | '\'' :: '\'' :: '\'' :: cs => longString false '\'' (cs.length + 1) (withoutNewline cs)
    | '"' :: cs => basicString (cs.length + 1) cs
    | '\'' :: cs => literalString cs
    | _ => none
  return (String.ofList body, rest)

def isBareChar (c : Char) : Bool := c.isAlphanum || c = '_' || c = '-'

/-- One part of a key. -/
def simpleKey : Reader String
  | '"' :: cs => (basicString (cs.length + 1) cs).map fun r => (String.ofList r.1, r.2)
  | '\'' :: cs => (literalString cs).map fun r => (String.ofList r.1, r.2)
  | cs =>
    let word := cs.takeWhile isBareChar
    if word.isEmpty then none else some (String.ofList word, cs.dropWhile isBareChar)

/-- A key of one or more parts between points. -/
def key : Nat → Reader (List String)
  | 0, _ => none
  | fuel + 1, cs => do
    let (part, cs) ← simpleKey (skipSpace cs)
    match skipSpace cs with
    | '.' :: cs => do
      let (parts, cs) ← key fuel cs
      return (part :: parts, cs)
    | cs => return ([part], cs)

/-- Digits with single underscores between them. -/
def underscored (isDigit : Char → Bool) : List Char → Option (List Char)
  | [] => none
  | [c] => if isDigit c then some [c] else none
  | c :: '_' :: d :: cs => do
    if !isDigit c then none
    let rest ← underscored isDigit (d :: cs)
    return c :: rest
  | c :: cs => do
    if !isDigit c then none
    let rest ← underscored isDigit cs
    return c :: rest

/-- Digits of a whole part: no zero before other digits. -/
def wholeDigits? (cs : List Char) : Option (List Char) := do
  let digits ← underscored Char.isDigit cs
  if digits.length > 1 && digits.head? = some '0' then none
  return digits

/-- A whole number in another base, after its mark. -/
def based? (base : Nat) (cs : List Char) : Option Value := do
  let digits ← underscored (fun c => (hexValue? c).any (· < base)) cs
  let n := digits.foldl (fun n c => n * base + (hexValue? c).getD 0) 0
  if fitsInt64 n then some (.integer n) else none

/-- A decimal number, after its sign. -/
def decimalValue? (negative : Bool) (cs : List Char) : Option Value := do
  let isMark (c : Char) : Bool := c = '.' || c = 'e' || c = 'E'
  let whole := cs.takeWhile fun c => !isMark c
  let digits ← wholeDigits? whole
  match cs.dropWhile fun c => !isMark c with
  | [] =>
    let n : Int := if negative then -(digitsValue digits : Int) else digitsValue digits
    if fitsInt64 n then some (.integer n) else none
  | rest => do
    let (fraction, rest) ← match rest with
      | '.' :: rest => do
        let part := rest.takeWhile fun c => !isMark c
        let digits ← underscored Char.isDigit part
        pure (digits, rest.drop part.length)
      | rest => pure ([], rest)
    let exponent ← match rest with
      | [] => pure (0 : Int)
      | '.' :: _ => none
      | _ :: rest => do
        let (minus, rest) := spanSign rest
        let digits ← underscored Char.isDigit rest
        pure (if minus then -(digitsValue digits : Int) else digitsValue digits)
    match Binary.ofDecimal .double negative
        ⟨digitsValue (digits ++ fraction), exponent - fraction.length⟩ with
    | .finite x => some (.float (.finite x))
    | _ => none

/-- Two digits within bounds. -/
def twoDigits (low high : Nat) : Reader Nat
  | a :: b :: cs =>
    let n := digitsValue [a, b]
    if a.isDigit && b.isDigit && low ≤ n && n ≤ high then some (n, cs) else none
  | _ => none

def daysIn (year month : Nat) : Nat :=
  if month = 2 then
    if year % 4 = 0 && (year % 100 ≠ 0 || year % 400 = 0) then 29 else 28
  else if month = 4 || month = 6 || month = 9 || month = 11 then 30
  else 31

/-- The rest after a date. -/
def date? (cs : List Char) : Option (List Char) := do
  let year := cs.take 4
  if year.length < 4 || !year.all Char.isDigit then none
  match cs.drop 4 with
  | '-' :: cs => do
    let (month, cs) ← twoDigits 1 12 cs
    match cs with
    | '-' :: cs => do
      let (_, cs) ← twoDigits 1 (daysIn (digitsValue year) month) cs
      return cs
    | _ => none
  | _ => none

/-- The rest after a time of day. -/
def time? (cs : List Char) : Option (List Char) := do
  let (_, cs) ← twoDigits 0 23 cs
  match cs with
  | ':' :: cs => do
    let (_, cs) ← twoDigits 0 59 cs
    match cs with
    | ':' :: cs => do
      let (_, cs) ← twoDigits 0 60 cs
      match cs with
      | '.' :: cs =>
        let (digits, rest) := spanDigits cs
        if digits.isEmpty then none else some rest
      | cs => some cs
    | _ => none
  | _ => none

/-- The rest after an offset from universal time, if there is one. -/
def offset? : List Char → Option (List Char)
  | 'Z' :: cs => some cs
  | 'z' :: cs => some cs
  | c :: cs =>
    if c = '+' || c = '-' then do
      let (_, cs) ← twoDigits 0 23 cs
      match cs with
      | ':' :: cs => do
        let (_, cs) ← twoDigits 0 59 cs
        return cs
      | _ => none
    else some (c :: cs)
  | [] => some []

/-- A date, a time of day, or both, at the front of the text. -/
def datetime? (cs : List Char) : Option (Value × List Char) :=
  match date? cs with
  | some rest =>
    match rest with
    | c :: after =>
      if c = 'T' || c = 't' || (c = ' ' && (time? after).isSome) then do
        let rest ← offset? (← time? after)
        return (.datetime, rest)
      else some (.datetime, rest)
    | [] => some (.datetime, [])
  | none => (time? cs).map (.datetime, ·)

def isWordChar (c : Char) : Bool :=
  c.isAlphanum || c = '_' || c = '+' || c = '-' || c = '.'

/-- A number or one of the words for a number or a truth value. -/
def plainValue? (word : List Char) : Option Value :=
  match word with
  | ['t', 'r', 'u', 'e'] => some (.boolean true)
  | ['f', 'a', 'l', 's', 'e'] => some (.boolean false)
  | '0' :: 'x' :: cs => based? 16 cs
  | '0' :: 'o' :: cs => based? 8 cs
  | '0' :: 'b' :: cs => based? 2 cs
  | cs =>
    let (negative, cs) := spanSign cs
    if cs = ['i', 'n', 'f'] then some (.float (.infinite negative))
    else if cs = ['n', 'a', 'n'] then some (.float .nan)
    else decimalValue? negative cs

/-- The table of the rest of a dotted key, and what becomes of it. -/
def descend (origin : Origin) : List String → (Origin → Entries → Option Entries) → Origin →
    Entries → Option Entries
  | [], change, own, entries => change own entries
  | step :: steps, change, _, entries =>
    let rec put : Entries → Option Entries
      | [] => do
        let inner ← descend origin steps change origin []
        return [(step, .table origin inner)]
      | (name, entry) :: rest =>
        if name = step then
          match entry with
          | .value _ => none
          | .table own inner => do
            if origin = .dotted && own = .header then none
            let inner ← descend origin steps change own inner
            return (name, .table own inner) :: rest
          | .tables items => do
            if origin = .dotted then none
            let last ← items.getLast?
            let inner ← descend origin steps change .header last
            return (name, .tables (items.dropLast ++ [inner])) :: rest
        else do
          let rest ← put rest
          return (name, entry) :: rest
    put entries

/-- Gives a new key a value. A dotted key has to end in a table that dotted keys
made. -/
def define (path : List String) (v : Value) (entries : Entries) : Option Entries :=
  let steps := path.dropLast
  descend .dotted steps (fun own entries => do
    let name ← path.getLast?
    if (own = .dotted) = steps.isEmpty then none
    if (entries.lookup name).isSome then none
    return entries ++ [(name, .value v)]) .header entries

mutual

/-- The value of an entry once the text is over. -/
def Entry.close : Entry → Value
  | .value v => v
  | .table _ entries => .table (closeEntries entries)
  | .tables items => .array (closeTables items)
termination_by structural e => e

def closeEntries : List (String × Entry) → List (String × Value)
  | [] => []
  | e :: rest => closeNamed e :: closeEntries rest
termination_by structural es => es

def closeTables : List (List (String × Entry)) → List Value
  | [] => []
  | t :: rest => .table (closeEntries t) :: closeTables rest
termination_by structural ts => ts

def closeNamed : String × Entry → String × Value
  | (name, e) => (name, e.close)
termination_by structural e => e

end

mutual

/-- A value of any kind at the front of the text. -/
def value : Nat → Reader Value
  | 0, _ => none
  | fuel + 1, cs =>
    match cs with
    | '"' :: _ => (stringValue? cs).map fun r => (.string r.1, r.2)
    | '\'' :: _ => (stringValue? cs).map fun r => (.string r.1, r.2)
    | '[' :: cs => (items fuel cs).map fun r => (.array r.1, r.2)
    | '{' :: cs =>
      match skipSpace cs with
      | '}' :: rest => some (.table [], rest)
      | cs => (inlinePairs fuel [] cs).map fun r => (.table (closeEntries r.1), r.2)
    | cs =>
      match datetime? cs with
      | some r => some r
      | none =>
        (plainValue? (cs.takeWhile isWordChar)).map (·, cs.dropWhile isWordChar)

/-- The items of an array up to its closing bracket. -/
def items : Nat → Reader (List Value)
  | 0, _ => none
  | fuel + 1, cs => do
    match ← skipLines (cs.length + 1) cs with
    | ']' :: rest => return ([], rest)
    | cs => do
      let (v, cs) ← value fuel cs
      match ← skipLines (cs.length + 1) cs with
      | ']' :: rest => return ([v], rest)
      | ',' :: cs => do
        let (vs, rest) ← items fuel cs
        return (v :: vs, rest)
      | _ => none

/-- The pairs of an inline table up to its closing brace. -/
def inlinePairs : Nat → Entries → Reader Entries
  | 0, _, _ => none
  | fuel + 1, entries, cs => do
    let (path, cs) ← key (cs.length + 1) cs
    match cs with
    | '=' :: cs => do
      let (v, cs) ← value fuel (skipSpace cs)
      let entries ← define path v entries
      match skipSpace cs with
      | '}' :: rest => return (entries, rest)
      | ',' :: cs => inlinePairs fuel entries cs
      | _ => none
    | _ => none

end

/-- Opens the table of a header. It may be there as a step towards another one,
but not by a header of its own or by dotted keys. -/
def openTable (path : List String) (entries : Entries) : Option Entries :=
  descend .step path.dropLast (fun _ entries => do
    let name ← path.getLast?
    match entries.lookup name with
    | none => return entries ++ [(name, .table .header [])]
    | some (.table .step inner) =>
      return entries.map fun e => if e.1 = name then (name, .table .header inner) else e
    | some _ => none) .header entries

/-- Adds a table to the array of a header. -/
def openItem (path : List String) (entries : Entries) : Option Entries :=
  descend .step path.dropLast (fun _ entries => do
    let name ← path.getLast?
    match entries.lookup name with
    | none => return entries ++ [(name, .tables [[]])]
    | some (.tables items) =>
      return entries.map fun e => if e.1 = name then (name, .tables (items ++ [[]])) else e
    | some _ => none) .header entries

/-- Adds a pair to the table of the last header. -/
def defineIn (header path : List String) (v : Value) (entries : Entries) : Option Entries :=
  descend .step header (fun _ inner => define path v inner) .header entries

/-- The lines of a text, under the header `header`. -/
def lines : Nat → List String → Entries → List Char → Option Entries
  | 0, _, _, _ => none
  | fuel + 1, header, entries, cs =>
    match skipSpace cs with
    | [] => some entries
    | '[' :: '[' :: cs => do
      let (path, cs) ← key (cs.length + 1) cs
      match cs with
      | ']' :: ']' :: cs => do
        let entries ← openItem path entries
        lines fuel path entries (← endOfLine cs)
      | _ => none
    | '[' :: cs => do
      let (path, cs) ← key (cs.length + 1) cs
      match cs with
      | ']' :: cs => do
        let entries ← openTable path entries
        lines fuel path entries (← endOfLine cs)
      | _ => none
    | c :: cs =>
      if c = '#' || c = '\n' || c = '\r' then do
        lines fuel header entries (← endOfLine (c :: cs))
      else do
        let (path, cs) ← key (cs.length + 2) (c :: cs)
        match cs with
        | '=' :: cs => do
          let (v, cs) ← value (2 * cs.length + 2) (skipSpace cs)
          let entries ← defineIn header path v entries
          lines fuel header entries (← endOfLine cs)
        | _ => none

/-- Reads a whole text as a table. -/
def parse (text : String) : Option Value :=
  let cs := match text.toList with
    | '\ufeff' :: cs => cs
    | cs => cs
  (lines (cs.length + 1) [] [] cs).map fun entries => .table (closeEntries entries)

end ViewMarkup.Toml
