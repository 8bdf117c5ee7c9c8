/-
# Reading numbers from text

The plain grammar of decimal numbers, with a sign, a fraction, an exponent, and
words for infinity and for what is not a number; and whole numbers of 64 bits.

Key definitions: `decimal?`, `double?`, `integer?`.
-/
import ViewMarkup.Numeric.Decimal

namespace ViewMarkup

-- Powers are the core library's, whatever else is in scope.
attribute [local instance (high)] instPowNat

/-- The value of a run of decimal digits. -/
def digitsValue (digits : List Char) : Nat :=
  digits.foldl (fun n c => n * 10 + (c.toNat - '0'.toNat)) 0

/-- The run of digits at the front, and the rest. -/
def spanDigits (cs : List Char) : List Char × List Char :=
  (cs.takeWhile Char.isDigit, cs.dropWhile Char.isDigit)

/-- A sign at the front, true for minus, and the rest. -/
def spanSign : List Char → Bool × List Char
  | '-' :: cs => (true, cs)
  | '+' :: cs => (false, cs)
  | cs => (false, cs)

/-- An exponent that fills the text: `e` or `E`, a sign, digits. Nothing at all
is exponent zero. -/
def exponent? : List Char → Option Int
  | [] => some 0
  | c :: cs =>
    let (negative, digits) := spanSign cs
    if (c = 'e' || c = 'E') && !digits.isEmpty && digits.all Char.isDigit then
      some (if negative then -(digitsValue digits : Int) else digitsValue digits)
    else none

/-- An unsigned decimal that fills the text. Digits may be missing on one side
of the point, not on both. -/
def decimal? (cs : List Char) : Option Decimal :=
  let (whole, rest) := spanDigits cs
  let (fraction, rest) :=
    match rest with
    | '.' :: rest => spanDigits rest
    | rest => ([], rest)
  if whole.isEmpty && fraction.isEmpty then none
  else (exponent? rest).map fun e => ⟨digitsValue (whole ++ fraction), e - fraction.length⟩

/-- A double that fills the text. The words `inf`, `infinity` and `nan` are
taken in any case. -/
def double? (text : String) : Option Double :=
  let (negative, cs) := spanSign text.toList
  let word := String.ofList (cs.map Char.toLower)
  if word = "inf" || word = "infinity" then some (.infinite negative)
  else if word = "nan" then some .nan
  else (decimal? cs).map (Binary.ofDecimal .double negative)

/-- Whether a whole number fits 64 bits with sign. -/
def fitsInt64 (n : Int) : Bool := -2 ^ (63 : Nat) ≤ n && n < 2 ^ (63 : Nat)

/-- A whole number of 64 bits that fills the text. -/
def integer? (text : String) : Option Int :=
  let (negative, cs) := spanSign text.toList
  let n : Int := if negative then -(digitsValue cs : Int) else digitsValue cs
  if !cs.isEmpty && cs.all Char.isDigit && fitsInt64 n then some n else none

end ViewMarkup
