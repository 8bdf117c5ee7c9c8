/-
# Decimals of binary numbers

A decimal is a whole number of digits times a power of ten. `Binary.ofDecimal`
reads one into a format, correctly rounded; `Finite.shortest` finds the
shortest decimal that reads back as the number, and of several the nearest.
For each count of digits, from one upwards, the two decimals around the number
are tried; the exact decimal expansion, which always reads back, stands in
should none do.

A `NumberStyle` says how such a decimal is spelt.

Key definitions: `Binary.ofDecimal`, `Finite.shortest`, `Binary.text`.
-/
import ViewMarkup.Numeric.Binary

namespace ViewMarkup

-- Powers are the core library's, whatever else is in scope.
attribute [local instance (high)] instPowNat

/-- `digits * 10 ^ exponent`. -/
structure Decimal where
  digits : Nat
  exponent : Int
  deriving DecidableEq

namespace Decimal

/-- Numerator and denominator of the value. -/
def quotient (d : Decimal) : Nat × Nat :=
  if 0 ≤ d.exponent then (d.digits * 10 ^ d.exponent.toNat, 1)
  else (d.digits, 10 ^ (-d.exponent).toNat)

/-- Zeros at the end of the digits, moved into the exponent; at most `fuel`. -/
def trimmed : Nat → Decimal → Decimal
  | 0, d => d
  | fuel + 1, d =>
    if d.digits ≠ 0 ∧ d.digits % 10 = 0 then trimmed fuel ⟨d.digits / 10, d.exponent + 1⟩ else d

end Decimal

namespace Binary

/-- The number nearest to a decimal. Exponents so far out that the result is
infinity or zero whatever the digits are answered without the power of ten. -/
def ofDecimal (f : FloatFormat) (negative : Bool) (d : Decimal) : Binary f :=
  if d.digits = 0 then ofQuotient f negative 0 1
  else if (f.binades : Int) ≤ d.exponent then infinite negative
  else if (d.digits.log2 + f.depth + 2 : Int) ≤ -3 * d.exponent then ofQuotient f negative 0 1
  else ofQuotient f negative d.quotient.1 d.quotient.2

end Binary

/-- How many decimal digits a natural number has; one for zero. -/
def digitCount (n : Nat) : Nat := (Nat.toDigits 10 n).length

/-- The exponent of the leading decimal digit of `num / den`, for `num` not
zero. -/
def leadingExponent (num den : Nat) : Int :=
  if den ≤ num then (digitCount (num / den) : Int) - 1
  else -(digitCount ((den + num - 1) / num - 1) : Int)

/-- Which of two decimals at the same distance is taken. -/
inductive TieRule
  | upward
  | toEven
  deriving DecidableEq

namespace Finite

variable {f : FloatFormat}

/-- The decimal with `exponent` next below the magnitude, and whether the next
one above is nearer, as far as, or farther than it. -/
private def below (x : Finite f) (exponent : Int) : Nat × Ordering :=
  let num := x.units * 10 ^ (-exponent).toNat
  let den := 2 ^ f.depth * 10 ^ exponent.toNat
  (num / den, compare (2 * (num % den)) den)

private def readsBack (x : Finite f) (digits : Nat) (exponent : Int) : Bool :=
  Binary.ofDecimal f x.negative ⟨digits, exponent⟩ = .finite x

/-- The decimal with this exponent that reads back as the number and is nearest
to it, if one does. -/
def decimalAt? (tie : TieRule) (x : Finite f) (exponent : Int) : Option Decimal :=
  let (low, order) := below x exponent
  let high := low + 1
  let up : Bool :=
    match order with
    | .lt => false
    | .gt => true
    | .eq => tie = .upward || low % 2 = 1
  let first := if up then high else low
  let second := if up then low else high
  if readsBack x first exponent then some ⟨first, exponent⟩
  else if readsBack x second exponent then some ⟨second, exponent⟩
  else none

/-- The whole decimal expansion. -/
def expansion (x : Finite f) : Decimal := ⟨x.units * 5 ^ f.depth, -f.depth⟩

/-- The shortest decimal that reads back as the number. -/
def shortest (tie : TieRule) (x : Finite f) : Decimal :=
  let lead := leadingExponent x.units (2 ^ f.depth)
  let found := (List.range 17).findSome? fun (n : Nat) => decimalAt? tie x (lead - n)
  (found.getD (expansion x)).trimmed (digitCount (found.getD (expansion x)).digits)

end Finite

/-- How numbers are spelt: which of two equally near decimals is taken, which
exponents of the leading digit are written out in full, whether a whole number
keeps a point, and the words for what is not finite. -/
structure NumberStyle where
  tie : TieRule
  positional : Int → Bool
  keepsPoint : Bool

namespace NumberStyle

/-- A decimal other than zero. -/
def write (style : NumberStyle) (d : Decimal) : String :=
  let digits := Nat.toDigits 10 d.digits
  let lead := d.exponent + digits.length - 1
  if style.positional lead then
    if 0 ≤ d.exponent then
      String.ofList (digits ++ List.replicate d.exponent.toNat '0') ++
        (if style.keepsPoint then ".0" else "")
    else if 0 ≤ lead then
      String.ofList (digits.take (lead.toNat + 1)) ++ "." ++
        String.ofList (digits.drop (lead.toNat + 1))
    else
      "0." ++ String.ofList (List.replicate (-lead - 1).toNat '0' ++ digits)
  else
    String.ofList (digits.take 1) ++
      (if digits.length = 1 then "" else "." ++ String.ofList (digits.drop 1)) ++
      (if 0 ≤ lead then "e+" ++ toString lead.natAbs else "e-" ++ toString lead.natAbs)

def writeFinite {f : FloatFormat} (style : NumberStyle) (x : Finite f) : String :=
  (if x.negative then "-" else "") ++
    if x.isZero then (if style.keepsPoint then "0.0" else "0")
    else style.write (x.shortest style.tie)

/-- Every digit is written out, and a whole number has no point. -/
def plain : NumberStyle where
  tie := .upward
  positional _ := true
  keepsPoint := false

end NumberStyle

/-- The plain text of a number: `30`, `0.5`, `-0`, `inf`, `NaN`. -/
def Binary.text {f : FloatFormat} : Binary f → String
  | nan => "NaN"
  | infinite negative => if negative then "-inf" else "inf"
  | finite x => NumberStyle.plain.writeFinite x

end ViewMarkup
