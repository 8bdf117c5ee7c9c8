/-
# Numbers of JSON

A number is a whole number, when it is written as one and fits 64 bits, and a
double otherwise. The digits of a double are taken up as long as they fit 64
bits, rounded to a double, and then scaled by a power of ten, with a rounding
at each step; a magnitude beyond the greatest double is no number at all.

A double is written with a point or an exponent, so that it reads back as one.

Key definitions: `Json.Number`, `Json.Numeral.number?`, `Json.Number.text`.
-/
import ViewMarkup.Numeric.Reading

namespace ViewMarkup.Json

-- Powers are the core library's, whatever else is in scope.
attribute [local instance (high)] instPowNat

inductive Number
  | integer (n : Int)
  | float (x : FiniteDouble)
  deriving DecidableEq

namespace Number

/-- The shortest decimal, of two equally near ones the even, written out while
its leading exponent is between -5 and 15, and always with a point or an
exponent. -/
def style : NumberStyle where
  tie := .toEven
  positional lead := -5 ≤ lead && lead ≤ 15
  keepsPoint := true

def text : Number → String
  | integer n => toString n
  | float x => style.writeFinite x

/-- The nearest double. -/
def toDouble : Number → Double
  | integer n => .ofInt .double n
  | float x => .finite x

/-- The number as a whole number of 64 bits with sign. A double is none, whatever
its value. -/
def toInteger? : Number → Option Int
  | integer n => if fitsInt64 n then some n else none
  | float _ => none

end Number

/-- A number as it is written: sign, digits before and after the point, and the
exponent with its sign. -/
structure Numeral where
  negative : Bool
  whole : List Char
  fraction : Option (List Char)
  exponent : Option (Bool × List Char)

namespace Numeral

def wordLimit : Nat := 2 ^ (64 : Nat)

/-- Takes up digits while the value stays below the limit: the value, how many
digits were taken, how many were not. -/
def takeUp (value : Nat) : List Char → Nat × Nat × Nat
  | [] => (value, 0, 0)
  | c :: cs =>
    let next := value * 10 + digitsValue [c]
    if next < wordLimit then
      let (v, taken, left) := takeUp next cs
      (v, taken + 1, left)
    else (value, 0, (c :: cs).length)

/-- The greatest power of ten by which a double is scaled in one step. -/
def scaleStep : Nat := 308

/-- How often a value of 64 bits can be scaled down by the greatest step and
stay above zero. -/
def scaleSteps : Nat := 3

def finite? : Double → Option FiniteDouble
  | .finite x => some x
  | _ => none

/-- A power of ten as a double. -/
def powerOfTen (n : Nat) : Double := .ofNat .double (10 ^ n)

def timesPower (x : FiniteDouble) (n : Nat) : Option FiniteDouble := do
  finite? (x.mul (← finite? (powerOfTen n)))

def overPower (x : FiniteDouble) (n : Nat) : Option FiniteDouble := do
  finite? (x.div (← finite? (powerOfTen n)))

/-- A double times a power of ten, rounded at each step; none beyond the
greatest double. -/
def scale : Nat → FiniteDouble → Int → Option FiniteDouble
  | steps, x, exponent =>
    if 0 ≤ exponent then
      if exponent ≤ scaleStep then timesPower x exponent.toNat
      else if x.isZero then some x
      else none
    else if exponent.natAbs ≤ scaleStep then overPower x exponent.natAbs
    else match steps with
      | 0 => some x
      | steps + 1 => do scale steps (← overPower x scaleStep) (exponent + scaleStep)

/-- The number written, or none if it is too large. -/
def number? (n : Numeral) : Option Number :=
  let (value, _, dropped) := takeUp 0 n.whole
  if n.fraction.isNone && n.exponent.isNone && dropped = 0 &&
      (!n.negative || (value ≠ 0 && value ≤ 2 ^ (63 : Nat))) then
    some (.integer (if n.negative then -(value : Int) else value))
  else
    let (value, taken, _) := takeUp value (n.fraction.getD [])
    let written : Int :=
      match n.exponent with
      | none => 0
      | some (negative, digits) =>
        if negative then -(digitsValue digits : Int) else digitsValue digits
    let exponent : Int := (dropped : Int) - taken + written
    match Binary.ofQuotient .double n.negative value 1 with
    | .finite x => if x.isZero then some (.float x) else (scale scaleSteps x exponent).map .float
    | _ => none

end Numeral

end ViewMarkup.Json
