/-
# Binary floating point, exactly

Lengths, gaps and priorities are binary floating-point numbers, and what is
written for them depends on their last bit. Here a finite number is a sign and
a rank: its place in the increasing list of the magnitudes the format has.
Every magnitude is a whole number of units, the least positive magnitude
(`FloatFormat.units`), so values and comparisons are exact, and neighbours are
ranks that differ by one. `FloatFormat.nearest` gives the rank of the
magnitude nearest to a quotient, ties to the even rank.

Key definitions: `FloatFormat.units`, `FloatFormat.nearest`, `Binary`,
`Binary.ofQuotient`, `Finite.value`.
-/

namespace ViewMarkup

-- Powers are the core library's, whatever else is in scope.
attribute [local instance (high)] instPowNat

/-- A binary floating format: the width of its fraction and the number of its
binades, the one of the subnormal numbers among them. -/
structure FloatFormat where
  fraction : Nat
  binades : Nat

namespace FloatFormat

/-- 64 bits: 52 of fraction, 11 of exponent. -/
def double : FloatFormat := ⟨52, 2047⟩

/-- 32 bits: 23 of fraction, 8 of exponent. -/
def single : FloatFormat := ⟨23, 255⟩

variable (f : FloatFormat)

/-- The number of finite magnitudes, which is the rank of infinity. -/
def top : Nat := f.binades * 2 ^ f.fraction

/-- The least positive magnitude is `2 ^ -depth`. -/
def depth : Nat := f.binades / 2 + f.fraction - 1

/-- How many units the magnitude of this rank is. -/
def units (rank : Nat) : Nat :=
  if rank < 2 ^ f.fraction then rank
  else (2 ^ f.fraction + rank % 2 ^ f.fraction) * 2 ^ (rank / 2 ^ f.fraction - 1)

end FloatFormat

/-- `a / b` to the nearest whole number, a half to the even neighbour. -/
def roundEven (a b : Nat) : Nat :=
  if 2 * (a % b) < b then a / b
  else if b < 2 * (a % b) then a / b + 1
  else a / b + a / b % 2

/-- `a / b` to the nearest whole number, a half upwards. -/
def roundUp (a b : Nat) : Nat :=
  if 2 * (a % b) < b then a / b else a / b + 1

namespace FloatFormat

/-- The rank of the magnitude nearest to `num / den`, a tie to the even rank.
What would lie beyond the greatest magnitude gets the rank of infinity. -/
def nearest (f : FloatFormat) (num den : Nat) : Nat :=
  let scaled := num * 2 ^ f.depth
  let shift := (scaled / den).log2 - f.fraction
  min f.top (roundEven scaled (den * 2 ^ shift) + shift * 2 ^ f.fraction)

end FloatFormat

/-- A finite number of the format. Zero has two signs. -/
structure Finite (f : FloatFormat) where
  negative : Bool
  rank : Fin f.top
  deriving DecidableEq

/-- A number of the format. -/
inductive Binary (f : FloatFormat)
  | nan
  | infinite (negative : Bool)
  | finite (x : Finite f)
  deriving DecidableEq

abbrev Double := Binary .double
abbrev Single := Binary .single
abbrev FiniteDouble := Finite .double

namespace Finite

variable {f : FloatFormat}

def units (x : Finite f) : Nat := f.units x.rank

/-- The rank with the sign of the number; both zeros give 0. Numbers compare as
their signed ranks do. -/
def signedRank (x : Finite f) : Int :=
  if x.negative then -(x.rank.val : Int) else x.rank.val

/-- The number as a rational. -/
def value (x : Finite f) : Rat :=
  mkRat (if x.negative then -(x.units : Int) else x.units) (2 ^ f.depth)

def isZero (x : Finite f) : Bool := x.rank.val == 0

def neg (x : Finite f) : Finite f := { x with negative := !x.negative }

end Finite

namespace Binary

variable {f : FloatFormat}

/-- The number nearest to `num / den`, with the given sign. -/
def ofQuotient (f : FloatFormat) (negative : Bool) (num den : Nat) : Binary f :=
  if h : f.nearest num den < f.top then .finite ⟨negative, ⟨f.nearest num den, h⟩⟩
  else .infinite negative

def ofNat (f : FloatFormat) (n : Nat) : Binary f := ofQuotient f false n 1

def ofInt (f : FloatFormat) (n : Int) : Binary f := ofQuotient f (n < 0) n.natAbs 1

/-- The number nearest to a rational. -/
def ofRat (f : FloatFormat) (q : Rat) : Binary f := ofQuotient f (q.num < 0) q.num.natAbs q.den

instance (n : Nat) : OfNat (Binary f) n := ⟨ofNat f n⟩

instance : Inhabited (Binary f) := ⟨ofNat f 0⟩

/-- Infinity has the rank after the last finite one; what is not a number has
no rank. -/
def signedRank : Binary f → Option Int
  | nan => none
  | infinite negative => some (if negative then -(f.top : Int) else f.top)
  | finite x => some x.signedRank

/-- Less, in the order in which what is not a number compares with nothing. -/
def lt (x y : Binary f) : Bool :=
  match x.signedRank, y.signedRank with
  | some a, some b => a < b
  | _, _ => false

def le (x y : Binary f) : Bool :=
  match x.signedRank, y.signedRank with
  | some a, some b => a ≤ b
  | _, _ => false

/-- Equal as numbers: both zeros are equal, and what is not a number equals
nothing. -/
def same (x y : Binary f) : Bool :=
  match x.signedRank, y.signedRank with
  | some a, some b => a == b
  | _, _ => false

def neg : Binary f → Binary f
  | nan => nan
  | infinite negative => infinite (!negative)
  | finite x => finite x.neg

def isFinite : Binary f → Bool
  | finite _ => true
  | _ => false

/-- The exact value of a finite number. -/
def value? : Binary f → Option Rat
  | finite x => some x.value
  | _ => none

/-- The nearest number of another format. -/
def convert (g : FloatFormat) : Binary f → Binary g
  | nan => nan
  | infinite negative => infinite negative
  | finite x => ofQuotient g x.negative x.units (2 ^ f.depth)

end Binary

namespace Finite

variable {f : FloatFormat}

/-- The product, rounded to nearest. -/
def mul (x y : Finite f) : Binary f :=
  .ofQuotient f (x.negative != y.negative) (x.units * y.units) (2 ^ f.depth * 2 ^ f.depth)

/-- The quotient by a number that is not zero, rounded to nearest. -/
def div (x y : Finite f) : Binary f :=
  .ofQuotient f (x.negative != y.negative) x.units y.units

/-- The nearest whole number, a half away from zero. -/
def round (x : Finite f) : Binary f :=
  .ofQuotient f x.negative (roundUp x.units (2 ^ f.depth)) 1

end Finite

end ViewMarkup
