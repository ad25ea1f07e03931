/-!
# Binary Numbers of 64 Bits

A finite number is a sign, a significand below 2^53 and a power of two from 2^-1074 to 2^971; the
significand is at least 2^52 except at the least power, so every number has one form. Decimal numbers are
rounded to the nearest such number in exact arithmetic, a half going to the even significand.
-/

namespace DocLint

/-- A number in the 64-bit binary format: `finite negative m e` is plus or minus `m * 2 ^ e`. -/
inductive Binary64 where
  | finite (negative : Bool) (significand : Nat) (exponent : Int)
  | infinite (negative : Bool)
  | nan
  deriving DecidableEq, Repr, Inhabited

namespace Binary64

/-- The least power of two. -/
def minExponent : Int := -1074

/-- The greatest power of two. -/
def maxExponent : Int := 971

/-- The least significand of 53 bits. -/
def leastFullSignificand : Nat := Nat.pow 2 52

/-- The bound below which all significands are. -/
def significandEnd : Nat := Nat.pow 2 53

/-- Zero, which keeps its sign. -/
def zero (negative : Bool) : Binary64 := .finite negative 0 minExponent

/-- Whether a number is zero, of either sign. -/
def isZero : Binary64 → Bool
  | .finite _ significand _ => significand == 0
  | _ => false

/-- The whole number that a number is, if it is one. -/
def whole? : Binary64 → Option Int
  | .finite negative m e =>
    -- Of the two powers of two one is a true power and the other is one.
    let unit := Nat.pow 2 (-e).toNat
    let size : Int := m / unit * Nat.pow 2 e.toNat
    if m % unit = 0 then some (if negative then -size else size) else none
  | _ => none

/-- The whole number nearest to a quotient, a half going to the even one. -/
def nearestEven (num den : Nat) : Nat :=
  let quotient := num / den
  let twice := 2 * (num % den)
  if twice < den then quotient
  else if den < twice then quotient + 1
  -- Half way between two, the even one is taken.
  else quotient + quotient % 2

/-- The quotient `num / den / 2 ^ e`, as a numerator and a denominator. -/
def inUnits (num den : Nat) (e : Int) : Nat × Nat :=
  (num * Nat.pow 2 (-e).toNat, den * Nat.pow 2 e.toNat)

/-- The power of two in whose units a positive quotient has a whole part of 53 bits, or the least
power if the quotient is smaller. -/
def unitExponent (num den : Nat) : Int :=
  -- The logarithms are rounded down, so the guess is right or one too small.
  let guess : Int := (Nat.log2 num : Int) - (Nat.log2 den : Int) - 53
  let scaled := inUnits num den guess
  max minExponent (if scaled.1 / scaled.2 < significandEnd then guess else guess + 1)

/-- The number nearest to plus or minus `num / den`, a half going to the even significand. -/
def ofRatio (negative : Bool) (num den : Nat) : Binary64 :=
  if num = 0 then zero negative
  else
    let e := unitExponent num den
    let scaled := inUnits num den e
    let m := nearestEven scaled.1 scaled.2
    -- Rounding up may give the next power of two, whose significand starts over.
    let carried := m = significandEnd
    let e := if carried then e + 1 else e
    if maxExponent < e then .infinite negative
    else .finite negative (if carried then leastFullSignificand else m) e

/-- The number nearest to plus or minus `coefficient * 10 ^ exponent`. Decimals of a size beyond
10^400 or below 10^-400 are infinite or zero, without the power of ten being worked out. -/
def ofDecimal (negative : Bool) (coefficient : Nat) (exponent : Int) : Binary64 :=
  let size : Int := ((Nat.toDigits 10 coefficient).length : Int) + exponent
  -- Far outside the range the result is known without computing the power.
  if coefficient = 0 || size < -400 then zero negative
  else if 400 < size then .infinite negative
  else ofRatio negative (coefficient * Nat.pow 10 exponent.toNat)
    (Nat.pow 10 (-exponent).toNat)

end Binary64

end DocLint
