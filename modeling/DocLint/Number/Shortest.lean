import DocLint.Number.Binary64

/-!
# The Shortest Decimal of a Binary Number

Among the decimals that round to a given binary number, the one with the fewest digits is written, and of
several the nearest. The search goes through the decimal grids from coarse to fine. On each grid only the
two neighbours of the number can round to it if any point does, and the first grid with such a point has
the fewest digits.
-/

namespace DocLint

/-- The decimal `coefficient * 10 ^ exponent`. -/
structure Decimal where
  coefficient : Nat
  exponent : Int
  deriving DecidableEq, Repr, Inhabited

namespace Binary64

/-- The decimal `c * 10 ^ k` and the binary number `w * 2 ^ j` over one denominator. -/
def overCommon (c : Nat) (k : Int) (w : Nat) (j : Int) : Nat × Nat :=
  (c * Nat.pow 10 k.toNat * Nat.pow 2 (-j).toNat, w * Nat.pow 2 j.toNat * Nat.pow 10 (-k).toNat)

/-- Whether `c * 10 ^ k` rounds to the positive number `m * 2 ^ e`: it lies in the interval that
reaches halfway to both neighbours, the ends included if `m` is even. The lower neighbour is at half
the usual distance if `m` is the least significand of its power. -/
def roundsTo (m : Nat) (e : Int) (c : Nat) (k : Int) : Bool :=
  -- The ends of the interval lie at halves or quarters of the unit, so all is counted in quarters.
  let lower := if m = leastFullSignificand ∧ minExponent < e then 4 * m - 1 else 4 * m - 2
  let atLower := overCommon c k lower (e - 2)
  let atUpper := overCommon c k (4 * m + 2) (e - 2)
  if m % 2 = 0 then atLower.2 ≤ atLower.1 && atUpper.1 ≤ atUpper.2
  else atLower.2 < atLower.1 && atUpper.1 < atUpper.2

/-- The coefficient on the grid of `10 ^ k` that rounds to `m * 2 ^ e`: of the two neighbours the
nearer one if both do. -/
def onGrid? (m : Nat) (e : Int) (k : Int) : Option Nat :=
  let unit := overCommon 1 k m e
  let below := unit.2 / unit.1
  let above := below + 1
  match roundsTo m e below k, roundsTo m e above k with
  -- If both decimals give the number back, the nearer one is taken.
  | true, true =>
    let twice := 2 * unit.2
    let middle := (below + above) * unit.1
    some (if twice < middle then below else if middle < twice then above else below + below % 2)
  | true, false => some below
  | false, true => some above
  | false, false => none

/-- The first point found on the grids of `10 ^ k`, `10 ^ (k - 1)` and so on, a given number of
them. -/
def searchGrids (m : Nat) (e : Int) : Nat → Int → Decimal
  | 0, k => ⟨0, k⟩
  | grids + 1, k =>
    match onGrid? m e k with
    | some c => ⟨c, k⟩
    | none => searchGrids m e grids (k - 1)

/-- The shortest decimal that rounds to the positive number `m * 2 ^ e`. The first grid is coarser
than the number, and 17 digits always tell a number from its neighbours. -/
def shortest (m : Nat) (e : Int) : Decimal :=
  -- The quotient of 30103 by 100000 is the decimal logarithm of two, rounded.
  let size : Int := (Nat.log2 m : Int) + e
  searchGrids m e 24 (Int.fdiv (size * 30103) 100000 + 3)

end Binary64

end DocLint
