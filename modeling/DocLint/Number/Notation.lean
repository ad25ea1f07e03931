import DocLint.Number.Shortest

/-!
# How Numbers Are Written

Whole numbers are written in base ten. A binary number is written by its shortest decimal, with a point
and at least one digit on either side of it, as long as its leading digit stands between 10^-4 and 10^15;
beyond that with an exponent of at least two digits.
-/

namespace DocLint

/-- Where the written form of a binary number passes from a plain decimal to one with an
exponent. -/
structure PlainRange where
  /-- The least power of ten of the leading digit that is written plainly. -/
  least : Int
  /-- The greatest power of ten of the leading digit that is written plainly. -/
  greatest : Int
  /-- The least count of digits of an exponent. -/
  exponentDigits : Nat

namespace Number

/-- Numbers are plain from 10^-4 to below 10^16, and exponents have at least two digits. -/
def plainRange : PlainRange := ⟨-4, 15, 2⟩

/-- The digits of a whole number in base ten. -/
def naturalDigits (n : Nat) : List Char := Nat.toDigits 10 n

/-- Puts zeros before a number's digits up to a width. -/
def padded (width n : Nat) : List Char :=
  let digits := naturalDigits n
  List.replicate (width - digits.length) '0' ++ digits

/-- A whole number in base ten, with a sign if it is negative. -/
def integerChars : Int → List Char
  | .ofNat n => naturalDigits n
  | .negSucc n => '-' :: naturalDigits (n + 1)

/-- The written form of a positive decimal. The power of its leading digit decides between the two
forms. -/
def decimalChars (d : Decimal) : List Char :=
  let digits := naturalDigits d.coefficient
  let power : Int := d.exponent + digits.length - 1
  if plainRange.least ≤ power ∧ power ≤ plainRange.greatest then
    -- Below one the leading digit stands behind the point, zeros before it.
    if power < 0 then
      '0' :: '.' :: (List.replicate (-power - 1).toNat '0' ++ digits)
    else
      let whole := digits.take (power.toNat + 1)
      let fraction := digits.drop (power.toNat + 1)
      let zeros := List.replicate (power.toNat + 1 - whole.length) '0'
      whole ++ zeros ++ '.' :: (if fraction.isEmpty then ['0'] else fraction)
  else
    let fraction := digits.drop 1
    digits.take 1 ++ (if fraction.isEmpty then [] else '.' :: fraction) ++
      'e' :: (if power < 0 then '-' else '+') :: padded plainRange.exponentDigits power.natAbs

/-- The written form of a finite binary number. -/
def finiteChars (negative : Bool) (m : Nat) (e : Int) : List Char :=
  let magnitude := if m = 0 then ['0', '.', '0'] else decimalChars (Binary64.shortest m e)
  if negative then '-' :: magnitude else magnitude

end Number

/-- The written form of a whole number. -/
def integerText (i : Int) : String := String.ofList (Number.integerChars i)

/-- The written form of a binary number. -/
def Binary64.text : Binary64 → String
  | .finite negative m e => String.ofList (Number.finiteChars negative m e)
  | .infinite negative => if negative then "-inf" else "inf"
  | .nan => "nan"

end DocLint
