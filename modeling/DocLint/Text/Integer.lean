import DocLint.Text.Blank

/-!
# Whole Numbers in Texts

A text from outside may write a whole number with some freedom: with white space around it, a plus sign,
leading zeros, low lines between digits, or a fraction of zeros. `numeral?` brings such a text to its plain
form, a minus sign if any and digits without a leading zero, and `plainInteger?` reads the plain form and
nothing else. A minus sign may stand before the leading zeros or right after them.
-/

namespace DocLint.Text

/-! ## Plain Numerals -/

/-- Whether a character is a digit of the ASCII script, the only one that numerals are read in. -/
def isPlainDigit (c : Char) : Bool := '0' ≤ c && c ≤ '9'

/-- The number that digits of base ten stand for, if they are its plain form: zero alone, or digits
of which the first is not zero. -/
def plainNatural? : List Char → Option Nat
  | [] => none
  -- No other numeral starts with a zero.
  | ['0'] => some 0
  | c :: rest =>
    if c != '0' && (c :: rest).all isPlainDigit then
      some ((c :: rest).foldl (fun n d => 10 * n + (d.toNat - 0x30)) 0)
    else none

/-- The whole number of a plain numeral. -/
def plainInteger? : List Char → Option Int
  | '-' :: digits => (plainNatural? digits).map fun n => -(n : Int)
  | digits => (plainNatural? digits).map fun n => (n : Int)

/-! ## Free Numerals -/

/-- White space around a numeral; the information separators are none here. -/
def isNumeralBlank (c : Char) : Bool := isBlank c && !(0x1C ≤ c.toNat && c.toNat ≤ 0x1F)

/-- Drops the white space at both ends of a numeral. -/
def trimNumeral (cs : List Char) : List Char :=
  ((cs.dropWhile isNumeralBlank).reverse.dropWhile isNumeralBlank).reverse

/-- Takes a sign off: whether it is a minus sign, and what follows. -/
def splitSign : List Char → Bool × List Char
  | '-' :: rest => (true, rest)
  | '+' :: rest => (false, rest)
  | cs => (false, cs)

/-- Takes zeros, and low lines among them, off the text after a zero; the last one stays if neither
a digit nor a minus sign follows. -/
def dropZerosAfter? (last : Char) : List Char → Option (List Char)
  | [] => some [last]
  | c :: rest =>
    if c = '0' ∨ c = '_' then dropZerosAfter? c rest
    -- A minus sign behind the zeros is left for the reader of the plain form.
    else if isPlainDigit c || c = '-' then some (c :: rest)
    else if c = '.' then some (last :: c :: rest)
    else none

/-- Takes leading zeros off a numeral without a sign; it has to start with a digit. -/
def dropLeadingZeros? : List Char → Option (List Char)
  | [] => none
  | c :: rest =>
    if c = '0' then dropZerosAfter? c rest
    else if isPlainDigit c then some (c :: rest)
    else none

/-- Takes a fraction off that holds zeros, at least one, and nothing else. -/
def dropZeroFraction (cs : List Char) : List Char :=
  match cs.dropWhile (· != '.') with
  | _ :: '0' :: zeros => if zeros.all (· == '0') then cs.takeWhile (· != '.') else cs
  | _ => cs

/-- Whether two low lines stand side by side. -/
def hasDoubleLowLine : List Char → Bool
  | [] => false
  | c :: rest => (c == '_' && rest.head? == some '_') || hasDoubleLowLine rest

/-- Takes low lines out if each stands alone and none at an end. -/
def dropLowLines (cs : List Char) : List Char :=
  if cs.head? == some '_' || cs.getLast? == some '_' || hasDoubleLowLine cs then cs
  else cs.filter (· != '_')

/-- The plain form of a numeral, if the text is one; otherwise nothing, or a text that is no plain
numeral. -/
def numeral? (cs : List Char) : Option (List Char) := do
  let (negative, unsigned) := splitSign (trimNumeral cs)
  let digits ← dropLeadingZeros? unsigned
  let plain := dropLowLines (dropZeroFraction digits)
  return if negative then '-' :: plain else plain

/-! ## Long Numerals -/

/-- The greatest count of digits of a numeral that is read. The check of text edits sets it,
whatever the host allows. -/
def digitLimit : Nat := 4300

/-- Whether a text starts, after a minus sign or without one, with more digits than are read, of
which the first is not zero. -/
def startsTooLong (cs : List Char) : Bool :=
  let unsigned := if cs.head? == some '-' then cs.drop 1 else cs
  unsigned.head? != some '0' && digitLimit < (unsigned.takeWhile isPlainDigit).length

end DocLint.Text
