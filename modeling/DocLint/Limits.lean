import DocLint.Number.Notation
import DocLint.Text.Digit

/-!
# Limits of a Host

A host turns whole numbers into decimal texts and back only up to some count of digits, and its calls nest
only so deep. A reader or a writer that meets such a limit stops without an answer. Which limits a host sets
is its own affair, so whatever depends on them takes them as an argument; `Limits.standard` are the usual
ones.
-/

namespace DocLint

/-- What a host allows one run. How deep calls may nest depends on how deep the caller is itself. -/
structure Limits where
  /-- The greatest count of digits of a whole number that is read from decimal digits or written in
  them. -/
  digits : Nat
  /-- The greatest number of calls inside of one another while a value is read. -/
  readingCalls : Nat
  /-- The greatest number of lists and tables inside of one another while a value is written. -/
  writingLevels : Nat
  /-- Numbers of one digit are always read and written. -/
  digits_pos : 0 < digits
  deriving DecidableEq, Repr

/-- The limits of a host that sets none of its own, for a caller with few calls around it. -/
def Limits.standard : Limits := ⟨4300, 990, 990, by decide⟩

instance : Inhabited Limits := ⟨.standard⟩

/-- Why a run stops without an answer. -/
inductive Stop where
  /-- A whole number has more digits than the host reads or writes. -/
  | tooManyDigits
  /-- Calls nest deeper than the host allows. -/
  | tooDeep
  /-- A value has no form in the format that is written. -/
  | noForm
  deriving DecidableEq, Repr, Inhabited

namespace Limits

/-- The number that a run of decimal digits stands for. All digits count towards the limit, also
zeros at the front. -/
def readDigits (limits : Limits) (digits : List Char) : Except Stop Nat :=
  if digits.length ≤ limits.digits then .ok (Text.digitsValue digits) else .error .tooManyDigits

/-- Whether the host writes a whole number. Its sign does not count towards the limit. -/
def allowsInteger (limits : Limits) (i : Int) : Bool :=
  (Number.naturalDigits i.natAbs).length ≤ limits.digits

/-- The written form of a whole number. -/
def writeInteger (limits : Limits) (i : Int) : Except Stop String :=
  if limits.allowsInteger i then .ok (integerText i) else .error .tooManyDigits

end Limits

end DocLint
