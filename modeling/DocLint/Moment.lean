import DocLint.Number.Notation

/-!
# Dates and Times

Calendar dates, times of day and the two together, with an offset from universal time or without, and
their written form. A fraction of a second is kept to the microsecond.
-/

namespace DocLint

/-- A day of the calendar. -/
structure Date where
  year : Nat
  month : Nat
  day : Nat
  deriving DecidableEq, Repr, Inhabited

/-- A time of day, to the microsecond. -/
structure TimeOfDay where
  hour : Nat
  minute : Nat
  second : Nat
  microsecond : Nat
  deriving DecidableEq, Repr, Inhabited

/-- A day, a time of day, or both; with both, the minutes by which local time is ahead of universal
time may be known. -/
inductive Moment where
  | date (day : Date)
  | time (clock : TimeOfDay)
  | dateTime (day : Date) (clock : TimeOfDay) (offset : Option Int)
  deriving DecidableEq, Repr, Inhabited

namespace Date

/-- Whether February has 29 days. -/
def isLeapYear (year : Nat) : Bool := (year % 4 == 0 && year % 100 != 0) || year % 400 == 0

/-- The number of days of a month. -/
def daysIn (year month : Nat) : Nat :=
  -- The months of 30 days are April, June, September and November.
  if month = 2 then (if isLeapYear year then 29 else 28)
  else if month ∈ [4, 6, 9, 11] then 30
  else 31

/-- Whether the calendar has the day; its first year is 1. -/
def isValid (d : Date) : Bool :=
  1 ≤ d.year && 1 ≤ d.month && d.month ≤ 12 && 1 ≤ d.day && d.day ≤ daysIn d.year d.month

/-- Year, month and day in four, two and two digits. -/
def chars (d : Date) : List Char :=
  Number.padded 4 d.year ++ '-' :: Number.padded 2 d.month ++ '-' :: Number.padded 2 d.day

end Date

namespace TimeOfDay

/-- Hour, minute and second in two digits each, and the fraction in six digits unless it is zero. -/
def chars (t : TimeOfDay) : List Char :=
  Number.padded 2 t.hour ++ ':' :: Number.padded 2 t.minute ++ ':' :: Number.padded 2 t.second ++
    (if t.microsecond = 0 then [] else '.' :: Number.padded 6 t.microsecond)

end TimeOfDay

namespace Moment

/-- An offset from universal time: its sign, hours and minutes. An offset of zero has a plus
sign. -/
def offsetChars (minutes : Int) : List Char :=
  (if minutes < 0 then '-' else '+') ::
    Number.padded 2 (minutes.natAbs / 60) ++ ':' :: Number.padded 2 (minutes.natAbs % 60)

/-- The written form: the day, the time after a `T`, and the offset if it is known. -/
def chars : Moment → List Char
  | .date day => day.chars
  | .time clock => clock.chars
  | .dateTime day clock offset => day.chars ++ 'T' :: clock.chars ++ offset.elim [] offsetChars

/-- The written form as a text. -/
def text (m : Moment) : String := String.ofList m.chars

end Moment

end DocLint
