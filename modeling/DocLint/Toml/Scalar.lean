import DocLint.Limits
import DocLint.Toml.Lexeme

/-!
# Numbers, Dates and Times of TOML

Whole numbers in base ten, or in base two, eight or sixteen after a marker; numbers with a fraction or an
exponent; infinities; dates and times. A low line may stand between two digits. A reader takes the longest
form that starts at the text and leaves it to its caller to refuse what follows. How a number is written is
read first, and its value found after that: a whole number in base ten may be well written and still have more
digits than the host turns into a number.
-/

namespace DocLint.Toml

/-! ## Digits -/

/-- Whether a character is a digit of base ten; only those of ASCII are. -/
def isDecimalDigit (c : Char) : Bool := '0' ≤ c && c ≤ '9'

/-- The number that hexadecimal digits stand for in a base. -/
def digitsIn (base : Nat) (digits : List Char) : Nat :=
  digits.foldl (fun n c => base * n + (hexValue? c).getD 0) 0

/-- The further digits of a number, each after a low line or directly. -/
def readMoreDigits (isDigit : Char → Bool) : List Char → List Char × List Char
  -- A low line without a digit behind it is not part of the number, and is left.
  | '_' :: c :: rest =>
    if isDigit c then
      let (digits, rest) := readMoreDigits isDigit rest
      (c :: digits, rest)
    else ([], '_' :: c :: rest)
  | c :: rest =>
    if isDigit c then
      let (digits, rest) := readMoreDigits isDigit rest
      (c :: digits, rest)
    else ([], c :: rest)
  | [] => ([], [])

/-- The digits of a number, at least one. -/
def readDigits (isDigit : Char → Bool) : List Char → Option (List Char × List Char)
  | c :: rest =>
    if isDigit c then
      let (digits, rest) := readMoreDigits isDigit rest
      some (c :: digits, rest)
    else none
  | [] => none

/-! ## Numbers -/

/-- A sign, if there is one: whether it is a minus. -/
def readSign : List Char → Bool × List Char
  | '-' :: rest => (true, rest)
  | '+' :: rest => (false, rest)
  | cs => (false, cs)

/-- The base that a marker stands for. -/
def baseOf? : Char → Option Nat
  | 'x' => some 16
  | 'o' => some 8
  | 'b' => some 2
  | _ => none

/-- A whole number in base two, eight or sixteen after its marker. It may have any number of
digits. -/
def readBased? : List Char → Option (Value × List Char)
  | '0' :: marker :: rest => do
    let base ← baseOf? marker
    let (digits, rest) ← readDigits (fun c => (hexValue? c).any (· < base)) rest
    return (.int (digitsIn base digits), rest)
  | _ => none

/-- The digits before the point: zero alone, or digits of which the first is not zero. -/
def readWhole? : List Char → Option (List Char × List Char)
  | '0' :: rest => some (['0'], rest)
  | cs => readDigits isDecimalDigit cs

/-- The digits after a point, none if there is no fraction. A point without digits behind it is
left, and then spoils the line. -/
def readFraction : List Char → List Char × List Char
  | '.' :: rest => (readDigits isDecimalDigit rest).getD ([], '.' :: rest)
  | cs => ([], cs)

/-- The power of ten of a number, if it has one. -/
def readExponent : List Char → Option Int × List Char
  | mark :: rest =>
    if mark = 'e' ∨ mark = 'E' then
      let (negative, unsigned) := readSign rest
      match readDigits isDecimalDigit unsigned with
      | some (digits, after) =>
        let size : Int := digitsIn 10 digits
        (some (if negative then -size else size), after)
      -- The sign is given back with the letter.
      | none => (none, mark :: rest)
    else (none, mark :: rest)
  | [] => (none, [])

/-- A number in base ten as it is written, its low lines left out. -/
structure Numeral where
  /-- Whether its sign is a minus. -/
  negative : Bool
  /-- The digits before the point. -/
  whole : List Char
  /-- The digits after the point, none if there is no point. -/
  fraction : List Char
  /-- The power of ten, if one is given. -/
  exponent : Option Int
  deriving DecidableEq, Repr, Inhabited

/-- The value of a number in base ten: a whole number, or one with a fraction or an exponent. The
host limits the digits of the former only. -/
def Numeral.value (limits : Limits) (numeral : Numeral) : Except Stop Value :=
  if numeral.fraction.isEmpty ∧ numeral.exponent.isNone then do
    let size ← limits.readDigits numeral.whole
    return .int (if numeral.negative then -size else size)
  else
    -- The point is left out of the digits, so each digit behind it takes one from the power of ten.
    let scale : Int := numeral.exponent.getD 0 - numeral.fraction.length
    return .float (.ofDecimal numeral.negative (digitsIn 10 (numeral.whole ++ numeral.fraction)) scale)

/-- The longest number in base ten that starts the text. -/
def readDecimal? (cs : List Char) : Option (Numeral × List Char) := do
  let (negative, unsigned) := readSign cs
  let (whole, rest) ← readWhole? unsigned
  let (fraction, rest) := readFraction rest
  let (exponent, rest) := readExponent rest
  return (⟨negative, whole, fraction, exponent⟩, rest)

/-- Infinity, or the value that is no number, after a sign or without. -/
def readNonFinite? (cs : List Char) : Option (Value × List Char) :=
  let (negative, unsigned) := readSign cs
  match unsigned with
  | 'i' :: 'n' :: 'f' :: rest => some (.float (.infinite negative), rest)
  | 'n' :: 'a' :: 'n' :: rest => some (.float .nan, rest)
  | _ => none

/-! ## Dates and Times -/

/-- A number of exactly so many digits. -/
def readFixed? (width : Nat) (cs : List Char) : Option (Nat × List Char) :=
  let digits := (cs.take width).takeWhile isDecimalDigit
  if digits.length = width then some (digitsIn 10 digits, cs.drop width) else none

/-- The text after a mark, if the mark stands here. -/
def readMark? (mark : Char) : List Char → Option (List Char)
  | c :: rest => if c = mark then some rest else none
  | [] => none

/-- A day as four, two and two digits with hyphens between them, be it in the calendar or not. -/
def readDate? (cs : List Char) : Option (Date × List Char) := do
  let (year, rest) ← readFixed? 4 cs
  let (month, rest) ← readFixed? 2 (← readMark? '-' rest)
  let (day, rest) ← readFixed? 2 (← readMark? '-' rest)
  return (⟨year, month, day⟩, rest)

/-- An hour and a minute of the day. -/
def readHourMinute? (cs : List Char) : Option ((Nat × Nat) × List Char) := do
  let (hour, rest) ← readFixed? 2 cs
  let (minute, rest) ← readFixed? 2 (← readMark? ':' rest)
  if hour < 24 ∧ minute < 60 then return ((hour, minute), rest) else none

/-- The microseconds of a fraction of a second, further digits being cut off; zero if there is
none. -/
def readMicroseconds (cs : List Char) : Nat × List Char :=
  match cs with
  | '.' :: rest =>
    let digits := rest.takeWhile isDecimalDigit
    -- A point without digits is left for the reader of the line to find.
    if digits.isEmpty then (0, cs)
    else
      let kept := digits.take 6
      (digitsIn 10 kept * Nat.pow 10 (6 - kept.length), rest.dropWhile isDecimalDigit)
  | _ => (0, cs)

/-- A time of day, with a fraction of a second or without. -/
def readTime? (cs : List Char) : Option (TimeOfDay × List Char) := do
  let ((hour, minute), rest) ← readHourMinute? cs
  let (second, rest) ← readFixed? 2 (← readMark? ':' rest)
  let (microsecond, rest) := readMicroseconds rest
  if second < 60 then return (⟨hour, minute, second, microsecond⟩, rest) else none

/-- An offset from universal time in minutes, if there is one. -/
def readOffset (cs : List Char) : Option Int × List Char :=
  match cs with
  | mark :: rest =>
    if mark = 'Z' ∨ mark = 'z' then (some 0, rest)
    else if mark = '+' ∨ mark = '-' then
      match readHourMinute? rest with
      | some ((hour, minute), after) =>
        let size : Int := hour * 60 + minute
        (some (if mark = '-' then -size else size), after)
      | none => (none, cs)
    else (none, cs)
  | [] => (none, cs)

/-- A date, a time, or a date with a time after a `T` or a blank. -/
def readMoment? (cs : List Char) : Option (Moment × List Char) :=
  match readDate? cs with
  | none => (readTime? cs).map fun (time, rest) => (.time time, rest)
  | some (date, rest) =>
    match rest with
    | mark :: after =>
      -- A blank may also end the value, so what comes behind it has to be a time to count.
      if mark = 'T' ∨ mark = 't' ∨ mark = ' ' then
        match readTime? after with
        | some (time, after) =>
          let (offset, after) := readOffset after
          some (.dateTime date time offset, after)
        | none => some (.date date, rest)
      else some (.date date, rest)
    | [] => some (.date date, rest)

/-- Whether the day of a moment is one of the calendar; a time of day alone has none. -/
def isInCalendar : Moment → Bool
  | .date day => day.isValid
  | .time _ => true
  | .dateTime day _ _ => day.isValid

/-! ## Scalars -/

/-- Why a reader gives nothing: the text is malformed, or the host stops. -/
inductive Failure where
  /-- The text breaks the rules of the format. -/
  | malformed
  /-- Whether the text is malformed is not found out. -/
  | stopped (stop : Stop)
  deriving DecidableEq, Repr, Inhabited

/-- What a reader gives that only malformed text can fail. -/
def orMalformed {α : Type} : Option α → Except Failure α
  | some found => .ok found
  | none => .error .malformed

/-- A date or time if one starts here, and else a number. -/
def readScalar (limits : Limits) (cs : List Char) : Except Failure (Value × List Char) :=
  match readMoment? cs with
  | some (m, rest) => if isInCalendar m then .ok (.moment m, rest) else .error .malformed
  | none =>
    -- After a zero a marker may follow, so the other bases go before base ten.
    match readBased? cs with
    | some found => .ok found
    | none =>
      match readDecimal? cs with
      | some (numeral, rest) => do
        -- The host stops at the number itself, before it sees what comes behind.
        let value ← (numeral.value limits).mapError .stopped
        return (value, rest)
      | none => orMalformed (readNonFinite? cs)

end DocLint.Toml
