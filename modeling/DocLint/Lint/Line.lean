import DocLint.Lint.Entry
import DocLint.Text.Blank
import DocLint.Text.Digit

/-!
# Reading Lint Lines

A lint line names a path, a line and a column, each before a colon, and then a code and a message. The
path may hold colons itself: the shortest path that leaves a well-formed rest is taken. The numbers may be
written in the digits of any script, and white space around the line and after the last colon is no part
of it. A line is taken apart first and its numbers are worked out last, so only a line that is well formed
otherwise is stopped by a number that is too long for the host.
-/

namespace DocLint.Lint

/-- A run of digits before a colon, and what follows the colon. -/
def readNumber? (cs : List Char) : Option (List Char × List Char) :=
  let digits := cs.takeWhile Text.isDigit
  match cs.dropWhile Text.isDigit with
  | ':' :: rest => if digits.isEmpty then none else some (digits, rest)
  | _ => none

/-- The digits of the line and the column after the colon that ends a path, and the text after them
without the white space that it starts with. That text has to stand on one line. -/
def readPlace? : List Char → Option ((List Char × List Char) × List Char)
  | ':' :: rest => do
    let (line, rest) ← readNumber? rest
    let (column, rest) ← readNumber? rest
    -- The text was trimmed as a whole, so only blanks at the front are left to take off.
    let content := Text.trimStart rest
    if content.contains '\n' then none else some ((line, column), content)
  | _ => none

/-- The shortest path with a place after it, the place, and the text after that. A path is not empty
and stands on one line. -/
def splitPlace? : List Char → Option (List Char × (List Char × List Char) × List Char)
  | [] => none
  | c :: rest =>
    if c = '\n' then none
    else
      -- The path may end here; if no place follows, it is longer.
      match readPlace? rest with
      | some (place, content) => some ([c], place, content)
      | none => (splitPlace? rest).map fun (path, found) => (c :: path, found)

/-- The code before the first blank of a text, and the message after that blank. -/
def splitCode (content : List Char) : List Char × List Char :=
  (content.takeWhile (· != ' '), (content.dropWhile (· != ' ')).drop 1)

/-- The finding that a line states, if it is a lint line. -/
def readFinding (limits : Limits) (line : String) : Except Stop (Option Finding) :=
  match splitPlace? (Text.trim line.toList) with
  | none => .ok none
  | some (path, place, content) =>
    -- A path and a place with nothing to say about them are no lint line, however long the numbers
    -- are.
    if content.isEmpty then .ok none
    else do
      let line ← limits.readDigits place.1
      let column ← limits.readDigits place.2
      let (code, message) := splitCode content
      return some {
        path := String.ofList path, line := line, column := column, code := String.ofList code
        message := String.ofList message }

end DocLint.Lint
