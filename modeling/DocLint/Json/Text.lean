import DocLint.Json.Quoted
import DocLint.Limits
import DocLint.Value

/-!
# Values Written as JSON

A value is written on one line, with a blank after each comma and colon. `Value.sortKeys` orders the keys
of every table by code point, so that two tables that differ only in the order of their keys are written
alike. JSON Lines hold one value a line. `chars` says what the text of a value is; whether a host gets as far
as that is told by `firstStop?`, which goes through the value as it is written.
-/

namespace DocLint

namespace Dict

/-- The entries in the order of their keys by code point. Entries with the same key stay in their
order. -/
def sortByKey {α : Type} (d : Dict α) : Dict α := d.mergeSort fun a b => decide (a.1 ≤ b.1)

end Dict

namespace Value

mutual

/-- Sorts the entries of every table in a value by key. -/
def sortKeys : Value → Value
  | .null => .null
  | .bool b => .bool b
  | .int i => .int i
  | .float x => .float x
  | .text s => .text s
  | .moment m => .moment m
  | .list items => .list (sortKeysOfItems items)
  -- The values are sorted first, which does not touch their keys.
  | .table entries => .table (Dict.sortByKey (sortKeysOfEntries entries))

/-- Sorts the entries of every table in the items of a list. -/
def sortKeysOfItems : List Value → List Value
  | [] => []
  | item :: rest => item.sortKeys :: sortKeysOfItems rest

/-- Sorts the entries of every table in the values of a table's entries. -/
def sortKeysOfEntries : List (String × Value) → List (String × Value)
  | [] => []
  | (key, value) :: rest => (key, value.sortKeys) :: sortKeysOfEntries rest

end

end Value

namespace Json

/-- A binary number in JSON; the numbers that JSON lacks are written by their names. -/
def floatText : Binary64 → String
  | .infinite negative => if negative then "-Infinity" else "Infinity"
  | .nan => "NaN"
  | .finite negative m e => (Binary64.finite negative m e).text

mutual

/-- A value as JSON. Lists and tables put a comma between each two of their parts and none at the
end. -/
def chars : Value → List Char
  | .null => ['n', 'u', 'l', 'l']
  | .bool true => ['t', 'r', 'u', 'e']
  | .bool false => ['f', 'a', 'l', 's', 'e']
  | .int i => Number.integerChars i
  | .float x => (floatText x).toList
  | .text s => quoted s
  | .moment m => quoted m.text
  | .list items => '[' :: (itemsChars items ++ [']'])
  | .table entries => '{' :: (entriesChars entries ++ ['}'])

/-- The items of a list, without the brackets. -/
def itemsChars : List Value → List Char
  | [] => []
  | [item] => chars item
  | item :: next :: rest => chars item ++ ',' :: ' ' :: itemsChars (next :: rest)

/-- The entries of a table, without the braces, in the order given. -/
def entriesChars : List (String × Value) → List Char
  | [] => []
  | [(key, value)] => quoted key ++ ':' :: ' ' :: chars value
  | (key, value) :: next :: rest =>
    quoted key ++ ':' :: ' ' :: chars value ++ ',' :: ' ' :: entriesChars (next :: rest)

end

/-- A value as a JSON text, its keys in their own order. -/
def text (v : Value) : String := String.ofList (chars v)

/-! ## Limits -/

mutual

/-- What stops the writing of a value first, if anything does, with some levels left for lists and
tables. Empty ones take a level too. A moment has no form in JSON. -/
def firstStop? (limits : Limits) : Nat → Value → Option Stop
  | _, .null => none
  | _, .bool _ => none
  | _, .int i => if limits.allowsInteger i then none else some .tooManyDigits
  | _, .float _ => none
  | _, .text _ => none
  | _, .moment _ => some .noForm
  -- A list or a table needs a level of its own, even if it is empty.
  | 0, .list _ => some .tooDeep
  | levels + 1, .list items => firstStopOfItems? limits levels items
  | 0, .table _ => some .tooDeep
  | levels + 1, .table entries => firstStopOfEntries? limits levels entries

/-- What stops the writing of the items of a list first. -/
def firstStopOfItems? (limits : Limits) : Nat → List Value → Option Stop
  | _, [] => none
  | levels, item :: rest =>
    (firstStop? limits levels item).or (firstStopOfItems? limits levels rest)

/-- What stops the writing of the values of a table's entries first. Keys are texts, and these are
never too long. -/
def firstStopOfEntries? (limits : Limits) : Nat → List (String × Value) → Option Stop
  | _, [] => none
  | levels, (_, value) :: rest =>
    (firstStop? limits levels value).or (firstStopOfEntries? limits levels rest)

end

/-! ## Lines -/

/-- A table as it stands on a line: in JSON, with all keys sorted, so that tables which differ in
the order of their keys only stand on the same line. -/
def lineChars (table : Dict Value) : List Char := chars (Value.table table).sortKeys

/-- Writes a table on a line. -/
def writeLine (limits : Limits) (table : Dict Value) : Except Stop (List Char) :=
  -- The keys are sorted on the way, so what stops the host first depends on their order.
  match firstStop? limits limits.writingLevels (Value.table table).sortKeys with
  | some stop => .error stop
  | none => .ok (lineChars table)

/-- Tables as JSON Lines: the lines with line feeds between them and one behind the last, unless
there is nothing on them. A table that cannot be written stops them all. -/
def lines (limits : Limits) (tables : List (Dict Value)) : Except Stop String := do
  let rows ← tables.mapM (writeLine limits)
  let payload := List.intercalate ['\n'] rows
  return String.ofList (if payload.isEmpty then [] else payload ++ ['\n'])

end Json

end DocLint
