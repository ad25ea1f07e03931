import DocLint.Dict
import DocLint.Moment

/-!
# Configuration Values

The values that a configuration file or a host hands over: one type for all of them, since a
configuration may hold any value under any key until it has been checked.
-/

namespace DocLint

/-- A value of a configuration. -/
inductive Value where
  | null
  | bool (b : Bool)
  /-- Of any size, as the format that it was read from has no bound. -/
  | int (i : Int)
  | float (x : Binary64)
  | text (s : String)
  /-- A date or a time. Only configuration files have them. -/
  | moment (m : Moment)
  | list (items : List Value)
  /-- The entries are in the order in which they were given. -/
  | table (entries : List (String × Value))
  deriving Repr, Inhabited

namespace Value

/-- Whether a value stands for nothing: null, false, a zero of either kind, or an empty text, list
or table. -/
def isVoid : Value → Bool
  | .null => true
  | .bool b => !b
  | .int i => i == 0
  | .float x => x.isZero
  | .text s => s == ""
  -- Even midnight is something.
  | .moment _ => false
  | .list items => items.isEmpty
  | .table entries => entries.isEmpty

/-- The entries of a table; anything else has none. -/
def entriesOrEmpty : Value → Dict Value
  | .table entries => entries
  | _ => []

/-- The text that a value is, if it is one. -/
def text? : Value → Option String
  | .text s => some s
  | _ => none

end Value

end DocLint
