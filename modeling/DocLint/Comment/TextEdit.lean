import DocLint.Comment.Block
import DocLint.Config.Complaint
import DocLint.Text.Integer
import DocLint.Value

/-!
# Checking Text Edits

A text edit from outside is checked before it is passed on: its texts have to be texts, and each of its
two places a pair of whole numbers. A whole number may also come as a truth value, as a binary number
without a fraction, or as a text.
-/

namespace DocLint

/-! ## Whole Numbers -/

/-- The bound on the whole numbers that a binary number may give: 2^63, itself excluded. Whole
numbers that come as such have no bound. -/
def binaryIntegerEnd : Int := 9223372036854775808

/-- The whole number that a binary number is, or why it is none. -/
def Binary64.toInteger : Binary64 → Except Problem Int
  | .infinite _ => .error .notFinite
  | .nan => .error .notFinite
  | .finite negative m e =>
    match (Binary64.finite negative m e).whole? with
    | none => .error .fractional
    | some i =>
      -- The bound is left out on both sides.
      if -binaryIntegerEnd < i ∧ i < binaryIntegerEnd then .ok i else .error .integerTooLarge

/-- The whole number that a text gives. A text that starts with too many digits is too large
whatever follows them; a numeral that proves too long only in its plain form is not read. -/
def integerOfText (s : String) : Except Problem Int :=
  -- The length is looked at before anything is read, so also a text that is no number can be too
  -- long.
  if Text.startsTooLong s.toList then .error .integerTooLarge
  else
    match Text.numeral? s.toList with
    | none => .error .unreadableInteger
    | some numeral =>
      if Text.startsTooLong numeral then .error .unreadableInteger
      else (Text.plainInteger? numeral).elim (.error .unreadableInteger) .ok

/-- The whole number that a value gives, or what is wrong with the value. -/
def Value.toInteger : Value → Except Problem Int
  | .int i => .ok i
  | .bool b => .ok (if b then 1 else 0)
  | .float x => x.toInteger
  | .text s => integerOfText s
  | _ => .error .notAnInteger

/-! ## Drafts -/

/-- A text edit that has not been checked. Its places are lists of parts, of which there may be any
number. -/
structure TextEditDraft where
  path : Value
  start : List Value
  stop : List Value
  replacement : Value
  deriving Inhabited

namespace TextEditDraft

/-- The complaint about a field that has to be a text. -/
def textComplaints (key : String) : Value → List Complaint
  | .text _ => []
  | _ => [⟨key, none, .notAText⟩]

/-- The complaint about one of the two parts of a place, if the part is there at all. -/
def partComplaints (key : String) (index : Nat) : Option Value → List Complaint
  | none => [⟨key, some index, .missing⟩]
  | some value =>
    match value.toInteger with
    | .ok _ => []
    | .error problem => [⟨key, some index, problem⟩]

/-- The complaints about a place; one with too many parts is not looked into. -/
def placeComplaints (key : String) (parts : List Value) : List Complaint :=
  if 2 < parts.length then [⟨key, none, .tooManyParts parts.length⟩]
  else partComplaints key 0 parts[0]? ++ partComplaints key 1 parts[1]?

/-- All complaints about a draft, in the order of its fields. -/
def complaints (draft : TextEditDraft) : List Complaint :=
  textComplaints "path" draft.path ++ placeComplaints "start" draft.start ++
    placeComplaints "end" draft.stop ++ textComplaints "replacement" draft.replacement

/-- A part of a place in an edit without a fault. -/
def readPart (part : Option Value) : Int :=
  match part.map Value.toInteger with
  | some (.ok i) => i
  | _ => 0

/-- A place in an edit without a fault. -/
def readPlace (parts : List Value) : Position := ⟨readPart parts[0]?, readPart parts[1]?⟩

/-- The edit of a draft, or all complaints about it. -/
def check (draft : TextEditDraft) : Except (List Complaint) TextEdit :=
  match draft.complaints with
  | [] => .ok ⟨draft.path.text?.getD "", readPlace draft.start, readPlace draft.stop,
      draft.replacement.text?.getD ""⟩
  | found => .error found

end TextEditDraft

end DocLint
