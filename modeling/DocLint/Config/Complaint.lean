import DocLint.Number.Notation

/-!
# Complaints about Configurations

What can be wrong with a configuration, where, and how it is worded. A configuration is rejected with all
complaints at once.
-/

namespace DocLint

/-- What is wrong with a value, or with a key. Not every part of a configuration can have every
problem; the type is one for all, so that all are worded in one place. -/
inductive Problem where
  | notAList
  | notAText
  | notABoolean
  | notATable
  | notAnInteger
  | fractional
  | notFinite
  /-- A text stands there that is not the written form of a whole number. -/
  | unreadableInteger
  /-- A text with too many digits stands there, or a binary number past its bound. -/
  | integerTooLarge
  | unknownMode
  | unknownKey
  | missing
  /-- A place has more parts than a line and a column. How many is part of the complaint. -/
  | tooManyParts (count : Nat)
  deriving DecidableEq, Repr

/-- How a problem is worded. -/
def Problem.text : Problem → String
  | .notAList => "Input should be a valid list"
  | .notAText => "Input should be a valid string"
  | .notABoolean => "Input should be a valid boolean"
  | .notATable => "Input should be a valid dictionary"
  | .notAnInteger => "Input should be a valid integer"
  | .fractional => "Input should be a valid integer, got a number with a fractional part"
  | .notFinite => "Input should be a finite number"
  | .unreadableInteger => "Input should be a valid integer, unable to parse string as an integer"
  | .integerTooLarge => "Unable to parse input string as an integer, exceeded maximum size"
  | .unknownMode => "Input should be 'jsdoc', 'typescript', 'closure' or 'permissive'"
  | .unknownKey => "Extra inputs are not permitted"
  | .missing => "Field required"
  | .tooManyParts count =>
    "Tuple should have at most 2 items after validation, not " ++ integerText count

/-- A problem at a key, or at an item of the list under a key. -/
structure Complaint where
  key : String
  /-- Items are counted from zero. Without a number the complaint is about the whole value. -/
  item : Option Nat
  problem : Problem
  deriving DecidableEq, Repr

namespace Complaint

/-- Where a complaint applies: the key, and the number of the item after a point. -/
def location (complaint : Complaint) : String :=
  match complaint.item with
  | none => complaint.key
  | some index => complaint.key ++ "." ++ integerText index

/-- The wording of a complaint after its location; an empty location stands for the whole. -/
def text (complaint : Complaint) : String :=
  (if complaint.location = "" then "<root>" else complaint.location) ++ ": " ++
    complaint.problem.text

end Complaint

/-- The part of a configuration that is rejected. -/
inductive ConfigPart where
  | options
  | settings
  deriving DecidableEq, Repr

/-- The rejection of a part of a configuration, with the complaints in the order in which they are
listed. -/
structure Rejection where
  part : ConfigPart
  complaints : List Complaint
  deriving DecidableEq, Repr

namespace Rejection

/-- The complaints of a rejection as texts. -/
def errors (rejection : Rejection) : List String := rejection.complaints.map Complaint.text

/-- What is said of a rejection as a whole. -/
def message (rejection : Rejection) : String :=
  (match rejection.part with
    | .options => "Invalid tag-name rule options: "
    | .settings => "Invalid tagcheck settings: ") ++
    "; ".intercalate rejection.errors

end Rejection

end DocLint
