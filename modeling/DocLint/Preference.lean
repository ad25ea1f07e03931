import DocLint.Value

/-!
# Preferences for Tag Names

A configuration may say of a tag name that it is not to be used, or which name is to be used instead, with
a message of its own if it likes. The value that says so is bare or an object.
-/

namespace DocLint

/-- What a configuration says of a tag name. -/
inductive Preference where
  /-- The tag is not to be used. -/
  | block (message : Option String)
  /-- Another name is to be used. -/
  | rename (target : String) (message : Option String)
  deriving DecidableEq, Repr, Inhabited

namespace Preference

/-- The message of an object: the text under `message`, unless it is empty. -/
def messageOf (entries : Dict Value) : Option String :=
  match Dict.get? entries "message" with
  | some (.text s) => if s = "" then none else some s
  | _ => none

/-- The preference of an object: its `replacement` is the name to use; a void or missing one blocks
the tag, and any other value that is no text is malformed. -/
def ofEntries? (entries : Dict Value) : Option Preference :=
  -- A message is kept also where the object blocks the tag.
  let message := messageOf entries
  match Dict.get? entries "replacement" with
  | none => some (.block message)
  | some replacement =>
    if replacement.isVoid then some (.block message)
    else
      match replacement with
      | .text target => some (.rename target message)
      | _ => none

/-- The preference that a value stands for, or nothing if it is malformed. A text is the name to
use; null, false, zero and the empty text block the tag. An empty table is an object without a
replacement and blocks the tag too, while an empty list is malformed like any other list. -/
def ofValue? : Value → Option Preference
  | .text s => some (if s = "" then .block none else .rename s none)
  | .table entries => ofEntries? entries
  -- From here on only void values mean anything.
  | .null => some (.block none)
  | .bool b => if b then none else some (.block none)
  | .int i => if i = 0 then some (.block none) else none
  | .float x => if x.isZero then some (.block none) else none
  | .moment _ => none
  -- Even an empty list is malformed when it stands by itself.
  | .list _ => none

/-- The name that a preference steers to, if any. -/
def target? : Preference → Option String
  | .block _ => none
  | .rename target _ => some target

end Preference

end DocLint
