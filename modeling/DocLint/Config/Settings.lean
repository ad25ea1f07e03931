import DocLint.Config.Options
import DocLint.Vocabulary

/-!
# Settings

The settings that a host shares between its rules, as far as tag names are concerned. Unknown keys belong
to other rules and are passed over; a field given under its second spelling counts only if the first is
not there.
-/

namespace DocLint

/-- The settings of a host. -/
structure Settings where
  /-- The tool that the documentation is written for. -/
  mode : Mode := Mode.standard
  /-- What is preferred to certain tag names, not yet read. -/
  tagNamePreference : Dict Value := []
  /-- The tags whose structure is checked elsewhere. -/
  structuredTags : Dict Value := []
  deriving Inhabited

namespace Settings

/-- The only spelling of the field for the mode. -/
def modeSpellings : List String := ["mode"]

/-- The spellings of the field for preferences, the one that wins first. -/
def preferenceSpellings : List String := ["tagNamePreference", "tag_name_preference"]

/-- The spellings of the field for structured tags, the one that wins first. -/
def structuredTagsSpellings : List String := ["structuredTags", "structured_tags"]

/-- The mode that a value names, if it names one. -/
def modeOf? : Value → Option Mode
  | .text s => Mode.ofName? s
  | _ => none

/-- The complaint about a mode that is not known. -/
def modeComplaints (entries : Dict Value) : List Complaint :=
  match findField entries modeSpellings with
  | none => []
  | some (key, value) => if (modeOf? value).isSome then [] else [⟨key, none, .unknownMode⟩]

/-- The complaint about a field that has to be a table. What the table holds is not looked at: raw
preferences are read later, one by one. -/
def tableComplaints (entries : Dict Value) (spellings : List String) : List Complaint :=
  match findField entries spellings with
  | some (key, value) =>
    match value with
    | .table _ => []
    | _ => [⟨key, none, .notATable⟩]
  | none => []

/-- All complaints about settings. None is about a key, since a key that is not known here is known
elsewhere. -/
def complaints (entries : Dict Value) : List Complaint :=
  modeComplaints entries ++ tableComplaints entries preferenceSpellings ++
    tableComplaints entries structuredTagsSpellings

/-- The mode, in settings without a fault. -/
def readMode (entries : Dict Value) : Mode :=
  match findField entries modeSpellings with
  | some (_, value) => (modeOf? value).getD Mode.standard
  | none => Mode.standard

/-- A field that is a table, in settings without a fault. -/
def readTable (entries : Dict Value) (spellings : List String) : Dict Value :=
  match findField entries spellings with
  | some (_, value) => value.entriesOrEmpty
  | none => []

/-- The settings that a configuration gives, or its rejection. -/
def ofEntries (entries : Dict Value) : Except Rejection Settings :=
  match complaints entries with
  | [] => .ok ⟨readMode entries, readTable entries preferenceSpellings,
      readTable entries structuredTagsSpellings⟩
  | found => .error ⟨.settings, found⟩

end Settings

end DocLint
