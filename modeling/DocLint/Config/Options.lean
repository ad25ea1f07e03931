import DocLint.Config.Complaint
import DocLint.Text.NameList
import DocLint.Value

/-!
# Rule Options

The options of the tag-name rule and how they are taken from a configuration. Every field but `typed` has
two spellings, of which the first wins if both are there; a key from which no field is read is a fault.
All faults are reported together, in the order of the fields, and unknown keys last.
-/

namespace DocLint

/-- The options of the tag-name rule. -/
structure Options where
  /-- Further tag names that are allowed. -/
  definedTags : List String := []
  /-- Whether the tags of the JSX pragmas are exempt from every check. -/
  jsxTags : Bool := false
  /-- Whether the code has a type system, which makes some tags redundant. -/
  typed : Bool := false
  deriving DecidableEq, Repr, Inhabited

/-- The spelling under which a field is given and its value: the first spelling that is there. -/
def findField (entries : Dict Value) : List String → Option (String × Value)
  | [] => none
  | spelling :: others =>
    match Dict.get? entries spelling with
    | some value => some (spelling, value)
    | none => findField entries others

/-- The names that a value lists: those of a text, and those of the texts in a list. -/
def Value.names : Value → List String
  | .text s => Text.namesOf s
  | .list items => items.flatMap fun item =>
    match item with
    | .text s => Text.namesOf s
    | _ => []
  | _ => []

namespace Options

/-- The spellings of the field for further names, the one that wins first. -/
def definedTagsSpellings : List String := ["definedTags", "defined_tags"]

/-- The spellings of the field for the tags of the JSX pragmas. -/
def jsxTagsSpellings : List String := ["jsxTags", "jsx_tags"]

/-- The only spelling of the field for the type system. -/
def typedSpellings : List String := ["typed"]

/-- A text in the place of a list stands for the names that it lists. -/
def asList : Value → Value
  | .text s => .list ((Text.namesOf s).map .text)
  | value => value

/-- A complaint about each item of a list that is no text. Items are numbered from zero, those in
order included. -/
def itemComplaints (key : String) (items : List Value) : List Complaint :=
  items.zipIdx.filterMap fun (item, index) =>
    match item with
    | .text _ => none
    | _ => some ⟨key, some index, .notAText⟩

/-- The complaints about the field for further names: one about the whole, or one about each wrong
item. -/
def definedTagsComplaints (entries : Dict Value) : List Complaint :=
  match findField entries definedTagsSpellings with
  | none => []
  | some (key, value) =>
    -- A text counts as the list of its names, which are texts in any case.
    match asList value with
    | .list items => itemComplaints key items
    | _ => [⟨key, none, .notAList⟩]

/-- The complaint about a field that has to be true or false. -/
def switchComplaints (entries : Dict Value) (spellings : List String) : List Complaint :=
  match findField entries spellings with
  | some (key, value) =>
    match value with
    | .bool _ => []
    | _ => [⟨key, none, .notABoolean⟩]
  | none => []

/-- The keys from which the fields are read. A second spelling beside a first one is not among
them. -/
def usedKeys (entries : Dict Value) : List String :=
  [definedTagsSpellings, jsxTagsSpellings, typedSpellings].filterMap fun spellings =>
    (findField entries spellings).map (·.1)

/-- A complaint about each key from which no field is read, in the order given. -/
def keyComplaints (entries : Dict Value) : List Complaint :=
  ((Dict.keys entries).filter fun key => key ∉ usedKeys entries).map fun key =>
    ⟨key, none, .unknownKey⟩

/-- All complaints about options. -/
def complaints (entries : Dict Value) : List Complaint :=
  definedTagsComplaints entries ++ switchComplaints entries jsxTagsSpellings ++
    switchComplaints entries typedSpellings ++ keyComplaints entries

/-- The further names, in options without a fault. -/
def readDefinedTags (entries : Dict Value) : List String :=
  match findField entries definedTagsSpellings with
  | some (_, value) =>
    match asList value with
    | .list items => items.filterMap Value.text?
    | _ => []
  | none => []

/-- A field that is true or false, in options without a fault. -/
def readSwitch (entries : Dict Value) (spellings : List String) : Bool :=
  match findField entries spellings with
  | some (_, .bool b) => b
  | _ => false

/-- The options that a configuration gives, or its rejection. Fields are read only once nothing is
complained about, so what the readers make of a faulty field never shows. -/
def ofEntries (entries : Dict Value) : Except Rejection Options :=
  match complaints entries with
  | [] => .ok ⟨readDefinedTags entries, readSwitch entries jsxTagsSpellings,
      readSwitch entries typedSpellings⟩
  | found => .error ⟨.options, found⟩

end Options

end DocLint
