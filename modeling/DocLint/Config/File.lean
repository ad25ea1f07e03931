import DocLint.Config.Settings
import DocLint.Toml.Document

/-!
# Configuration Files

A configuration file is a TOML document with a section for the options and one for the settings. A file
that is missing, cannot be read or is no document counts as empty. No configuration is loaded if the bytes of
the file are no text, or if the host stops while the text is read. What the host sets itself goes before what
the file says.
-/

namespace DocLint

/-- What stands at a path: nothing, a folder, or a file with its bytes. -/
inductive FileContent where
  /-- Nothing at all, which is no error. -/
  | missing
  /-- Reading it fails, which is none either. -/
  | folder
  /-- Whether they are those of a text is found out when they are read. -/
  | bytes (data : ByteArray)
  deriving Inhabited

/-- Why a configuration cannot be loaded. -/
inductive LoadError where
  /-- The bytes of the file are not those of a text. -/
  | notUtf8
  /-- The host stops in the text of the file. -/
  | stopped (stop : Stop)
  | rejected (rejection : Rejection)
  deriving Repr

namespace Config

/-- The usual name of a configuration file. -/
def fileName : String := "tagcheck.toml"

/-- Where a configuration is looked for: in a file of its own, or under the usual name in a
folder. -/
structure Place where
  folder : Option String := none
  /-- A file that is named goes before the folder. -/
  file : Option String := none
  deriving Repr, Inhabited

/-- The path of the configuration file. A file goes before a folder, and the working folder is the
last resort. -/
def Place.path (workingFolder : String) (place : Place) : String :=
  place.file.getD (place.folder.getD workingFolder ++ "/" ++ fileName)

/-- Ends every line in a single line feed, also those that end in a carriage return. -/
def normalizeLineEnds : List Char → List Char
  | '\r' :: '\n' :: rest => '\n' :: normalizeLineEnds rest
  | c :: rest => (if c = '\r' then '\n' else c) :: normalizeLineEnds rest
  | [] => []

/-- The table that the text of a file stands for, empty if it is no document. -/
def tableOfText (limits : Limits) (text : String) : Except Stop (Dict Value) :=
  match Toml.read limits (normalizeLineEnds text.toList) with
  | .ok table => .ok table
  | .error .malformed => .ok []
  | .error (.stopped stop) => .error stop

/-- The table that a configuration file holds. A file that is not there, a folder, and a text that
is no document count as empty, so nobody has to have such a file. Bytes that are no text, and a text
in which the host stops, are not passed over: the error reaches whoever loads the file. -/
def load (limits : Limits) : FileContent → Except LoadError (Dict Value)
  | .missing => .ok []
  | .folder => .ok []
  | .bytes data =>
    -- The bytes become a text before anything is read from it, so the two can fail apart.
    match String.fromUTF8? data with
    | some text => (tableOfText limits text).mapError .stopped
    | none => .error .notUtf8

/-- A section of a configuration, empty if it is not there or no table. -/
def tableSection (name : String) (table : Dict Value) : Dict Value :=
  match Dict.get? table name with
  | some (.table entries) => entries
  | _ => []

/-- The options as the file gives them, not yet checked. -/
def optionsSection (table : Dict Value) : Dict Value := tableSection "options" table

/-- The settings as the file gives them, not yet checked. -/
def settingsSection (table : Dict Value) : Dict Value := tableSection "settings" table

/-- Puts overrides over defaults, key by key; a null leaves the default. Keys are compared as they
are spelled, so two spellings of one field stand side by side afterwards. -/
def override (overrides defaults : Dict Value) : Dict Value :=
  overrides.foldl
    (fun merged (key, value) =>
      match value with
      -- A null is how a host says that it sets nothing.
      | .null => merged
      | _ => Dict.set merged key value)
    defaults

/-- The options and settings of a configuration under overrides. The options are checked first. -/
def resolve (table optionsOverrides settingsOverrides : Dict Value) :
    Except Rejection (Options × Settings) := do
  let options ← Options.ofEntries (override optionsOverrides (optionsSection table))
  let settings ← Settings.ofEntries (override settingsOverrides (settingsSection table))
  return (options, settings)

/-- The options and settings of a configuration file under overrides. What goes wrong first is the
error: the file is read before the options are checked, and these before the settings. -/
def loadResolved (limits : Limits) (content : FileContent) (optionsOverrides settingsOverrides : Dict Value) :
    Except LoadError (Options × Settings) := do
  let table ← load limits content
  (resolve table optionsOverrides settingsOverrides).mapError .rejected

end Config

end DocLint
