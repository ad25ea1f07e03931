import DocLint.Config.Settings
import DocLint.Preference

/-!
# Naming Policies

A policy gathers all that decides about a tag name: the built-in names of the mode and their synonyms, the
names that the options and settings add, and the preferences. A preference may be given under the bare
name or under `tag` and the name; the latter wins. A malformed preference is dropped, but its name counts
as known.
-/

namespace DocLint

/-- All that decides about tag names. A host may put a policy together itself; those that come from
a configuration are built by `build`. -/
structure Policy where
  /-- The names that the options allow. -/
  definedNames : List String := []
  /-- What is preferred to certain names. -/
  preferences : Dict Preference := []
  /-- The names that the settings have a preference for, malformed or not. -/
  preferenceNames : List String := []
  /-- The names whose structure is checked elsewhere. -/
  structuredNames : List String := []
  /-- The names of the mode. -/
  builtinNames : List String := []
  /-- The synonyms of the mode, each with the name that it stands for. -/
  synonyms : Dict String := []
  /-- Whether the tags of the JSX pragmas are exempt. -/
  jsxExempt : Bool := false
  deriving DecidableEq, Repr, Inhabited

namespace Policy

/-- The name after the word `tag` and a blank. What follows the blank is the name as it stands,
further blanks included. -/
def tagWordStripped? (key : String) : Option String :=
  match key.toList with
  | 't' :: 'a' :: 'g' :: ' ' :: name => some (String.ofList name)
  | _ => none

/-- The raw preferences with their names, those under bare names before the others. -/
def preferenceEntries (raw : Dict Value) : List (String × Value) :=
  -- Of two entries for one name the later one counts, so the marked keys win wherever they stand.
  (raw.filter fun (key, _) => (tagWordStripped? key).isNone) ++
    raw.filterMap fun (key, value) => (tagWordStripped? key).map fun name => (name, value)

/-- Takes one raw preference in: a later one replaces an earlier one, also if it is malformed. -/
def addPreference (preferences : Dict Preference) (entry : String × Value) : Dict Preference :=
  match Preference.ofValue? entry.2 with
  | some preference => Dict.set preferences entry.1 preference
  | none => Dict.erase preferences entry.1

/-- The message about settings with a malformed preference. -/
def malformedPreferenceMessage : String :=
  "Invalid `tagNamePreference` setting. Values must be falsy, a string, or an object."

/-- What is gathered while raw preferences are taken in one after the other. -/
structure Intake where
  preferences : Dict Preference := []
  /-- The names of all of them, in order. -/
  names : List String := []
  /-- Whether a preference was malformed so far. -/
  malformed : Bool := false
  deriving Repr, Inhabited

/-- Takes one raw preference in, with its name. A malformed one leaves its name behind, which
thereby counts as known. -/
def Intake.add (intake : Intake) (entry : String × Value) : Intake :=
  { preferences := addPreference intake.preferences entry
    names := intake.names ++ [entry.1]
    malformed := intake.malformed || (Preference.ofValue? entry.2).isNone }

/-- The raw preferences, all taken in. -/
def intakeOf (raw : Dict Value) : Intake := (preferenceEntries raw).foldl Intake.add {}

/-- Builds the policy of options and settings before the state of a host. A sink, if there is one,
takes the message about malformed preferences into that state once all preferences are taken in,
however many of them are malformed. -/
def build {σ : Type} (sink? : Option (String → σ → σ)) (options : Options) (settings : Settings)
    (state : σ) : Policy × σ :=
  let intake := intakeOf settings.tagNamePreference
  let told :=
    match sink? with
    | some sink => if intake.malformed then sink malformedPreferenceMessage state else state
    | none => state
  ({ definedNames := options.definedTags
     preferences := intake.preferences
     -- Names with a malformed preference are kept here, though nothing is preferred to them.
     preferenceNames := intake.names
     structuredNames := Dict.keys settings.structuredTags
     builtinNames := settings.mode.names
     synonyms := settings.mode.synonyms
     jsxExempt := options.jsxTags }, told)

/-- The policy of options and settings, built without a sink. -/
def ofConfig (options : Options) (settings : Settings) : Policy :=
  (build none options settings ()).1

/-- The names that preferences steer to. A preference may give the empty name, which steers
nowhere. -/
def targets (policy : Policy) : List String :=
  (Dict.values policy.preferences).filterMap fun preference =>
    preference.target?.filter fun target => target != ""

/-- Whether a name is known: it is built in, defined or structured, there is a preference for it, or
one steers to it. A name with a malformed preference is known too, since the settings speak of
it. -/
def allows (policy : Policy) (name : String) : Bool :=
  policy.builtinNames.contains name || policy.definedNames.contains name ||
    policy.preferenceNames.contains name || policy.targets.contains name ||
    policy.structuredNames.contains name

/-- Whether a tag is exempt from every check. Being exempt has nothing to do with being known. -/
def isExempt (policy : Policy) (name : String) : Bool :=
  policy.jsxExempt && Vocabulary.jsxNames.contains name

end Policy

end DocLint
