import DocLint.Comment.Fix

/-!
# Issues, Decisions and Reports

What can be wrong with a tag, what is decided about it, and what is reported. Reports are collected in the
order in which they come, beside messages about settings; nothing is taken out again.
-/

namespace DocLint

/-! ## Issues -/

/-- What is wrong. The last issue is not one of a tag: messages about settings are listed under
it. -/
inductive Issue where
  | unknownTag
  | blockedTag
  | preferredName
  | typedRedundant
  /-- Something is wrong with the settings, not with a tag. -/
  | settings
  deriving DecidableEq, Repr, Inhabited

namespace Issue

/-- All issues. -/
def all : List Issue := [.unknownTag, .blockedTag, .preferredName, .typedRedundant, .settings]

/-- The code of an issue. -/
def code : Issue → String
  | .unknownTag => "TAGCHECK_UNKNOWN_TAG"
  | .blockedTag => "TAGCHECK_BLOCKED_TAG"
  | .preferredName => "TAGCHECK_PREFERRED_NAME"
  | .typedRedundant => "TAGCHECK_TYPED_REDUNDANT"
  | .settings => "TAGCHECK_SETTINGS"

/-- The issue of a code. -/
def ofCode? (code : String) : Option Issue := all.find? fun issue => issue.code = code

end Issue

/-! ## Decisions -/

/-- What is to be done about a tag. A host may hand in a kind that the rule does not know; what then
happens is part of the behaviour of `emit`. -/
inductive DecisionKind where
  /-- Nothing is reported. -/
  | skip
  /-- The issue is reported. For a redundant tag a fix goes with it. -/
  | reportOnly
  /-- The issue is reported with a fix that writes another name. -/
  | reportAndReplace
  | other (label : String)
  deriving DecidableEq, Repr, Inhabited

namespace DecisionKind

/-- The kinds that the rule knows. -/
def known : List DecisionKind := [.skip, .reportOnly, .reportAndReplace]

/-- The name of a kind. -/
def name : DecisionKind → String
  | .skip => "skip"
  | .reportOnly => "report_only"
  | .reportAndReplace => "report_and_replace"
  | .other label => label

/-- The kind of a name. -/
def ofName (name : String) : DecisionKind :=
  (known.find? fun kind => kind.name = name).getD (.other name)

end DecisionKind

/-- A decision about a tag. Which of the fields are filled goes with the kind, but nothing forces a
host to fill them so. -/
structure Decision where
  kind : DecisionKind
  -- A decision to pass a tag over needs none of the following.
  issue : Option Issue := none
  message : String := ""
  preferredName : Option String := none
  deriving DecidableEq, Repr, Inhabited

/-- The decision to pass a tag over. -/
def Decision.skip : Decision := { kind := .skip }

/-! ## Reports -/

/-- What is reported about a tag. -/
structure Report where
  issue : Issue
  message : String
  /-- The number of the tag, as it was handed in. -/
  tagIndex : Option Int := none
  span : Option Span := none
  /-- What would take the issue away. -/
  fix : Option Fix := none
  deriving DecidableEq, Repr, Inhabited

/-- Where a report points to: the start of its stretch, or the first place of the file. -/
def Report.position (report : Report) : Position := report.span.elim Position.first Span.start

/-- All that has been reported, in order. -/
structure Collector where
  reports : List Report := []
  /-- Messages about settings have no place in a file. -/
  settingsMessages : List String := []
  deriving DecidableEq, Repr, Inhabited

namespace Collector

/-- Takes a report in, behind those that are there. -/
def add (collector : Collector) (report : Report) : Collector :=
  { collector with reports := collector.reports ++ [report] }

/-- Takes messages about settings in, behind those that are there. -/
def addSettings (collector : Collector) (messages : List String) : Collector :=
  { collector with settingsMessages := collector.settingsMessages ++ messages }

/-- The messages of the reports. -/
def messages (collector : Collector) : List String := collector.reports.map Report.message

/-- The first fix that was reported. -/
def firstFix? (collector : Collector) : Option Fix := collector.reports.findSome? Report.fix

/-- What the first fix makes of a text; nothing if there is no fix. One fix is applied at a time,
since each replaces the whole comment. -/
def fixedText? (collector : Collector) (text : String) : Option String :=
  collector.firstFix?.map fun fix => fix.apply text

end Collector

end DocLint
