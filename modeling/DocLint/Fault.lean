import DocLint.Value

/-!
# Faults

What stops a check: a tag number that no tag has, or a breach, which is a state that cannot come about
through a configuration.
-/

namespace DocLint

/-- A state that should not come about. A host that makes its own policies and decisions can bring
one about all the same, so each has its place here. -/
inductive Breach where
  /-- A name is to be replaced by the empty name. -/
  | steeredNowhere (tag : String)
  /-- A decision to report does not say which issue. -/
  | reportWithoutIssue (tag : String)
  /-- A decision to replace a name does not say by which. -/
  | replacementWithoutName (tag : String)
  /-- A decision is of no known kind. -/
  | unknownDecision (label : String)
  /-- A place that a program marks as out of reach, with a reason and details. -/
  | marked (reason : String) (details : Dict Value)
  deriving Repr, Inhabited

namespace Breach

/-- The reason that stands for a missing one. -/
def plainReason : String := "never() marker reached"

/-- What is said about a breach. -/
def reason : Breach → String
  | .steeredNowhere _ => "preferred resolution without a name"
  | .reportWithoutIssue _ => "reported decision without an issue kind"
  | .replacementWithoutName _ => "replacement decision without a preferred name"
  | .unknownDecision _ => "unknown decision kind"
  | .marked reason _ => if reason = "" then plainReason else reason

/-- What a breach is about, for whoever looks into it. -/
def details : Breach → Dict Value
  | .steeredNowhere tag => [("tag", .text tag)]
  | .reportWithoutIssue tag => [("tag", .text tag)]
  | .replacementWithoutName tag => [("tag", .text tag)]
  | .unknownDecision label => [("kind", .text label)]
  | .marked _ details => details

end Breach

/-- What stops a check. -/
inductive Fault where
  | noSuchTag
  | breach (breach : Breach)
  deriving Repr, Inhabited

end DocLint
