import DocLint.Fault
import DocLint.Policy.Resolution
import DocLint.Redundancy
import DocLint.Report

/-!
# The Tag-Name Rule

Each tag of a comment is judged on its own: the exemption of JSX tags first, then redundancy beside a type
system (if the rule is typed), then what the policy says. The first that settles the tag ends its judgment.
Main definitions: `Rule.decide`, which only judges, `emit`, which turns a decision into a report, and
`Rule.check`, which does both for every named tag of a comment. A check that is stopped keeps the reports
made before.
-/

namespace DocLint

/-- The release of the rule. -/
def version : String := "0.1.0"

/-! ## Decisions -/

/-- A tag-name rule. It is made once and used for any number of comments. -/
structure Rule where
  policy : Policy
  /-- Whether tags that are redundant beside a type system are reported. -/
  typed : Bool
  deriving DecidableEq, Repr, Inhabited

namespace Rule

/-- The rule of options and settings. -/
def ofConfig (options : Options) (settings : Settings) : Rule :=
  ⟨Policy.ofConfig options settings, options.typed⟩

/-- The rule of options and settings, made before a collector, which is the sink for what is to be
said about the settings. -/
def setUp (options : Options) (settings : Settings) (collector : Collector) : Rule × Collector :=
  let sink := fun message (told : Collector) => told.addSettings [message]
  let (policy, told) := Policy.build (some sink) options settings collector
  (⟨policy, options.typed⟩, told)

/-- What is said about an unknown tag. -/
def unknownMessage (name : String) : String := "Invalid JSDoc tag name \"" ++ name ++ "\"."

/-- What is said about a tag with a better name, unless the preference brings a message. -/
def preferredMessage (name preferred : String) : String :=
  "Invalid JSDoc tag (preference). Replace \"" ++ name ++ "\" JSDoc tag with \"" ++ preferred ++ "\"."

/-- The decision that follows from what the policy says. A name is steered to the empty name only by
a policy that no configuration gives, and then there is no decision. -/
def decideByPolicy (rule : Rule) (name : String) : Except Fault Decision :=
  match rule.policy.resolve name with
  | .exempt => .ok Decision.skip
  | .valid => .ok Decision.skip
  | .invalid => .ok ⟨.reportOnly, some .unknownTag, unknownMessage name, none⟩
  | .blocked message => .ok ⟨.reportOnly, some .blockedTag, message, none⟩
  | .preferred preferred message =>
    if preferred = "" then .error (.breach (.steeredNowhere name))
    else
      .ok ⟨.reportAndReplace, some .preferredName,
        Policy.messageOr message (preferredMessage name preferred), some preferred⟩

/-- The rule by which a tag is reported as redundant, if the rule is typed. -/
def redundancy? (rule : Rule) (tag : Tag) (context : Context) : Option RedundancyRule :=
  if rule.typed then tag.redundancy? context else none

/-- The decision about a tag. An exempt tag is passed over even if it is redundant, and a redundant
tag is reported as such even if its name is unknown. So the policy is asked last, and only about
tags that say something. -/
def decide (rule : Rule) (tag : Tag) (context : Context) : Except Fault Decision :=
  if rule.policy.isExempt tag.name then .ok Decision.skip
  else
    -- What the policy says of the name is asked for only if the tag is not redundant.
    match rule.redundancy? tag context with
    | some redundancy =>
      .ok ⟨.reportOnly, some .typedRedundant, redundancy.message tag.name, none⟩
    | none => rule.decideByPolicy tag.name

end Rule

/-! ## Reports of Decisions -/

/-- The fix that goes with a decision, or what is wrong with the decision. A tag that is reported
and not replaced has a fix only if it is redundant. -/
def fixFor (decision : Decision) (issue : Issue) (block : Block) (index : Int) (name : String) :
    Except Fault (Option Fix) :=
  match decision.kind with
  | .reportAndReplace =>
    match decision.preferredName with
    | some preferred =>
      if preferred = "" then .error (.breach (.replacementWithoutName name))
      else .ok (some (.rename name preferred))
    | none => .error (.breach (.replacementWithoutName name))
  -- An unknown or a blocked name has no fix, as nothing is known to be right instead.
  | .reportOnly => .ok (if issue = .typedRedundant then block.redundancyFix? index else none)
  | .skip => .ok none
  | .other label => .error (.breach (.unknownDecision label))

/-- The report that follows from a decision about a tag of a comment; there is none if the tag is
passed over. -/
def reportFor (decision : Decision) (block : Block) (index : Int) : Except Fault (Option Report) :=
  if decision.kind = .skip then .ok none
  else
    -- The number is looked up first, then the issue, then the kind; the first fault is the one that
    -- stops.
    match block.tag? index with
    | none => .error .noSuchTag
    | some tag =>
      match decision.issue with
      | none => .error (.breach (.reportWithoutIssue tag.name))
      | some issue => do
        let fix ← fixFor decision issue block index tag.name
        return some ⟨issue, decision.message, some index, some tag.span, fix⟩

/-- Reports what a decision about a tag says. A decision that cannot be reported changes nothing. -/
def emit (decision : Decision) (block : Block) (index : Int) (collector : Collector) :
    Except Fault (Option Report) × Collector :=
  match reportFor decision block index with
  | .ok (some report) => (.ok (some report), collector.add report)
  | .ok none => (.ok none, collector)
  | .error fault => (.error fault, collector)

/-! ## Checking Comments -/

namespace Rule

/-- Judges and reports one tag; a tag without a name is passed over. -/
def checkTag (rule : Rule) (block : Block) (context : Context) (tag : Tag) (index : Nat)
    (collector : Collector) : Except Fault (Option Report) × Collector :=
  -- A block tag without a name is a matter of the parser.
  if tag.name = "" then (.ok none, collector)
  else
    match rule.decide tag context with
    | .ok decision => emit decision block index collector
    | .error fault => (.error fault, collector)

/-- Judges and reports tags in order, given with their numbers, until one stops the check. The
answer is then the fault alone, but the collector keeps what was reported before. -/
def checkTags (rule : Rule) (block : Block) (context : Context) :
    List (Tag × Nat) → Collector → Except Fault (List Report) × Collector
  | [], collector => (.ok [], collector)
  | (tag, index) :: rest, collector =>
    match rule.checkTag block context tag index collector with
    | (.error fault, collector) => (.error fault, collector)
    | (.ok report, collector) =>
      match checkTags rule block context rest collector with
      | (.error fault, collector) => (.error fault, collector)
      | (.ok reports, collector) => (.ok (report.toList ++ reports), collector)

/-- Judges and reports the tags of a comment. The reports made are also the answer. -/
def check (rule : Rule) (block : Block) (context : Context) (collector : Collector) :
    Except Fault (List Report) × Collector :=
  rule.checkTags block context block.tags.zipIdx collector

end Rule

/-- Checks one comment by a rule made for it. Malformed preferences are reported once, so a host
that checks many comments this way reports them for each. -/
def checkComment (options : Options) (settings : Settings) (block : Block) (context : Context)
    (collector : Collector) : Except Fault (List Report) × Collector :=
  let (rule, collector) := Rule.setUp options settings collector
  rule.check block context collector

end DocLint
