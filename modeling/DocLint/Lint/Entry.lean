import DocLint.Json.Text
import DocLint.Limits
import DocLint.Report

/-!
# Lint Entries

What was reported, as other tools read it: one entry for each message about settings, then one for each
report, as a line of text or as an object.
-/

namespace DocLint

/-- How grave a finding is. -/
inductive Severity where
  | error
  | warning
  deriving DecidableEq, Repr, Inhabited

/-- The name of a severity. -/
def Severity.name : Severity → String
  | .error => "error"
  | .warning => "warning"

/-- A finding at a place of a file. Its numbers may be of any size and also negative, since they
come from a host; a finding that was read from a line has natural numbers. -/
structure Finding where
  path : String
  line : Int
  column : Int
  code : String
  message : String
  severity : Severity := .warning
  deriving DecidableEq, Repr, Inhabited

/-- A line about a place: the path, the line and the column, each before a colon, then a code and a
message. The numbers are given as they are written. -/
def lintLine (path line column code message : String) : String :=
  path ++ ":" ++ line ++ ":" ++ column ++ ": " ++ code ++ " " ++ message

/-- A finding as a line, whatever the size of its numbers. -/
def Finding.text (finding : Finding) : String :=
  lintLine finding.path (integerText finding.line) (integerText finding.column) finding.code
    finding.message

/-- Writes a finding as a line, unless one of its numbers is too long for the host. -/
def Finding.write (limits : Limits) (finding : Finding) : Except Stop String := do
  let line ← limits.writeInteger finding.line
  let column ← limits.writeInteger finding.column
  return lintLine finding.path line column finding.code finding.message

/-- A finding with the word whether a fix goes with it. -/
structure LintEntry extends Finding where
  fixable : Bool := false
  deriving DecidableEq, Repr, Inhabited

/-- An entry as an object. -/
def LintEntry.toTable (entry : LintEntry) : Dict Value :=
  [("path", .text entry.path), ("line", .int entry.line), ("col", .int entry.column),
    ("code", .text entry.code), ("message", .text entry.message),
    ("severity", .text entry.severity.name), ("fixable", .bool entry.fixable)]

namespace LintEntry

/-- The entry for a message about settings, which points to the start of the file. -/
def ofSettingsMessage (path message : String) : LintEntry :=
  { path := path, line := 1, column := 1, code := Issue.settings.code, message := message
    severity := .error }

/-- The entry for a report. -/
def ofReport (path : String) (report : Report) : LintEntry :=
  { path := path, line := report.position.line, column := report.position.column
    code := report.issue.code, message := report.message, fixable := report.fix.isSome }

end LintEntry

namespace Collector

/-- The entries of all that was reported about a file: messages about settings first, then reports.
Entries hold their numbers as numbers, so every place has one, however far down it is. -/
def entries (collector : Collector) (path : String) : List LintEntry :=
  collector.settingsMessages.map (LintEntry.ofSettingsMessage path) ++
    collector.reports.map (LintEntry.ofReport path)

/-- The lines of all that was reported about a file: messages about settings first, which point to
the start of the file, then reports, which point to where they start. A report so far down that the
host cannot write its place stops the run, and then there are no lines at all. -/
def lines (limits : Limits) (collector : Collector) (path : String) : Except Stop (List String) := do
  -- Messages about settings stand at a place that every host can write.
  let settingsLines := collector.settingsMessages.map fun message =>
    lintLine path "1" "1" Issue.settings.code message
  let reportLines ← collector.reports.mapM fun report => do
    let line ← limits.writeInteger report.position.line
    let column ← limits.writeInteger report.position.column
    return lintLine path line column report.issue.code report.message
  return settingsLines ++ reportLines

/-- All that was reported about a file as JSON Lines. -/
def jsonLines (limits : Limits) (collector : Collector) (path : String) : Except Stop String :=
  Json.lines limits ((collector.entries path).map LintEntry.toTable)

end Collector

end DocLint
