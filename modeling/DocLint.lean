import DocLint.Comment.TextEdit
import DocLint.Config.File
import DocLint.Lint.Line
import DocLint.Policy.Summary
import DocLint.Rule
import DocLint.Proofs.Lookup
import DocLint.Proofs.Stops
import DocLint.Proofs.PreferenceMerge
import DocLint.Proofs.Resolution
import DocLint.Proofs.CheckReports
import DocLint.Proofs.Mentions
import DocLint.Proofs.RenameFix
import DocLint.Proofs.RenameStability
import DocLint.Proofs.MalformedPreferences
import DocLint.Proofs.Completion
import DocLint.Proofs.Sessions
import DocLint.Proofs.Fields
import DocLint.Proofs.Overrides
import DocLint.Proofs.LayeredConfig
import DocLint.Proofs.ConfiguredChecks
import DocLint.Proofs.TypedMode
import DocLint.Proofs.Widening
import DocLint.Proofs.Rearrangement
import DocLint.Proofs.KeyOrder
import DocLint.Proofs.Numerals
import DocLint.Proofs.PlaceReading
import DocLint.Proofs.LintRoundTrip
import DocLint.Proofs.LeftmostMention
import DocLint.Proofs.RepeatedRenames
import DocLint.Proofs.KeptProse
import DocLint.Proofs.CommentDelimiters
import DocLint.Proofs.Diagnoses
import DocLint.Proofs.UntouchedLines
import DocLint.Proofs.LintGrammar
import DocLint.Proofs.LintRewriting
import DocLint.Proofs.ShrinkingFixes
import DocLint.Proofs.Ambience
import DocLint.Proofs.ContextualRedundancy
import DocLint.Proofs.JsonQuoting
import DocLint.Proofs.JsonText
import DocLint.Proofs.JsonLines
import DocLint.Proofs.MissingTags
import DocLint.Proofs.OptionFaults
import DocLint.Proofs.PreferenceNotices
import DocLint.Proofs.TomlBounds
import DocLint.Proofs.TomlDocuments
import DocLint.Proofs.UnusableFiles
import DocLint.Proofs.NameLists
import DocLint.Proofs.PreferenceForms
