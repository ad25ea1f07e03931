import DocLint.Proofs.ConfiguredChecks
import DocLint.Proofs.Rearrangement
import DocLint.Proofs.Relisting

/-!
# The Order of Keys

Later preferences replace earlier ones for the same name, so the order in which they are taken in could
matter. It does not: the keys of a table are distinct, and two of them speak of the same name only if one is
marked and the other is not, which the order of the table does not decide. Main statement:
`check_rearranged`, by which settings with keys in another order, and another order or repetition of the
defined names, change nothing about a check.
-/

namespace DocLint

/-! ## Preferences in Another Order -/

namespace Policy

/-- A raw preference as it is taken in: its name and what it stands for, if it stands for anything.
In which order an object gives its parts is gone by now. -/
def readEntry (entry : String × Value) : String × Option Preference :=
  (entry.1, Preference.ofValue? entry.2)

/-- Takes in what a raw preference was read as. -/
def addReading (preferences : Dict Preference) (reading : String × Option Preference) :
    Dict Preference :=
  reading.2.elim (Dict.erase preferences reading.1) (Dict.set preferences reading.1)

/-- All that counts of a raw preference is what it is read as. -/
theorem addPreference_eq (preferences : Dict Preference) (entry : String × Value) :
    addPreference preferences entry = addReading preferences (readEntry entry) := by
  unfold addPreference addReading readEntry
  cases Preference.ofValue? entry.2 <;> rfl

/-- What raw preferences come to depends only on what each stands for. -/
theorem preferencesOf_congr {entries others : List (String × Value)}
    (h : entries.map readEntry = others.map readEntry) : preferencesOf entries = preferencesOf others := by
  have hread : ∀ raw : List (String × Value),
      preferencesOf raw = (raw.map readEntry).foldl addReading [] := by
    intro raw
    rw [List.foldl_map, preferencesOf, funext₂ addPreference_eq]
  rw [hread, hread, h]

/-- Raw preferences in another order come to the same for every name. -/
theorem get?_preferencesOf_rearranged {value other : Value} (h : value.Rearranged other) (name : String) :
    Dict.get? (preferencesOf (preferenceEntries value.entriesOrEmpty)) name =
      Dict.get? (preferencesOf (preferenceEntries other.entriesOrEmpty)) name := by
  -- One case for each step of the rearrangement.
  induction h with
  | refl value => rfl
  | @table entries others hkeys hperm =>
    -- Both sides look up the raw preference that counts, for which the order does not matter.
    have hothers : (Dict.keys others).Nodup := (hperm.map _).nodup_iff.mp hkeys
    have hleft := @get?_preferencesOf { tagNamePreference := entries } hkeys name
    have hright := @get?_preferencesOf { tagNamePreference := others } hothers name
    refine hleft.trans (Eq.trans ?_ hright.symm)
    simp only [Settings.preference?, Settings.rawPreference?, Dict.get?_of_perm hperm hkeys]
  | @entry before after key value other hvalue _ =>
    -- The places of all entries stay, and each stands for the same.
    rw [preferencesOf_congr]
    cases hkey : tagWordStripped? key <;>
      simp [Value.entriesOrEmpty, preferenceEntries, hkey, readEntry, hvalue.ofValue?_eq]
  | trans _ _ ihFirst ihSecond => exact ihFirst.trans ihSecond

/-- Whether a preference is malformed does not depend on the order, neither on that of the table nor
on that inside of the preference. -/
theorem hasMalformed_rearranged {value other : Value} (h : value.Rearranged other) :
    hasMalformed value.entriesOrEmpty = hasMalformed other.entriesOrEmpty := by
  induction h with
  | refl value => rfl
  | table _ hperm => exact hperm.any_eq
  | entry hvalue _ => simp [hasMalformed, Value.entriesOrEmpty, hvalue.ofValue?_eq]
  | trans _ _ ihFirst ihSecond => exact ihFirst.trans ihSecond

/-! ## Policies That Agree -/

/-- Whether two policies hold the same of every name, in whatever order. Their lists may differ in
order and repetition; the fields say all that a decision asks of them. -/
structure Agrees (first second : Policy) : Prop where
  isExempt_eq : ∀ name, first.isExempt name = second.isExempt name
  /-- They allow the same names, be it as defined, structured, preferred or built-in ones. -/
  allows_eq : ∀ name, first.allows name = second.allows name
  mem_targets_iff : ∀ name, name ∈ first.targets ↔ name ∈ second.targets
  preference_eq : ∀ name, Dict.get? first.preferences name = Dict.get? second.preferences name
  synonyms_eq : first.synonyms = second.synonyms

theorem Agrees.resolve_eq {first second : Policy} (h : first.Agrees second) (name : String) :
    first.resolve name = second.resolve name := by
  have htargets : first.targets.contains name = second.targets.contains name := by
    rw [Bool.eq_iff_iff, List.contains_iff_mem, List.contains_iff_mem]
    exact h.mem_targets_iff name
  unfold resolve resolveSynonym
  rw [h.isExempt_eq, h.allows_eq, htargets, h.preference_eq, h.synonyms_eq]

theorem Agrees.decide_eq {first second : Rule} (h : first.policy.Agrees second.policy)
    (htyped : first.typed = second.typed) (tag : Tag) (context : Context) :
    first.decide tag context = second.decide tag context := by
  have hredundancy : first.redundancy? tag context = second.redundancy? tag context := by
    unfold Rule.redundancy?
    rw [htyped]
  have hpolicy : first.decideByPolicy tag.name = second.decideByPolicy tag.name := by
    unfold Rule.decideByPolicy
    rw [h.resolve_eq]
  unfold Rule.decide
  rw [h.isExempt_eq, hredundancy, hpolicy]

/-- The names that the preferences of a configuration steer to are found by look-ups. -/
theorem mem_targets_ofConfig_iff_get? {options : Options} {settings : Settings} {target : String} :
    target ∈ (ofConfig options settings).targets ↔ target ≠ "" ∧ ∃ name message,
      Dict.get? (ofConfig options settings).preferences name = some (.rename target message) := by
  have hkeys : (Dict.keys (ofConfig options settings).preferences).Nodup := by
    rw [preferences_ofConfig]
    apply nodup_keys_preferencesOf
  rw [mem_targets_iff]
  -- No name has two preferences, so each of them is the one that is found.
  constructor
  · rintro ⟨hne, name, message, hmem⟩
    exact ⟨hne, name, message, Dict.get?_of_mem hkeys hmem⟩
  · rintro ⟨hne, name, message, hget⟩
    exact ⟨hne, name, message, Dict.mem_of_get? hget⟩

end Policy

section

variable {options otherOptions : Options} {settings otherSettings : Settings}
  (hoptions : options.Alike otherOptions) (hsettings : settings.Rearranged otherSettings)

include hoptions hsettings

/-- Configurations in another order have policies that agree. -/
theorem Policy.agrees_of_rearranged :
    (Policy.ofConfig options settings).Agrees (Policy.ofConfig otherOptions otherSettings) := by
  -- Look-ups first: the names steered to are found by them.
  have hpreference : ∀ name, Dict.get? (Policy.ofConfig options settings).preferences name =
      Dict.get? (Policy.ofConfig otherOptions otherSettings).preferences name := by
    intro name
    rw [Policy.preferences_ofConfig, Policy.preferences_ofConfig]
    exact Policy.get?_preferencesOf_rearranged hsettings.tagNamePreference name
  have htargets : ∀ name, name ∈ (Policy.ofConfig options settings).targets ↔
      name ∈ (Policy.ofConfig otherOptions otherSettings).targets := by
    intro name
    simp only [Policy.mem_targets_ofConfig_iff_get?, hpreference]
  have hpreferenceNames : ∀ name, name ∈ (Policy.ofConfig options settings).preferenceNames ↔
      name ∈ (Policy.ofConfig otherOptions otherSettings).preferenceNames := by
    intro name
    rw [Policy.preferenceNames_ofConfig, Policy.preferenceNames_ofConfig]
    refine Policy.mem_preferenceEntries_names_iff.trans (Iff.trans ?_
      Policy.mem_preferenceEntries_names_iff.symm)
    exact (hsettings.tagNamePreference.keys_perm.map _).mem_iff
  have hstructured : ∀ name, name ∈ (Policy.ofConfig options settings).structuredNames ↔
      name ∈ (Policy.ofConfig otherOptions otherSettings).structuredNames := fun _ =>
    hsettings.structuredTags.keys_perm.mem_iff
  have hbuiltin : (Policy.ofConfig options settings).builtinNames =
      (Policy.ofConfig otherOptions otherSettings).builtinNames := congrArg Mode.names hsettings.mode_eq
  have hdefined : ∀ name, name ∈ (Policy.ofConfig options settings).definedNames ↔
      name ∈ (Policy.ofConfig otherOptions otherSettings).definedNames := hoptions.mem_definedTags_iff
  refine ⟨?_, ?_, htargets, hpreference, congrArg Mode.synonyms hsettings.mode_eq⟩
  · intro name
    exact congrArg (· && Vocabulary.jsxNames.contains name) hoptions.jsxTags_eq
  · intro name
    rw [Bool.eq_iff_iff, Policy.allows_iff, Policy.allows_iff, htargets, hpreferenceNames, hstructured,
      hbuiltin, hdefined]

/-- A configuration in another order checks every comment alike. -/
theorem checkComment_rearranged (block : Block) (context : Context) (collector : Collector) :
    checkComment options settings block context collector =
      checkComment otherOptions otherSettings block context collector := by
  have hpolicy := Policy.agrees_of_rearranged hoptions hsettings
  have hdecide : ∀ tag, (Rule.ofConfig options settings).decide tag context =
      (Rule.ofConfig otherOptions otherSettings).decide tag context := fun tag =>
    hpolicy.decide_eq hoptions.typed_eq tag context
  have hmessages : Policy.settingsMessages settings = Policy.settingsMessages otherSettings := by
    have hmalformed : Policy.hasMalformed settings.tagNamePreference =
        Policy.hasMalformed otherSettings.tagNamePreference :=
      Policy.hasMalformed_rearranged hsettings.tagNamePreference
    rw [Policy.settingsMessages_eq, Policy.settingsMessages_eq, hmalformed]
  rw [checkComment_eq, checkComment_eq, Rule.reportsOfTags_congr hdecide, hmessages]

end

/-! ## Whole Checks -/

/-- Checks a comment by options and settings as a host hands them in. The options are read first. -/
def checkEntries (options settings : Dict Value) (block : Block) (context : Context) (collector : Collector) :
    Except Rejection (Except Fault (List Report) × Collector) := do
  let options ← Options.ofEntries options
  let settings ← Settings.ofEntries settings
  return checkComment options settings block context collector

/-- **The order of keys does not matter**: with settings whose tables have their keys in another
order, and with the defined names in another order or repeated, a check comes to the same rejection,
or to the same reports and the same messages about settings. -/
theorem check_rearranged {options otherOptions settings otherSettings : Dict Value} {accepted : Options}
    (haccepted : Options.ofEntries options = .ok accepted)
    (hoptions : Options.Relisted options otherOptions)
    (hsettings : (Value.table settings).Rearranged (.table otherSettings)) (block : Block)
    (context : Context) (collector : Collector) :
    checkEntries options settings block context collector =
      checkEntries otherOptions otherSettings block context collector := by
  obtain ⟨others, hothers, halike⟩ := Options.ofEntries_relisted hoptions haccepted
  unfold checkEntries
  rw [haccepted, hothers]
  -- The settings are turned down alike, or read alike.
  rcases Settings.ofEntries_rearranged hsettings with
    ⟨rejection, hfirst, hsecond⟩ | ⟨read, otherRead, hfirst, hsecond, hread⟩
  · rw [hfirst, hsecond]
    rfl
  · rw [hfirst, hsecond]
    exact congrArg Except.ok (checkComment_rearranged halike hread block context collector)

/-- A marked key counts before the bare one also if it comes first, and a list of names may be given
as one text. -/
theorem check_rearranged_marked_key :
    let options : Dict Value := [("definedTags", .list [.text "own", .text "odd"])]
    let otherOptions : Dict Value := [("definedTags", .text "odd, own, odd")]
    let remark : Value := .table [("message", .text "Say remark."), ("replacement", .text "remark")]
    let otherRemark : Value := .table [("replacement", .text "remark"), ("message", .text "Say remark.")]
    let settings : Dict Value :=
      [("mode", .text "jsdoc"), ("tagNamePreference", .table [("tag note", remark), ("note", .int 5)])]
    let otherSettings : Dict Value :=
      [("tagNamePreference", .table [("note", .int 5), ("tag note", otherRemark)]), ("mode", .text "jsdoc")]
    let block : Block := { tags := [{ name := "note" }, { name := "own" }, { name := "any" }] }
    Options.ofEntries options = .ok { definedTags := ["own", "odd"] } ∧
      Options.Relisted options otherOptions ∧ (Value.table settings).Rearranged (.table otherSettings) ∧
      checkEntries options settings block {} {} = checkEntries otherOptions otherSettings block {} {} := by
  intro options otherOptions remark otherRemark settings otherSettings block
  have haccepted : Options.ofEntries options = .ok { definedTags := ["own", "odd"] } := by rfl
  have hoptions : Options.Relisted options otherOptions := by
    have hlist : Options.asList (.text "odd, own, odd") = .list [.text "odd", .text "own", .text "odd"] := by
      rfl
    refine @Options.Relisted.list [] [] "definedTags" _ _ _ _ (by decide) rfl hlist fun item => ?_
    simp only [List.mem_cons, List.not_mem_nil, or_false]
    tauto
  -- The object first, then the table around it, then the settings.
  have hremark : remark.Rearranged otherRemark := .table (by decide) (.swap ..)
  have hpreference : (Value.table [("tag note", remark), ("note", .int 5)]).Rearranged
      (.table [("note", .int 5), ("tag note", otherRemark)]) :=
    .trans (@Value.Rearranged.entry [] _ _ _ _ hremark) (.table (by decide) (.swap ..))
  have hsettings : (Value.table settings).Rearranged (.table otherSettings) :=
    .trans (@Value.Rearranged.entry [("mode", .text "jsdoc")] [] _ _ _ hpreference)
      (.table (by decide) (.swap ..))
  exact ⟨haccepted, hoptions, hsettings, check_rearranged haccepted hoptions hsettings block {} {}⟩

end DocLint
