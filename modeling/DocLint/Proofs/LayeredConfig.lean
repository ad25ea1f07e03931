import DocLint.Proofs.Overrides

/-!
# Configurations in Layers

A configuration is loaded from a file and from overrides, each of which may be in order on its own. Main
statement: `loadResolved_overrides`, by which overrides win every field that they give, except that two
spellings of one option are a fault, and that a setting which the file gives under an earlier spelling
stays.
-/

namespace DocLint

/-! ## Options -/

namespace Options

open Config

/-- Options that take the given fields from one side and the others from the other. -/
def layeredOver (given : List String → Bool) (overriding file : Options) : Options :=
  { definedTags := if given definedTagsSpellings then overriding.definedTags else file.definedTags
    jsxTags := if given jsxTagsSpellings then overriding.jsxTags else file.jsxTags
    typed := if given typedSpellings then overriding.typed else file.typed }

/-- Only the spellings of the three options are asked about. -/
theorem layeredOver_congr {first second : List String → Bool} {overriding file : Options}
    (h : ∀ spellings ∈ fields, first spellings = second spellings) :
    overriding.layeredOver first file = overriding.layeredOver second file := by
  have htags := h definedTagsSpellings (by simp [fields])
  have hjsx := h jsxTagsSpellings (by simp [fields])
  have htyped := h typedSpellings (by simp [fields])
  simp only [layeredOver, htags, hjsx, htyped]

section

variable {overrides file : Dict Value} (hkeys : (Dict.keys overrides).Nodup)
  (hoverrides : keyComplaints (withoutNulls overrides) = []) (hfile : keyComplaints file = [])

include hkeys hoverrides hfile

/-- Of two tables that leave no key over, one put over the other leaves none over exactly if they
spell all options alike. -/
theorem keyComplaints_override_eq_nil_iff :
    keyComplaints (override overrides file) = [] ↔
      ∀ spellings ∈ fields, spelledAlike (withoutNulls overrides) file spellings = true := by
  rw [keyComplaints_eq_nil_iff] at hoverrides hfile ⊢
  constructor
  · -- Both spellings are keys of the outcome, and each option has one spelling there.
    intro h spellings hspellings
    have hunique : ∀ {key : String}, key ∈ spellings → key ∈ Dict.keys (override overrides file) →
        fieldSpelling? (override overrides file) spellings = some key := by
      intro key hkey hheld
      obtain ⟨other, hother, hfound⟩ := h key hheld
      rw [fields_apart spellings hspellings other hother key hkey (mem_of_fieldSpelling? hfound).1]
      exact hfound
    unfold spelledAlike
    cases hgiven : fieldSpelling? (withoutNulls overrides) spellings with
    | none => rfl
    | some given =>
      cases hheld : fieldSpelling? file spellings with
      | none => rfl
      | some held =>
        -- Both are keys of the outcome for one option, which is read from one key only.
        obtain ⟨hgivenMem, hgivenKey⟩ := mem_of_fieldSpelling? hgiven
        obtain ⟨hheldMem, hheldKey⟩ := mem_of_fieldSpelling? hheld
        have hone := hunique hgivenMem ((mem_keys_override hkeys).mpr (Or.inl hgivenKey))
        have htwo := hunique hheldMem ((mem_keys_override hkeys).mpr (Or.inr hheldKey))
        rw [hone] at htwo
        simpa using htwo
  · -- A key of either side is the spelling of an option there, and hence in the outcome.
    intro h key hkey
    rcases (mem_keys_override hkeys).mp hkey with hgiven | hheld
    · obtain ⟨spellings, hspellings, hfound⟩ := hoverrides key hgiven
      refine ⟨spellings, hspellings, ?_⟩
      rw [fieldSpelling?_override hkeys, wins_of_spelledAlike (h spellings hspellings), gives, hfound]
      simp
    · obtain ⟨spellings, hspellings, hfound⟩ := hfile key hheld
      refine ⟨spellings, hspellings, ?_⟩
      have halike := h spellings hspellings
      rw [fieldSpelling?_override hkeys, wins_of_spelledAlike halike, gives]
      unfold spelledAlike at halike
      cases hgiven : fieldSpelling? (withoutNulls overrides) spellings with
      | none => simp [hfound]
      | some given =>
        have heq : given = key := by simpa [hgiven, hfound] using halike
        simp [heq]

end

section

variable {overrides file : Dict Value} (hkeys : (Dict.keys overrides).Nodup)
  {overriding held : Options} (hoverrides : ofEntries (withoutNulls overrides) = .ok overriding)
  (hfile : ofEntries file = .ok held)

include hkeys hoverrides hfile

/-- Options that are in order on both sides are read under overrides from the sides that win them.
No field is at fault there, so only keys are complained about. Each of the three is a field of its
own, to which the same lemma applies. -/
theorem fields_override :
    complaints (override overrides file) = keyComplaints (override overrides file) ∧
      Options.mk (readDefinedTags (override overrides file))
          (readSwitch (override overrides file) jsxTagsSpellings)
          (readSwitch (override overrides file) typedSpellings) =
        overriding.layeredOver (wins (withoutNulls overrides) file) held := by
  obtain ⟨hnone, rfl⟩ := ofEntries_eq_ok_iff.mp hoverrides
  obtain ⟨hfileNone, rfl⟩ := ofEntries_eq_ok_iff.mp hfile
  obtain ⟨htags, hjsx, htyped, -⟩ := complaints_eq_nil_iff.mp hnone
  obtain ⟨hfileTags, hfileJsx, hfileTyped, -⟩ := complaints_eq_nil_iff.mp hfileNone
  -- Each field of the merged table is read as that of the overrides or as that of the file.
  obtain ⟨htagsNone, htagsRead⟩ := read_override definedTags_dependOnField hkeys htags hfileTags
  obtain ⟨hjsxNone, hjsxRead⟩ := read_override (switch_dependsOnField _) hkeys hjsx hfileJsx
  obtain ⟨htypedNone, htypedRead⟩ := read_override (switch_dependsOnField _) hkeys htyped hfileTyped
  refine ⟨?_, ?_⟩
  · unfold complaints
    rw [htagsNone, hjsxNone, htypedNone]
    rfl
  · rw [layeredOver, htagsRead, hjsxRead, htypedRead]

/-- Nothing is complained about exactly if both sides spell all options alike: no field is at fault,
and a key is left over exactly where the spellings differ. -/
theorem complaints_override_eq_nil_iff :
    complaints (override overrides file) = [] ↔
      ∀ spellings ∈ fields, spelledAlike (withoutNulls overrides) file spellings = true := by
  obtain ⟨hnone, -⟩ := ofEntries_eq_ok_iff.mp hoverrides
  obtain ⟨hfileNone, -⟩ := ofEntries_eq_ok_iff.mp hfile
  obtain ⟨-, -, -, hleft⟩ := complaints_eq_nil_iff.mp hnone
  obtain ⟨-, -, -, hfileLeft⟩ := complaints_eq_nil_iff.mp hfileNone
  rw [(fields_override hkeys hoverrides hfile).1]
  exact keyComplaints_override_eq_nil_iff hkeys hleft hfileLeft

/-- Options under overrides, if both sides spell all options alike: those that the overrides give
are theirs. -/
theorem ofEntries_override
    (halike : ∀ spellings ∈ fields, spelledAlike (withoutNulls overrides) file spellings = true) :
    ofEntries (override overrides file) =
      .ok (overriding.layeredOver (gives (withoutNulls overrides)) held) := by
  have hcomplaints := (complaints_override_eq_nil_iff hkeys hoverrides hfile).mpr halike
  refine ofEntries_eq_ok_iff.mpr ⟨hcomplaints, ?_⟩
  -- Spelled alike, an option is won by the overrides whenever they give it.
  rw [(fields_override hkeys hoverrides hfile).2]
  exact layeredOver_congr fun spellings hspellings => (wins_of_spelledAlike (halike spellings hspellings)).symm

/-- Options under overrides that spell one of them otherwise are rejected, for unknown keys only. -/
theorem ofEntries_override_eq_error
    (halike : ¬ ∀ spellings ∈ fields, spelledAlike (withoutNulls overrides) file spellings = true) :
    ∃ complaints, ofEntries (override overrides file) = .error ⟨.options, complaints⟩ ∧
      complaints ≠ [] ∧ ∀ complaint ∈ complaints, complaint.problem = .unknownKey := by
  have hsome : complaints (override overrides file) ≠ [] := fun hnil =>
    halike ((complaints_override_eq_nil_iff hkeys hoverrides hfile).mp hnil)
  refine ⟨complaints (override overrides file), ofEntries_eq_error hsome, hsome, ?_⟩
  intro complaint hcomplaint
  rw [(fields_override hkeys hoverrides hfile).1] at hcomplaint
  obtain ⟨key, -, rfl⟩ := List.mem_map.mp hcomplaint
  rfl

end

end Options

/-! ## Settings -/

namespace Settings

open Config

/-- Settings that take the given fields from one side and the others from the other. -/
def layeredOver (given : List String → Bool) (overriding file : Settings) : Settings :=
  { mode := if given modeSpellings then overriding.mode else file.mode
    tagNamePreference :=
      if given preferenceSpellings then overriding.tagNamePreference else file.tagNamePreference
    structuredTags :=
      if given structuredTagsSpellings then overriding.structuredTags else file.structuredTags }

/-- Settings under overrides: those that the overrides win are theirs. Settings do not complain
about keys that are left over, so this holds whatever the spellings are. -/
theorem ofEntries_override {overrides file : Dict Value} (hkeys : (Dict.keys overrides).Nodup)
    {overriding held : Settings} (hoverrides : ofEntries (withoutNulls overrides) = .ok overriding)
    (hfile : ofEntries file = .ok held) :
    ofEntries (override overrides file) =
      .ok (overriding.layeredOver (wins (withoutNulls overrides) file) held) := by
  obtain ⟨hnone, rfl⟩ := ofEntries_eq_ok_iff.mp hoverrides
  obtain ⟨hfileNone, rfl⟩ := ofEntries_eq_ok_iff.mp hfile
  obtain ⟨hmode, hpreference, hstructured⟩ := complaints_eq_nil_iff.mp hnone
  obtain ⟨hfileMode, hfilePreference, hfileStructured⟩ := complaints_eq_nil_iff.mp hfileNone
  obtain ⟨hmodeNone, hmodeRead⟩ := read_override mode_dependsOnField hkeys hmode hfileMode
  obtain ⟨hpreferenceNone, hpreferenceRead⟩ :=
    read_override (table_dependsOnField _) hkeys hpreference hfilePreference
  obtain ⟨hstructuredNone, hstructuredRead⟩ :=
    read_override (table_dependsOnField _) hkeys hstructured hfileStructured
  rw [ofEntries_eq_ok_iff, complaints_eq_nil_iff]
  refine ⟨⟨hmodeNone, hpreferenceNone, hstructuredNone⟩, ?_⟩
  rw [layeredOver, hmodeRead, hpreferenceRead, hstructuredRead]

end Settings

/-! ## Whole Configurations -/

namespace Config

/-- A configuration file and overrides, each of whose two parts is in order on its own, with the
options and settings that the file gives, and those that the overrides give. -/
structure SoundLayers (limits : Limits) (content : FileContent)
    (table optionsOverrides settingsOverrides : Dict Value) (file overriding : Options × Settings) : Prop where
  load_eq : load limits content = .ok table
  /-- The tables that a host hands in have distinct keys. -/
  optionsOverrides_keys : (Dict.keys optionsOverrides).Nodup
  settingsOverrides_keys : (Dict.keys settingsOverrides).Nodup
  file_options : Options.ofEntries (optionsSection table) = .ok file.1
  file_settings : Settings.ofEntries (settingsSection table) = .ok file.2
  /-- The overrides alone give options; those that are null are as if they were not given. -/
  overriding_options : Options.ofEntries (withoutNulls optionsOverrides) = .ok overriding.1
  overriding_settings : Settings.ofEntries (withoutNulls settingsOverrides) = .ok overriding.2

/-- A text that is written to a file is read as it is. -/
theorem load_toUTF8 (limits : Limits) (text : String) :
    load limits (.bytes text.toUTF8) = (tableOfText limits text).mapError .stopped := by
  have hread : String.fromUTF8? text.toUTF8 = some text := by
    rw [String.toUTF8, String.fromUTF8?, dif_pos text.isValidUTF8]
    rfl
  simp only [load, hread]

theorem loadResolved_of_load {limits : Limits} {content : FileContent} {table : Dict Value}
    (h : load limits content = .ok table) (optionsOverrides settingsOverrides : Dict Value) :
    loadResolved limits content optionsOverrides settingsOverrides =
      (resolve table optionsOverrides settingsOverrides).mapError .rejected := by
  unfold loadResolved
  rw [h]
  rfl

end Config

/-- **Overrides win over a file where they spell alike**: a configuration can be loaded exactly if
overrides and file spell alike all options that both give. Each option and setting that the
overrides give is then theirs, except for a setting that the file gives under an earlier spelling,
which stays. -/
theorem loadResolved_overrides (limits : Limits) (content : FileContent)
    (table optionsOverrides settingsOverrides : Dict Value) (file overriding : Options × Settings)
    (h : Config.SoundLayers limits content table optionsOverrides settingsOverrides file overriding) :
    let givenOptions := Config.withoutNulls optionsOverrides
    let givenSettings := Config.withoutNulls settingsOverrides
    let alike := ∀ spellings ∈ Options.fields,
      Config.spelledAlike givenOptions (Config.optionsSection table) spellings = true
    (alike → Config.loadResolved limits content optionsOverrides settingsOverrides =
      .ok (overriding.1.layeredOver (Config.gives givenOptions) file.1,
        overriding.2.layeredOver (Config.wins givenSettings (Config.settingsSection table)) file.2)) ∧
      (¬ alike → ∃ complaints, Config.loadResolved limits content optionsOverrides settingsOverrides =
        .error (.rejected ⟨.options, complaints⟩) ∧ complaints ≠ [] ∧
          ∀ complaint ∈ complaints, complaint.problem = .unknownKey) := by
  intro givenOptions givenSettings alike
  have hresolved := Config.loadResolved_of_load h.load_eq optionsOverrides settingsOverrides
  refine ⟨?_, ?_⟩
  · -- The options are read, and then the settings.
    intro halike
    have hoptions := Options.ofEntries_override h.optionsOverrides_keys h.overriding_options
      h.file_options halike
    have hsettings := Settings.ofEntries_override h.settingsOverrides_keys h.overriding_settings
      h.file_settings
    rw [hresolved, Config.resolve, hoptions, hsettings]
    rfl
  · -- The options are turned down first, whatever the settings say.
    intro halike
    obtain ⟨complaints, herror, hsome, hunknown⟩ := Options.ofEntries_override_eq_error
      h.optionsOverrides_keys h.overriding_options h.file_options halike
    refine ⟨complaints, ?_, hsome, hunknown⟩
    rw [hresolved, Config.resolve, herror]
    rfl

/-! ## A Sample File -/

namespace Config

/-- A document with an option and a setting, each under its first spelling. -/
def sampleText : String :=
  "[options]\ndefinedTags = [\"extra\"]\n" ++ "[settings.tagNamePreference]\nnote = \"remark\"\n"

/-- The file of the sample document. -/
def sampleFile : FileContent := .bytes sampleText.toUTF8

/-- The table of the sample document. -/
def sampleTable : Dict Value :=
  [("options", .table [("definedTags", .list [.text "extra"])]),
    ("settings", .table [("tagNamePreference", .table [("note", .text "remark")])])]

theorem tableOfText_sampleText : tableOfText .standard sampleText = .ok sampleTable := by
  cbv

theorem load_sampleFile : load .standard sampleFile = .ok sampleTable := by
  rw [sampleFile, load_toUTF8, tableOfText_sampleText]
  rfl

/-- The options and settings of the sample file. -/
def sampleConfig : Options × Settings :=
  ({ definedTags := ["extra"] }, { tagNamePreference := [("note", .text "remark")] })

/-- The sample file is in order, so only overrides remain to be looked at. -/
theorem soundLayers_sampleFile {optionsOverrides settingsOverrides : Dict Value}
    {overriding : Options × Settings} (hoptionsKeys : (Dict.keys optionsOverrides).Nodup)
    (hsettingsKeys : (Dict.keys settingsOverrides).Nodup)
    (hoptions : Options.ofEntries (withoutNulls optionsOverrides) = .ok overriding.1)
    (hsettings : Settings.ofEntries (withoutNulls settingsOverrides) = .ok overriding.2) :
    SoundLayers .standard sampleFile sampleTable optionsOverrides settingsOverrides sampleConfig overriding where
  load_eq := load_sampleFile
  optionsOverrides_keys := hoptionsKeys
  settingsOverrides_keys := hsettingsKeys
  file_options := by rfl
  file_settings := by rfl
  overriding_options := hoptions
  overriding_settings := hsettings

/-- Overrides for the preferences of the sample file, under the second spelling. -/
def samplePreferenceOverrides : Dict Value :=
  [("tag_name_preference", .table [("note", .text "hint")]), ("mode", .text "jsdoc")]

/-- What these overrides give. -/
def sampleSettings : Settings := { mode := .jsdoc, tagNamePreference := [("note", .text "hint")] }

end Config

/-- An option under the spelling of the file is overridden, and so is a setting that the file does
not give; a setting of the file under the first spelling stays if the overrides give it under the
second. -/
theorem loadResolved_sampleFile :
    let optionsOverrides : Dict Value := [("definedTags", .list [.text "mine"]), ("typed", .null)]
    Config.SoundLayers .standard Config.sampleFile Config.sampleTable optionsOverrides
        Config.samplePreferenceOverrides Config.sampleConfig
        ({ definedTags := ["mine"] }, Config.sampleSettings) ∧
      Config.loadResolved .standard Config.sampleFile optionsOverrides Config.samplePreferenceOverrides =
        .ok ({ definedTags := ["mine"] },
          { mode := .jsdoc, tagNamePreference := [("note", .text "remark")] }) := by
  intro optionsOverrides
  have hlayers : Config.SoundLayers .standard Config.sampleFile Config.sampleTable optionsOverrides
      Config.samplePreferenceOverrides Config.sampleConfig
      ({ definedTags := ["mine"] }, Config.sampleSettings) :=
    Config.soundLayers_sampleFile (by decide) (by decide) (by rfl) (by rfl)
  exact ⟨hlayers, (loadResolved_overrides _ _ _ _ _ _ _ hlayers).1 (by decide)⟩

/-- An option under another spelling than that of the file makes loading fail, and a setting under
the second spelling does not win over the first. -/
theorem overrides_may_lose :
    (¬ ∀ (content : FileContent) (table optionsOverrides settingsOverrides : Dict Value)
        (file overriding : Options × Settings),
      Config.SoundLayers .standard content table optionsOverrides settingsOverrides file overriding →
      ∃ loaded, Config.loadResolved .standard content optionsOverrides settingsOverrides = .ok loaded) ∧
    (¬ ∀ (content : FileContent) (table optionsOverrides settingsOverrides : Dict Value)
        (file overriding loaded : Options × Settings),
      Config.SoundLayers .standard content table optionsOverrides settingsOverrides file overriding →
      Config.loadResolved .standard content optionsOverrides settingsOverrides = .ok loaded →
      loaded.2 = overriding.2.layeredOver (Config.gives (Config.withoutNulls settingsOverrides)) file.2) := by
  refine ⟨?_, ?_⟩
  · intro h
    have hlayers : Config.SoundLayers .standard Config.sampleFile Config.sampleTable
        [("defined_tags", .list [.text "mine"])] [] Config.sampleConfig ({ definedTags := ["mine"] }, {}) :=
      Config.soundLayers_sampleFile (by decide) (by decide) (by rfl) (by rfl)
    obtain ⟨loaded, hloaded⟩ := h _ _ _ _ _ _ hlayers
    rw [Config.loadResolved_of_load Config.load_sampleFile] at hloaded
    -- Both spellings stand in the merged table, and one of them is left over.
    cases hloaded
  · -- The file gives the setting under its first spelling, which is looked for first.
    intro h
    have hloaded : Config.loadResolved .standard Config.sampleFile [] Config.samplePreferenceOverrides =
        .ok ({ definedTags := ["extra"] },
          { mode := .jsdoc, tagNamePreference := [("note", .text "remark")] }) := by
      rw [Config.loadResolved_of_load Config.load_sampleFile]
      rfl
    have hsame := h _ _ _ _ _ ({}, Config.sampleSettings) _
      (Config.soundLayers_sampleFile (by decide) (by decide) (by rfl) (by rfl)) hloaded
    have hpreference := congrArg Settings.tagNamePreference hsame
    have hgives : Config.gives (Config.withoutNulls Config.samplePreferenceOverrides)
        Settings.preferenceSpellings = true := by decide
    simp [Settings.layeredOver, hgives, Config.sampleSettings] at hpreference

end DocLint
