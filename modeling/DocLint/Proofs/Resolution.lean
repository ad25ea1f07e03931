import DocLint.Policy.Resolution
import DocLint.Proofs.PreferenceMerge
import DocLint.Proofs.Synonyms

/-!
# Resolving Names by the Configuration

A policy resolves a name by collections that were gathered from the whole configuration. The same
resolution can be read off the configuration itself, by looking up the entries that speak of the name.
Main statement: `resolve_ofConfig`, by which the two agree for every name.
-/

namespace DocLint

/-! ## What a Policy Gathers -/

namespace Policy

/-- The names that preferences steer to are the targets of the preferences held, the empty one
apart. -/
theorem mem_targets_iff {policy : Policy} {target : String} :
    target ∈ policy.targets ↔
      target ≠ "" ∧ ∃ name message, (name, Preference.rename target message) ∈ policy.preferences := by
  unfold targets Dict.values
  rw [List.mem_filterMap]
  constructor
  · -- What a preference steers to is its target, if it is a preference for another name at all.
    rintro ⟨preference, hmem, htarget⟩
    obtain ⟨⟨name, other⟩, hentry, heq⟩ := List.mem_map.mp hmem
    cases heq
    rw [Option.filter_eq_some_iff] at htarget
    cases other with
    | block message => simp [Preference.target?] at htarget
    | rename steered message =>
      have hsteered : steered = target := by simpa [Preference.target?] using htarget.1
      subst hsteered
      exact ⟨by simpa using htarget.2, name, message, hentry⟩
  · rintro ⟨hne, name, message, hentry⟩
    refine ⟨.rename target message, List.mem_map.mpr ⟨_, hentry, rfl⟩, ?_⟩
    rw [Option.filter_eq_some_iff]
    exact ⟨rfl, by simpa using hne⟩

theorem mem_targets_of_get? {policy : Policy} {name target : String} {message : Option String}
    (h : Dict.get? policy.preferences name = some (.rename target message)) (hne : target ≠ "") :
    target ∈ policy.targets :=
  mem_targets_iff.mpr ⟨hne, name, message, Dict.mem_of_get? h⟩

/-- A name is known for one of five reasons. -/
theorem allows_iff {policy : Policy} {name : String} :
    policy.allows name = true ↔
      name ∈ policy.builtinNames ∨ name ∈ policy.definedNames ∨ name ∈ policy.preferenceNames ∨
        name ∈ policy.targets ∨ name ∈ policy.structuredNames := by
  simp only [allows, Bool.or_eq_true, List.contains_iff_mem, or_assoc]

/-- What a policy says of a known name that no preference steers to. -/
def resolveUntargeted (policy : Policy) (name : String) : Resolution :=
  match Dict.get? policy.preferences name with
  | some preference => resolvePreference name preference
  | none => policy.resolveSynonym name

/-- The questions that resolving asks, in their order. Proofs go by this and leave the rest
closed. -/
theorem resolve_eq (policy : Policy) (name : String) :
    policy.resolve name =
      if policy.isExempt name then .exempt
      else if !policy.allows name then .invalid
      else if policy.targets.contains name then .valid
      else policy.resolveUntargeted name := rfl

/-- A preference or a synonym makes no name exempt or unknown. -/
theorem resolveUntargeted_ne (policy : Policy) (name : String) :
    policy.resolveUntargeted name ≠ .exempt ∧ policy.resolveUntargeted name ≠ .invalid := by
  unfold resolveUntargeted resolveSynonym resolvePreference
  cases Dict.get? policy.preferences name with
  | some preference =>
    cases preference with
    | block message => simp
    | rename target message => by_cases h : target = name <;> simp [h]
  | none =>
    cases Dict.get? policy.synonyms name with
    | none => simp
    | some canonical => by_cases h : canonical = name <;> simp [h]

/-- Only the tags of the JSX pragmas resolve as exempt. -/
theorem resolve_eq_exempt_iff {policy : Policy} {name : String} :
    policy.resolve name = .exempt ↔ policy.isExempt name = true := by
  have hrest := (policy.resolveUntargeted_ne name).1
  rw [resolve_eq]
  by_cases hexempt : policy.isExempt name = true
  · simp [hexempt]
  · cases policy.allows name <;> by_cases htarget : name ∈ policy.targets <;> simp [hexempt, htarget, hrest]

/-- Only unknown names resolve as invalid. -/
theorem resolve_eq_invalid_iff {policy : Policy} {name : String} :
    policy.resolve name = .invalid ↔ policy.isExempt name = false ∧ policy.allows name = false := by
  have hrest := (policy.resolveUntargeted_ne name).2
  rw [resolve_eq]
  by_cases hexempt : policy.isExempt name = true
  · simp [hexempt]
  · cases policy.allows name <;> by_cases htarget : name ∈ policy.targets <;> simp [hexempt, htarget, hrest]

end Policy

/-! ## The Configuration Itself -/

namespace Settings

/-- The name that a key speaks of: what follows `tag` and a blank, or else the whole key. -/
def nameOfKey (key : String) : String :=
  if "tag ".toList <+: key.toList then String.ofList (key.toList.drop "tag ".length) else key

/-- The names for which the settings have a raw preference, under either kind of key. -/
def preferenceNames (settings : Settings) : List String :=
  (Dict.keys settings.tagNamePreference).map nameOfKey

/-- The names, the empty one apart, that the preferences that count steer to. A preference that
another one replaces has no say, nor has one that is malformed. -/
def targets (settings : Settings) : List String :=
  settings.preferenceNames.filterMap fun name =>
    ((settings.preference? name).bind Preference.target?).filter fun target => target != ""

/-- Whether a name is built in, defined, structured, given a preference or steered to. -/
def knows (settings : Settings) (options : Options) (name : String) : Bool :=
  settings.mode.names.contains name || options.definedTags.contains name ||
    (Dict.keys settings.structuredTags).contains name || settings.preferenceNames.contains name ||
    settings.targets.contains name

/-- What the settings say of a known name that nothing steers to: its preference decides, and
without a well-formed one the synonyms of the mode do. -/
def verdict (settings : Settings) (name : String) : Resolution :=
  match settings.preference? name with
  | some (.block message) => .blocked (message.getD (Policy.blockedMessage name))
  | some (.rename target message) => .preferred target message
  | none =>
    match Dict.get? settings.mode.synonyms name with
    | some canonical => .preferred canonical none
    | none => .valid

/-- What a configuration says of a name, as four look-ups in the options and settings: nothing is
gathered from them first. -/
def resolution (settings : Settings) (options : Options) (name : String) : Resolution :=
  if options.jsxTags && Vocabulary.jsxNames.contains name then .exempt
  else if !settings.knows options name then .invalid
  else if settings.targets.contains name then .valid
  else settings.verdict name

end Settings

/-! ## Agreement -/

namespace Policy

/-- The name that a key speaks of is the one that it is taken in under. -/
theorem getD_tagWordStripped? (key : String) :
    (tagWordStripped? key).getD key = Settings.nameOfKey key := by
  unfold Settings.nameOfKey
  cases hkey : tagWordStripped? key with
  | none =>
    have hplain : ¬ "tag ".toList <+: key.toList := by
      rw [← isSome_tagWordStripped?_iff, hkey]
      simp
    rw [if_neg hplain, Option.getD_none]
  | some name =>
    have hmarked : "tag ".toList <+: key.toList := by
      rw [← isSome_tagWordStripped?_iff, hkey]
      rfl
    have hword : "tag ".toList.length = "tag ".length := by decide
    rw [if_pos hmarked, Option.getD_some, tagWordStripped?_eq_some_iff.mp hkey, String.toList_append,
      ← hword, List.drop_left, String.ofList_toList]

/-- The names of the raw preferences that are taken in are those that the keys speak of. -/
theorem mem_preferenceEntries_names_iff {settings : Settings} {name : String} :
    name ∈ (preferenceEntries settings.tagNamePreference).map (·.1) ↔
      name ∈ settings.preferenceNames := by
  unfold Settings.preferenceNames Dict.keys
  rw [preferenceEntries_eq, List.map_append, List.mem_append, List.map_map]
  constructor
  · -- Every entry taken in is from a key, bare or not.
    rintro (hbare | htag)
    · obtain ⟨⟨key, value⟩, hmem, rfl⟩ := List.mem_map.mp hbare
      obtain ⟨hraw, hnone⟩ := List.mem_filter.mp hmem
      refine List.mem_map.mpr ⟨(key, value), hraw, ?_⟩
      simp only [Function.comp_apply, ← getD_tagWordStripped?, Option.isNone_iff_eq_none.mp hnone,
        Option.getD_none]
    · obtain ⟨⟨stripped, value⟩, hmem, rfl⟩ := List.mem_map.mp htag
      obtain ⟨⟨key, other⟩, hraw, hentry⟩ := List.mem_filterMap.mp hmem
      obtain ⟨found, hfound, heq⟩ := Option.map_eq_some_iff.mp hentry
      cases heq
      refine List.mem_map.mpr ⟨(key, value), hraw, ?_⟩
      simp only [Function.comp_apply, ← getD_tagWordStripped?, hfound, Option.getD_some]
  · -- Every key is in one of the two parts, by what it looks like.
    intro h
    obtain ⟨⟨key, value⟩, hraw, hname⟩ := List.mem_map.mp h
    rw [Function.comp_apply, ← getD_tagWordStripped?] at hname
    cases hkey : tagWordStripped? key with
    | none =>
      have heq : key = name := by simpa [hkey] using hname
      subst heq
      exact Or.inl (List.mem_map.mpr ⟨(key, value), List.mem_filter.mpr ⟨hraw, by simp [hkey]⟩, rfl⟩)
    | some stripped =>
      have heq : stripped = name := by simpa [hkey] using hname
      subst heq
      have hentry : (stripped, value) ∈ tagWordEntries settings.tagNamePreference :=
        List.mem_filterMap.mpr ⟨(key, value), hraw, by simp [hkey]⟩
      exact Or.inr (List.mem_map.mpr ⟨_, hentry, rfl⟩)

section

variable {settings : Settings} (hkeys : (Dict.keys settings.tagNamePreference).Nodup)

include hkeys

theorem mem_preferenceNames_of_preference? {name : String} {preference : Preference}
    (h : settings.preference? name = some preference) : name ∈ settings.preferenceNames := by
  rw [← get?_preferencesOf hkeys] at h
  obtain ⟨value, hmem, -⟩ := exists_mem_of_get?_preferencesOf h
  exact mem_preferenceEntries_names_iff.mp (List.mem_map.mpr ⟨_, hmem, rfl⟩)

/-- The policy steers to the names that the preferences of the settings steer to. -/
theorem mem_targets_ofConfig_iff {options : Options} {target : String} :
    target ∈ (ofConfig options settings).targets ↔ target ∈ settings.targets := by
  unfold Settings.targets
  rw [mem_targets_iff, List.mem_filterMap, preferences_ofConfig]
  constructor
  · -- A preference that the policy holds is the one that counts for its name.
    rintro ⟨hne, name, message, hmem⟩
    have hpreference : settings.preference? name = some (.rename target message) := by
      rw [← get?_preferencesOf hkeys]
      exact Dict.get?_of_mem (nodup_keys_preferencesOf _) hmem
    refine ⟨name, mem_preferenceNames_of_preference? hkeys hpreference, ?_⟩
    rw [Option.filter_eq_some_iff, hpreference]
    exact ⟨rfl, by simpa using hne⟩
  · -- And the other way round: the preference that counts is held.
    rintro ⟨name, -, htarget⟩
    rw [Option.filter_eq_some_iff, Option.bind_eq_some_iff] at htarget
    obtain ⟨⟨preference, hpreference, hsteered⟩, hne⟩ := htarget
    refine ⟨by simpa using hne, name, ?_⟩
    cases preference with
    | block message => cases hsteered
    | rename steered message =>
      cases hsteered
      rw [← get?_preferencesOf hkeys] at hpreference
      exact ⟨message, Dict.mem_of_get? hpreference⟩

theorem allows_ofConfig (options : Options) (name : String) :
    (ofConfig options settings).allows name = settings.knows options name := by
  rw [Bool.eq_iff_iff, allows_iff, mem_targets_ofConfig_iff hkeys]
  simp only [Settings.knows, Bool.or_eq_true, List.contains_iff_mem]
  have hnames : name ∈ (ofConfig options settings).preferenceNames ↔ name ∈ settings.preferenceNames := by
    rw [preferenceNames_ofConfig]
    exact mem_preferenceEntries_names_iff
  rw [hnames]
  unfold ofConfig build
  tauto

/-- What a policy says of a known name that nothing steers to is the verdict of the settings. -/
theorem resolveUntargeted_ofConfig (options : Options) {name : String}
    (hname : name ∉ settings.targets) :
    (ofConfig options settings).resolveUntargeted name = settings.verdict name := by
  have hpreference : Dict.get? (ofConfig options settings).preferences name =
      settings.preference? name := by
    rw [preferences_ofConfig, get?_preferencesOf hkeys]
  unfold resolveUntargeted Settings.verdict
  rw [hpreference]
  cases hcase : settings.preference? name with
  | none =>
    -- Nothing well-formed is said of the name, so the synonyms of the mode decide.
    have hsynonyms : (ofConfig options settings).synonyms = settings.mode.synonyms := rfl
    simp only [resolveSynonym, hsynonyms]
    cases hsynonym : Dict.get? settings.mode.synonyms name with
    | none => rfl
    | some canonical => simp only [if_neg (Mode.canonical_ne_synonym hsynonym)]
  | some preference =>
    obtain ⟨value, -, hvalue⟩ := Option.bind_eq_some_iff.mp hcase
    have hproper := Preference.isProper_of_ofValue? hvalue
    cases preference with
    | block message =>
      -- The default message stands in for an empty one too, but a proper preference has none.
      have hmessage : messageOr message (blockedMessage name) =
          message.getD (blockedMessage name) := by
        cases message with
        | none => rfl
        | some text =>
          have htext : text ≠ "" := fun heq => hproper (by rw [heq])
          simp only [messageOr, if_neg htext, Option.getD_some]
      simp only [resolvePreference, hmessage]
    | rename target message =>
      -- A name that steers to itself would be a target.
      have hne : target ≠ name := by
        rintro rfl
        rw [← mem_targets_ofConfig_iff hkeys] at hname
        exact hname (mem_targets_of_get? (hpreference.trans hcase) hproper.1)
      simp only [resolvePreference, if_neg hne]

end

end Policy

/-- **Resolving is looking up**: the policy of options and settings, whose preferences are held
under distinct keys, says of every name what the configuration says of it. -/
theorem resolve_ofConfig (options : Options) (settings : Settings)
    (hkeys : (Dict.keys settings.tagNamePreference).Nodup) (name : String) :
    (Policy.ofConfig options settings).resolve name = settings.resolution options name := by
  -- The three questions that come first are answered alike on both sides.
  have htargets : (Policy.ofConfig options settings).targets.contains name =
      settings.targets.contains name := by
    rw [Bool.eq_iff_iff, List.contains_iff_mem, List.contains_iff_mem]
    exact Policy.mem_targets_ofConfig_iff hkeys
  have hexempt : (Policy.ofConfig options settings).isExempt name =
      (options.jsxTags && Vocabulary.jsxNames.contains name) := rfl
  unfold Settings.resolution
  rw [Policy.resolve_eq, hexempt, Policy.allows_ofConfig hkeys, htargets]
  by_cases hname : name ∈ settings.targets
  · simp only [List.contains_iff_mem.mpr hname, if_true]
  · -- Only here does what the name's own entry says matter.
    rw [Policy.resolveUntargeted_ofConfig hkeys options hname]

/-- Of two raw preferences for one name, the one under `tag` and the name counts, and with the other
goes what it steers to. -/
theorem resolve_ofConfig_marked_key :
    let settings : Settings :=
      { tagNamePreference := [("tag note", .bool false), ("note", .text "remark"), ("tag tag x", .text "x")] }
    (Dict.keys settings.tagNamePreference).Nodup ∧
      (Policy.ofConfig {} settings).resolve "note" = .blocked "Blacklisted tag found (`@note`)" ∧
      (Policy.ofConfig {} settings).resolve "remark" = .invalid ∧
      (Policy.ofConfig {} settings).resolve "tag x" = .preferred "x" none := by
  intro settings
  have hkeys : (Dict.keys settings.tagNamePreference).Nodup := by decide
  refine ⟨hkeys, ?_, ?_, ?_⟩
  · exact (resolve_ofConfig {} settings hkeys "note").trans (by decide +kernel)
  · exact (resolve_ofConfig {} settings hkeys "remark").trans (by decide +kernel)
  · exact (resolve_ofConfig {} settings hkeys "tag x").trans (by decide +kernel)

end DocLint
