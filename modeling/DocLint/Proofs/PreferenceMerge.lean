import DocLint.Policy.Basic
import DocLint.Proofs.Lookup
import Mathlib.Data.List.Nodup

/-!
# Merging Preferences

The raw preferences of a configuration are taken in one after the other, those under `tag` and a name
last. Main statements: `get?_preferencesOf`, by which the outcome for a name depends on one raw preference
only, found by a plain look-up, and `intakeOf_eq`, which says what is gathered on the way. What each raw
preference can become is said first.
-/

namespace DocLint

/-! ## What a Raw Preference Can Become -/

namespace Preference

theorem messageOf_ne_some_empty (entries : Dict Value) : messageOf entries ≠ some "" := by
  unfold messageOf
  split
  · split <;> simp_all
  · simp

/-- Whether the texts of a preference say something. -/
def IsProper : Preference → Prop
  | .block message => message ≠ some ""
  | .rename target message => target ≠ "" ∧ message ≠ some ""

/-- The preference of an object has no empty texts, since an empty replacement is void. -/
theorem isProper_of_ofEntries? {entries : Dict Value} {preference : Preference}
    (h : ofEntries? entries = some preference) : preference.IsProper := by
  have hmessage := messageOf_ne_some_empty entries
  simp only [ofEntries?] at h
  cases hreplacement : Dict.get? entries "replacement" with
  | none =>
    simp only [hreplacement, Option.some.injEq] at h
    exact h ▸ hmessage
  | some replacement =>
    simp only [hreplacement] at h
    by_cases hvoid : replacement.isVoid = true
    -- A void replacement blocks the tag, and a text that is not void is not empty.
    · simp only [hvoid, if_true, Option.some.injEq] at h
      exact h ▸ hmessage
    · cases replacement with
      | text target =>
        have htarget : target ≠ "" := by simpa [Value.isVoid] using hvoid
        simp only [hvoid, Bool.false_eq_true, if_false, Option.some.injEq] at h
        exact h ▸ ⟨htarget, hmessage⟩
      | _ => simp [hvoid] at h

/-- The preference of a value has no empty texts. -/
theorem isProper_of_ofValue? {value : Value} {preference : Preference}
    (h : ofValue? value = some preference) : preference.IsProper := by
  -- A value that is void blocks the tag without a message.
  have hblock : some (Preference.block none) = some preference → preference.IsProper := by
    intro heq
    cases heq
    simp [IsProper]
  cases value with
  | text s =>
    by_cases hs : s = ""
    · simp only [ofValue?, hs, if_true] at h
      exact hblock h
    · simp only [ofValue?, hs, if_false, Option.some.injEq] at h
      exact h ▸ ⟨hs, by simp⟩
  | table entries => exact isProper_of_ofEntries? h
  | null => exact hblock h
  | bool b =>
    cases b with
    | false => exact hblock h
    | true => simp [ofValue?] at h
  | int i =>
    by_cases hi : i = 0
    · exact hblock (by simpa [ofValue?, hi] using h)
    · simp [ofValue?, hi] at h
  | float x =>
    by_cases hx : x.isZero = true
    · exact hblock (by simpa [ofValue?, hx] using h)
    · simp [ofValue?, hx] at h
  | moment m => simp [ofValue?] at h
  | list items => simp [ofValue?] at h

end Preference

/-! ## Keys of Preferences -/

namespace Policy

/-- A key gives a name after `tag` and a blank exactly if it is made of the two. -/
theorem tagWordStripped?_eq_some_iff {key name : String} :
    tagWordStripped? key = some name ↔ key = "tag " ++ name := by
  -- The word is matched character by character, so both sides are compared as lists.
  have hword : "tag ".toList = ['t', 'a', 'g', ' '] := by decide
  rw [← String.toList_inj, String.toList_append, hword]
  unfold tagWordStripped?
  split
  · rename_i rest hkey
    rw [hkey, Option.some.injEq, ← String.toList_inj, String.toList_ofList]
    simp
  · rename_i hkey
    constructor
    · simp
    · intro heq
      exact absurd heq (hkey _)

/-- Any other key is a bare name. -/
theorem tagWordStripped?_eq_none_iff {key : String} :
    tagWordStripped? key = none ↔ ∀ name, key ≠ "tag " ++ name := by
  constructor
  · intro h name heq
    rw [tagWordStripped?_eq_some_iff.mpr heq] at h
    cases h
  · intro h
    cases hkey : tagWordStripped? key with
    | none => rfl
    | some name => exact absurd (tagWordStripped?_eq_some_iff.mp hkey) (h name)

/-- The raw preferences under bare names. -/
def bareEntries (raw : Dict Value) : Dict Value :=
  raw.filter fun (key, _) => (tagWordStripped? key).isNone

/-- The raw preferences under `tag` and a name, each with that name. -/
def tagWordEntries (raw : Dict Value) : Dict Value :=
  raw.filterMap fun (key, value) => (tagWordStripped? key).map fun name => (name, value)

/-- Bare names come first, so that those with `tag` can replace them. -/
theorem preferenceEntries_eq (raw : Dict Value) :
    preferenceEntries raw = bareEntries raw ++ tagWordEntries raw := rfl

/-- Among the preferences under bare names, a name that starts with `tag` and a blank has none. -/
theorem get?_bareEntries (raw : Dict Value) (name : String) :
    Dict.get? (bareEntries raw) name =
      if (tagWordStripped? name).isSome then none else Dict.get? raw name := by
  induction raw with
  | nil => simp [bareEntries, Dict.get?]
  | cons entry rest ih =>
    obtain ⟨key, value⟩ := entry
    unfold bareEntries at ih ⊢
    cases hkey : tagWordStripped? key with
    | none =>
      by_cases heq : key = name
      · have hname : tagWordStripped? name = none := heq ▸ hkey
        simp [Dict.get?, heq, hname]
      · simp [hkey, Dict.get?, heq, ih]
    | some stripped =>
      -- The entry is left out, and if it is of this very name, so are all others of the name.
      by_cases heq : key = name
      · have hname : tagWordStripped? name = some stripped := heq ▸ hkey
        simp [hkey, hname, ih]
      · simp [hkey, Dict.get?, heq, ih]

/-- Among the preferences with `tag`, a name has the value of the key that is made of the two. -/
theorem get?_tagWordEntries (raw : Dict Value) (name : String) :
    Dict.get? (tagWordEntries raw) name = Dict.get? raw ("tag " ++ name) := by
  induction raw with
  | nil => rfl
  | cons entry rest ih =>
    obtain ⟨key, value⟩ := entry
    unfold tagWordEntries at ih ⊢
    cases hkey : tagWordStripped? key with
    -- A bare key is not taken in here, and is not the key that is looked for.
    | none =>
      have hne : key ≠ "tag " ++ name := tagWordStripped?_eq_none_iff.mp hkey name
      simp [hkey, Dict.get?, hne, ih]
    | some stripped =>
      have hstripped : key = "tag " ++ stripped := tagWordStripped?_eq_some_iff.mp hkey
      by_cases heq : stripped = name
      · subst heq
        simp [hkey, Dict.get?, hstripped.symm]
      · have hne : key ≠ "tag " ++ name := by
          intro hname
          have := tagWordStripped?_eq_some_iff.mpr hname
          rw [hkey, Option.some.injEq] at this
          exact heq this
        simp [hkey, Dict.get?, heq, hne, ih]

theorem nodup_keys_bareEntries {raw : Dict Value} (hraw : (Dict.keys raw).Nodup) :
    (Dict.keys (bareEntries raw)).Nodup :=
  hraw.sublist (List.filter_sublist.map _)

/-- The names after `tag` and a blank are as distinct as the keys. -/
theorem nodup_keys_tagWordEntries {raw : Dict Value} (hraw : (Dict.keys raw).Nodup) :
    (Dict.keys (tagWordEntries raw)).Nodup := by
  have hkeys : Dict.keys (tagWordEntries raw) = (Dict.keys raw).filterMap tagWordStripped? := by
    unfold Dict.keys tagWordEntries
    rw [List.map_filterMap, List.filterMap_map]
    congr 1
    funext entry
    cases h : tagWordStripped? entry.1 <;> simp [h]
  rw [hkeys]
  -- Two keys that leave the same name are the same key.
  refine hraw.filterMap ?_
  intro key other name hkey hother
  rw [Option.mem_def, tagWordStripped?_eq_some_iff] at hkey hother
  rw [hkey, hother]

/-! ## Taking Preferences In -/

/-- The preferences of raw entries, of which later ones win. -/
def preferencesOf (entries : List (String × Value)) : Dict Preference :=
  entries.foldl addPreference []

/-- A raw preference decides about its own name, malformed or not: what was held for the name before
is replaced, or goes. -/
theorem get?_addPreference_self (preferences : Dict Preference) (name : String) (value : Value) :
    Dict.get? (addPreference preferences (name, value)) name = Preference.ofValue? value := by
  unfold addPreference
  cases Preference.ofValue? value with
  | none => exact Dict.get?_erase_self preferences name
  | some preference => exact Dict.get?_set_self preferences name preference

theorem get?_addPreference_of_ne (preferences : Dict Preference) {name other : String} (value : Value)
    (h : name ≠ other) :
    Dict.get? (addPreference preferences (name, value)) other = Dict.get? preferences other := by
  unfold addPreference
  cases Preference.ofValue? value with
  | none => exact Dict.get?_erase_of_ne preferences h
  | some preference => exact Dict.get?_set_of_ne preferences preference h

theorem nodup_keys_addPreference {preferences : Dict Preference} (h : (Dict.keys preferences).Nodup)
    (entry : String × Value) : (Dict.keys (addPreference preferences entry)).Nodup := by
  unfold addPreference
  cases Preference.ofValue? entry.2 with
  | none => exact Dict.nodup_keys_erase h entry.1
  | some preference => exact Dict.nodup_keys_set h entry.1 preference

/-- Taking in raw preferences of distinct names: each decides about its name, and other names keep
what they had. -/
theorem get?_foldl_addPreference {entries : Dict Value} (hentries : (Dict.keys entries).Nodup)
    (start : Dict Preference) (name : String) :
    Dict.get? (entries.foldl addPreference start) name =
      match Dict.get? entries name with
      | some value => Preference.ofValue? value
      | none => Dict.get? start name := by
  -- What the first entry makes of the start is the start for the rest.
  induction entries generalizing start with
  | nil => rfl
  | cons entry rest ih =>
    obtain ⟨key, value⟩ := entry
    have hparts : key ∉ Dict.keys rest ∧ (Dict.keys rest).Nodup := by
      simpa [Dict.keys] using hentries
    rw [List.foldl_cons, ih hparts.2]
    by_cases heq : key = name
    · -- The names are distinct, so nothing later speaks of this one.
      subst heq
      have hrest : Dict.get? rest key = none := (Dict.get?_eq_none_iff rest key).mpr hparts.1
      rw [hrest]
      simp only [Dict.get?, if_true]
      exact get?_addPreference_self start key value
    · simp only [Dict.get?, if_neg heq]
      rw [get?_addPreference_of_ne start value heq]

/-- A preference that was taken in stems from a raw preference for its name. -/
theorem exists_mem_of_get?_foldl_addPreference {entries : List (String × Value)}
    {start : Dict Preference} {name : String} {preference : Preference}
    (h : Dict.get? (entries.foldl addPreference start) name = some preference) :
    (∃ value, (name, value) ∈ entries ∧ Preference.ofValue? value = some preference) ∨
      Dict.get? start name = some preference := by
  -- The start is kept general: what was taken in before is the start for the rest.
  induction entries generalizing start with
  | nil => exact Or.inr h
  | cons entry rest ih =>
    obtain ⟨key, value⟩ := entry
    rw [List.foldl_cons] at h
    rcases ih h with ⟨later, hmem, hlater⟩ | hstart
    · exact Or.inl ⟨later, List.mem_cons_of_mem _ hmem, hlater⟩
    · by_cases heq : key = name
      · subst heq
        rw [get?_addPreference_self] at hstart
        exact Or.inl ⟨value, List.mem_cons_self .., hstart⟩
      · rw [get?_addPreference_of_ne start value heq] at hstart
        exact Or.inr hstart

/-- No name has two preferences. -/
theorem nodup_keys_preferencesOf (entries : List (String × Value)) :
    (Dict.keys (preferencesOf entries)).Nodup := by
  have hfold : ∀ (entries : List (String × Value)) (start : Dict Preference),
      (Dict.keys start).Nodup → (Dict.keys (entries.foldl addPreference start)).Nodup := by
    intro entries
    induction entries with
    | nil => exact fun _ h => h
    | cons entry rest ih =>
      intro start hstart
      exact ih _ (nodup_keys_addPreference hstart entry)
  exact hfold entries [] List.nodup_nil

/-- A preference stems from a raw one for its name, for there is none to start with. -/
theorem exists_mem_of_get?_preferencesOf {entries : List (String × Value)} {name : String}
    {preference : Preference} (h : Dict.get? (preferencesOf entries) name = some preference) :
    ∃ value, (name, value) ∈ entries ∧ Preference.ofValue? value = some preference := by
  rcases exists_mem_of_get?_foldl_addPreference h with hmem | hnil
  · exact hmem
  · cases hnil

/-! ## What Is Gathered -/

/-- What was taken in before stays, and whether it was malformed too. -/
theorem foldl_add (entries : List (String × Value)) (start : Intake) :
    entries.foldl Intake.add start =
      { preferences := entries.foldl addPreference start.preferences
        names := start.names ++ entries.map (·.1)
        malformed := start.malformed || entries.any fun entry => (Preference.ofValue? entry.2).isNone } := by
  induction entries generalizing start with
  | nil => simp
  | cons entry rest ih =>
    rw [List.foldl_cons, ih]
    simp [Intake.add, Bool.or_assoc]

/-- The raw preferences are the values under either kind of key. -/
theorem exists_mem_preferenceEntries_iff (raw : Dict Value) (p : Value → Prop) :
    (∃ entry ∈ preferenceEntries raw, p entry.2) ↔ ∃ entry ∈ raw, p entry.2 := by
  simp only [preferenceEntries_eq, List.mem_append, bareEntries, tagWordEntries, List.mem_filter,
    List.mem_filterMap]
  constructor
  · rintro ⟨entry, ⟨hmem, -⟩ | ⟨held, hmem, hname⟩, hp⟩
    · exact ⟨entry, hmem, hp⟩
    · obtain ⟨name, -, rfl⟩ := Option.map_eq_some_iff.mp hname
      exact ⟨held, hmem, hp⟩
  · rintro ⟨⟨key, value⟩, hmem, hp⟩
    -- Whatever the key, its value comes along.
    cases hkey : tagWordStripped? key with
    | none => exact ⟨(key, value), Or.inl ⟨hmem, by simp [hkey]⟩, hp⟩
    | some name => exact ⟨(name, value), Or.inr ⟨(key, value), hmem, by simp [hkey]⟩, hp⟩

/-- Whether some raw preference is malformed. -/
def hasMalformed (raw : Dict Value) : Bool :=
  raw.any fun entry => (Preference.ofValue? entry.2).isNone

/-- What is gathered from raw preferences, said without the order of keys for all but the
preferences. -/
theorem intakeOf_eq (raw : Dict Value) :
    intakeOf raw =
      { preferences := preferencesOf (preferenceEntries raw)
        names := (preferenceEntries raw).map (·.1)
        malformed := hasMalformed raw } := by
  -- No raw preference gets lost when the keys are sorted into the two kinds.
  have hmalformed : ((preferenceEntries raw).any fun entry => (Preference.ofValue? entry.2).isNone) =
      hasMalformed raw := by
    rw [Bool.eq_iff_iff, hasMalformed, List.any_eq_true, List.any_eq_true]
    apply exists_mem_preferenceEntries_iff raw fun value => (Preference.ofValue? value).isNone = true
  rw [intakeOf, foldl_add, hmalformed]
  rfl

/-! ## The Policy That Is Built -/

/-- The messages about settings, as a sink that keeps them gets them. The options give rise to
none. -/
def settingsMessages (settings : Settings) : List String :=
  (build (some fun message messages => messages ++ [message]) {} settings []).2

variable {σ : Type} (options : Options) (settings : Settings)

theorem build_fst (sink? : Option (String → σ → σ)) (state : σ) :
    (build sink? options settings state).1 = ofConfig options settings := rfl

theorem build_snd (sink : String → σ → σ) (state : σ) :
    (build (some sink) options settings state).2 =
      if hasMalformed settings.tagNamePreference then sink malformedPreferenceMessage state else state := by
  show (if (intakeOf settings.tagNamePreference).malformed then _ else _) = _
  rw [intakeOf_eq]

theorem preferences_ofConfig :
    (ofConfig options settings).preferences =
      preferencesOf (preferenceEntries settings.tagNamePreference) := by
  show (intakeOf settings.tagNamePreference).preferences = _
  rw [intakeOf_eq]

/-- The names of all raw preferences are known, those of malformed ones included. -/
theorem preferenceNames_ofConfig :
    (ofConfig options settings).preferenceNames =
      (preferenceEntries settings.tagNamePreference).map (·.1) := by
  show (intakeOf settings.tagNamePreference).names = _
  rw [intakeOf_eq]

theorem settingsMessages_eq :
    settingsMessages settings =
      if hasMalformed settings.tagNamePreference then [malformedPreferenceMessage] else [] := by
  apply build_snd

end Policy

/-! ## The Raw Preference That Counts -/

namespace Settings

/-- The raw preference that counts for a name: the one under `tag` and the name if there is one, and
else the one under the bare name. A name that itself starts with `tag` and a blank has no bare
form. -/
def rawPreference? (settings : Settings) (name : String) : Option Value :=
  match Dict.get? settings.tagNamePreference ("tag " ++ name) with
  | some value => some value
  | none =>
    if "tag ".toList <+: name.toList then none else Dict.get? settings.tagNamePreference name

/-- The preference for a name, if there is one and it is well-formed. -/
def preference? (settings : Settings) (name : String) : Option Preference :=
  (settings.rawPreference? name).bind Preference.ofValue?

end Settings

namespace Policy

/-- A key gives a name after `tag` and a blank exactly if it starts with the two. -/
theorem isSome_tagWordStripped?_iff {key : String} :
    (tagWordStripped? key).isSome ↔ "tag ".toList <+: key.toList := by
  rw [Option.isSome_iff_exists]
  constructor
  · rintro ⟨name, h⟩
    rw [tagWordStripped?_eq_some_iff.mp h, String.toList_append]
    exact List.prefix_append _ _
  · rintro ⟨rest, h⟩
    refine ⟨String.ofList rest, tagWordStripped?_eq_some_iff.mpr ?_⟩
    rw [← String.toList_inj, String.toList_append, ← h]
    exact congrArg _ String.toList_ofList.symm

/-- What the raw preferences make of a name is what the one that counts for it makes of it. -/
theorem get?_preferencesOf {settings : Settings}
    (hkeys : (Dict.keys settings.tagNamePreference).Nodup) (name : String) :
    Dict.get? (preferencesOf (preferenceEntries settings.tagNamePreference)) name =
      settings.preference? name := by
  unfold preferencesOf Settings.preference? Settings.rawPreference?
  -- What is taken in last is asked first: the keys with `tag`, and then the bare ones.
  rw [preferenceEntries_eq, List.foldl_append,
    get?_foldl_addPreference (nodup_keys_tagWordEntries hkeys),
    get?_foldl_addPreference (nodup_keys_bareEntries hkeys), get?_tagWordEntries, get?_bareEntries]
  cases Dict.get? settings.tagNamePreference ("tag " ++ name) with
  | some value => rfl
  | none =>
    by_cases hname : "tag ".toList <+: name.toList
    · simp only [if_pos (isSome_tagWordStripped?_iff.mpr hname), if_pos hname]
      rfl
    · have hnone : ¬ (tagWordStripped? name).isSome := fun h => hname (isSome_tagWordStripped?_iff.mp h)
      simp only [if_neg hnone, if_neg hname]
      cases Dict.get? settings.tagNamePreference name with
      | some value => rfl
      | none => rfl

end Policy

end DocLint
