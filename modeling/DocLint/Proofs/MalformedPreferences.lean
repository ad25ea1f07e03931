import DocLint.Proofs.Steering

/-!
# Names with a Malformed Preference

A malformed preference is dropped, and its name stays known. Nothing is then preferred to the name, so it is
judged as any known name without a preference: what other preferences steer to is valid, and a synonym of
the mode is still steered to its own name. Main statement: `resolve_of_malformed`, the exact condition under
which such a name is valid.
-/

namespace DocLint

/-! ## The Name Stays Known -/

namespace Settings

theorem nameOfKey_tagWord (name : String) : nameOfKey ("tag " ++ name) = name := by
  have hkey : Policy.tagWordStripped? ("tag " ++ name) = some name :=
    Policy.tagWordStripped?_eq_some_iff.mpr rfl
  rw [← Policy.getD_tagWordStripped?, hkey, Option.getD_some]

theorem nameOfKey_of_not_tagWord {key : String} (h : ¬ "tag ".toList <+: key.toList) :
    nameOfKey key = key := by
  unfold nameOfKey
  rw [if_neg h]

/-- A name for which a raw preference counts is one that the settings have a preference for,
well-formed or not. -/
theorem mem_preferenceNames_of_rawPreference? {settings : Settings} {name : String} {raw : Value}
    (h : settings.rawPreference? name = some raw) : name ∈ settings.preferenceNames := by
  -- The preference stands under one of two keys, and either speaks of the name.
  have hmem : ∀ {key : String} {value : Value},
      Dict.get? settings.tagNamePreference key = some value → nameOfKey key = name →
        name ∈ settings.preferenceNames := by
    intro key value hkey hname
    have hheld : key ∈ Dict.keys settings.tagNamePreference :=
      List.mem_map.mpr ⟨_, Dict.mem_of_get? hkey, rfl⟩
    exact List.mem_map.mpr ⟨key, hheld, hname⟩
  unfold rawPreference? at h
  -- The marked key is looked up first, and the bare one only if that is not there.
  cases htag : Dict.get? settings.tagNamePreference ("tag " ++ name) with
  | some value => exact hmem htag (nameOfKey_tagWord name)
  | none =>
    by_cases hword : "tag ".toList <+: name.toList
    · simp only [htag, if_pos hword] at h
      cases h
    · simp only [htag, if_neg hword] at h
      exact hmem h (nameOfKey_of_not_tagWord hword)

/-- A malformed raw preference is none, though the settings hold one for the name. -/
theorem preference?_of_malformed {settings : Settings} {name : String} {raw : Value}
    (hraw : settings.rawPreference? name = some raw) (hmalformed : Preference.ofValue? raw = none) :
    settings.preference? name = none := by
  unfold preference?
  rw [hraw, Option.bind_some, hmalformed]

end Settings

/-! ## How the Name Is Resolved -/

/-- **A malformed preference leaves its name to the synonyms**: the name is known and is never
blocked. It is valid exactly if another preference steers to it or it is no synonym of the mode; a
synonym is steered to its own name. -/
theorem resolve_of_malformed (options : Options) (settings : Settings)
    (hkeys : (Dict.keys settings.tagNamePreference).Nodup) (name : String) (raw : Value)
    (hraw : settings.rawPreference? name = some raw) (hmalformed : Preference.ofValue? raw = none)
    (hexempt : (Policy.ofConfig options settings).isExempt name = false) :
    let policy := Policy.ofConfig options settings
    policy.allows name = true ∧
      (policy.resolve name = .valid ↔
        name ∈ settings.targets ∨ Dict.get? settings.mode.synonyms name = none) ∧
      (policy.resolve name ≠ .valid → ∃ canonical,
        Dict.get? settings.mode.synonyms name = some canonical ∧
          policy.resolve name = .preferred canonical none) := by
  intro policy
  -- The name of a malformed preference stays among those that the policy knows.
  have hallows : policy.allows name = true := by
    have hname := Settings.mem_preferenceNames_of_rawPreference? hraw
    rw [Policy.allows_ofConfig hkeys]
    simp [Settings.knows, hname]
  refine ⟨hallows, ?_⟩
  by_cases htarget : name ∈ settings.targets
  · have hvalid : policy.resolve name = .valid := by
      rw [Policy.resolve_of_mem_targets ((Policy.mem_targets_ofConfig_iff hkeys).mpr htarget), hexempt]
      rfl
    exact ⟨by simp [hvalid, htarget], fun h => absurd hvalid h⟩
  · -- Past the targets only the preference and the synonyms count, and there is no preference.
    have hresolve : policy.resolve name = settings.verdict name := by
      have hpolicy : name ∉ policy.targets := fun h =>
        htarget ((Policy.mem_targets_ofConfig_iff hkeys).mp h)
      rw [Policy.resolve_of_not_mem_targets hexempt hallows hpolicy]
      exact Policy.resolveUntargeted_ofConfig hkeys options htarget
    have hnone := Settings.preference?_of_malformed hraw hmalformed
    unfold Settings.verdict at hresolve
    rw [hnone] at hresolve
    -- So the synonyms of the mode have the last word.
    cases hsynonym : Dict.get? settings.mode.synonyms name with
    | none =>
      simp only [hsynonym] at hresolve
      exact ⟨by simp [hresolve], fun h => absurd hresolve h⟩
    | some canonical =>
      simp only [hsynonym] at hresolve
      exact ⟨by simp [hresolve, htarget], fun _ => ⟨canonical, rfl, hresolve⟩⟩

/-- A synonym that another preference steers to stays as it is, though its own preference is
malformed. -/
theorem resolve_malformed_target :
    let settings : Settings := { tagNamePreference := [("tag arg", .int 5), ("note", .text "arg")] }
    settings.rawPreference? "arg" = some (.int 5) ∧ Preference.ofValue? (.int 5) = none ∧
      (Policy.ofConfig {} settings).resolve "arg" = .valid := by
  intro settings
  have hraw : settings.rawPreference? "arg" = some (.int 5) := by rfl
  have hmalformed : Preference.ofValue? (.int 5) = none := by rfl
  refine ⟨hraw, hmalformed, ?_⟩
  have hcondition := resolve_of_malformed {} settings (by decide) "arg" (.int 5) hraw hmalformed (by decide)
  exact hcondition.2.1.mpr (Or.inl (by decide +kernel))

/-- A synonym with a malformed preference is steered to its own name all the same. -/
theorem malformed_synonym_is_steered :
    ¬ ∀ (options : Options) (settings : Settings) (name : String) (raw : Value),
      (Dict.keys settings.tagNamePreference).Nodup → settings.rawPreference? name = some raw →
      Preference.ofValue? raw = none → (Policy.ofConfig options settings).isExempt name = false →
      (Policy.ofConfig options settings).resolve name = .valid := by
  intro h
  have hvalid := h {} { tagNamePreference := [("arg", .int 5)] } "arg" (.int 5) (by decide) (by rfl)
    (by rfl) (by decide)
  revert hvalid
  decide +kernel

end DocLint
