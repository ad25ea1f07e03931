import DocLint.Proofs.Resolution
import Mathlib.Logic.Function.Iterate

/-!
# Steering Ends

A policy steers from one name to another, by a preference or by a synonym of the mode. Where a preference
steers to is never steered elsewhere, and where a synonym leads to is no synonym. So whatever chains or
rings the preferences form, no name is steered more than twice. Main statement: `steering_ends`.
-/

namespace DocLint

/-! ## What a Configuration Guarantees -/

namespace Policy

/-- The texts of the preferences say something, and every synonym leads to a built-in name that is
no synonym itself. Policies that are built have this, and it is all that steering needs of them. -/
structure IsCoherent (policy : Policy) : Prop where
  preferences_proper : ∀ {name : String} {preference : Preference},
    Dict.get? policy.preferences name = some preference → preference.IsProper
  canonical_ne_empty : ∀ {synonym canonical : String},
    Dict.get? policy.synonyms synonym = some canonical → canonical ≠ ""
  canonical_builtin : ∀ {synonym canonical : String},
    Dict.get? policy.synonyms synonym = some canonical → canonical ∈ policy.builtinNames
  /-- Synonyms do not lead on to others. -/
  canonical_not_synonym : ∀ {synonym canonical : String},
    Dict.get? policy.synonyms synonym = some canonical → Dict.get? policy.synonyms canonical = none

/-- The policy of a configuration is coherent: its preferences are read from values, and its
synonyms are those of a mode. -/
theorem isCoherent_ofConfig (options : Options) (settings : Settings) :
    (ofConfig options settings).IsCoherent where
  preferences_proper h := by
    rw [preferences_ofConfig] at h
    obtain ⟨value, -, hvalue⟩ := exists_mem_of_get?_preferencesOf h
    exact Preference.isProper_of_ofValue? hvalue
  canonical_ne_empty := Mode.canonical_ne_empty
  canonical_builtin := Mode.canonical_mem_names
  canonical_not_synonym := Mode.canonical_not_synonym

/-! ## Steering Once -/

section

variable {policy : Policy} {name preferred : String} {message : Option String}

/-- What steers a known name that no preference steers to: a preference for it, or, if there is
none, a synonym. -/
theorem untargeted_steered_cases (h : policy.resolveUntargeted name = .preferred preferred message) :
    preferred ≠ name ∧
      (Dict.get? policy.preferences name = some (.rename preferred message) ∨
        Dict.get? policy.preferences name = none ∧ Dict.get? policy.synonyms name = some preferred) := by
  unfold resolveUntargeted at h
  cases hpreference : Dict.get? policy.preferences name with
  | some preference =>
    -- A preference that blocks the name steers nowhere, and one for the name itself makes it valid.
    simp only [hpreference] at h
    cases preference with
    | block text => cases h
    | rename target text =>
      by_cases heq : target = name
      · simp only [resolvePreference, if_pos heq] at h
        cases h
      · simp only [resolvePreference, if_neg heq] at h
        cases h
        exact ⟨heq, Or.inl rfl⟩
  | none =>
    simp only [hpreference, resolveSynonym] at h
    cases hsynonym : Dict.get? policy.synonyms name with
    | none =>
      simp only [hsynonym] at h
      cases h
    | some canonical =>
      by_cases heq : canonical = name
      · simp only [hsynonym, if_pos heq] at h
        cases h
      · simp only [hsynonym, if_neg heq] at h
        cases h
        exact ⟨heq, Or.inr ⟨rfl, rfl⟩⟩

/-- What steers a name to another: a preference for it, or, if there is none, a synonym. No
preference steers to the name itself. -/
theorem steered_cases (h : policy.resolve name = .preferred preferred message) :
    preferred ≠ name ∧ name ∉ policy.targets ∧
      (Dict.get? policy.preferences name = some (.rename preferred message) ∨
        Dict.get? policy.preferences name = none ∧ Dict.get? policy.synonyms name = some preferred) := by
  -- The exemption, the allow-list and the targets all end without a preferred name.
  rw [resolve_eq] at h
  split at h
  · cases h
  · split at h
    · cases h
    · split at h
      · cases h
      · rename_i htarget
        obtain ⟨hne, hcases⟩ := untargeted_steered_cases h
        exact ⟨hne, fun hmem => htarget (List.contains_iff_mem.mpr hmem), hcases⟩

theorem resolve_of_mem_targets (h : name ∈ policy.targets) :
    policy.resolve name = if policy.isExempt name then .exempt else .valid := by
  have hallows : policy.allows name = true :=
    allows_iff.mpr (Or.inr (Or.inr (Or.inr (Or.inl h))))
  rw [resolve_eq, hallows, List.contains_iff_mem.mpr h]
  simp

/-- What a policy says of a known name depends on its preference and the synonyms only if the name
is not exempt and no preference steers to it. -/
theorem resolve_of_not_mem_targets (hexempt : policy.isExempt name = false)
    (hallows : policy.allows name = true) (h : name ∉ policy.targets) :
    policy.resolve name = policy.resolveUntargeted name := by
  rw [resolve_eq, hexempt, hallows]
  simp [h]

end

/-! ## Steering Again -/

namespace IsCoherent

variable {policy : Policy} (hpolicy : policy.IsCoherent) {name preferred : String}
  {message : Option String}

include hpolicy

theorem preferred_ne_empty (h : policy.resolve name = .preferred preferred message) :
    preferred ≠ "" := by
  obtain ⟨-, -, hpreference | ⟨-, hsynonym⟩⟩ := steered_cases h
  · exact (hpolicy.preferences_proper hpreference).1
  · exact hpolicy.canonical_ne_empty hsynonym

/-- A name is steered to a target by a preference, or to a built-in name by a synonym. -/
theorem preferred_cases (h : policy.resolve name = .preferred preferred message) :
    preferred ∈ policy.targets ∨ Dict.get? policy.synonyms name = some preferred := by
  obtain ⟨-, -, hpreference | ⟨-, hsynonym⟩⟩ := steered_cases h
  · exact Or.inl (mem_targets_of_get? hpreference (hpolicy.preferred_ne_empty h))
  · exact Or.inr hsynonym

/-- No name is steered to an unknown one. -/
theorem allows_preferred (h : policy.resolve name = .preferred preferred message) :
    policy.allows preferred = true := by
  rw [allows_iff]
  rcases hpolicy.preferred_cases h with htarget | hsynonym
  · exact Or.inr (Or.inr (Or.inr (Or.inl htarget)))
  · exact Or.inl (hpolicy.canonical_builtin hsynonym)

/-- A name that is steered twice ends at a target of the preferences: the first time a synonym was
followed, so the second time it was not. -/
theorem mem_targets_of_steered_twice {next : String} {nextMessage : Option String}
    (hfirst : policy.resolve name = .preferred preferred message)
    (hsecond : policy.resolve preferred = .preferred next nextMessage) : next ∈ policy.targets := by
  have huntargeted : preferred ∉ policy.targets := (steered_cases hsecond).2.1
  rcases hpolicy.preferred_cases hfirst with htarget | hsynonym
  · -- A target is not steered at all.
    exact absurd htarget huntargeted
  · rcases hpolicy.preferred_cases hsecond with htarget | hagain
    · exact htarget
    · rw [hpolicy.canonical_not_synonym hsynonym] at hagain
      cases hagain

end IsCoherent

/-! ## Following All Renames -/

/-- The name that a policy steers a name to, and the name itself if it is not steered. -/
def steer (policy : Policy) (name : String) : String :=
  (policy.resolve name).preferredName?.getD name

/-- Steering a name `count` times gives a new preferred name each time and ends at a name that is
not steered. -/
def SteersOut (policy : Policy) (name : String) (count : Nat) : Prop :=
  (∀ step < count,
    (policy.resolve (policy.steer^[step] name)).preferredName? = some (policy.steer^[step + 1] name)) ∧
    (policy.resolve (policy.steer^[count] name)).preferredName? = none

/-- Steering out takes one step more from a name that is steered than from where it is steered
to. -/
theorem SteersOut.step {policy : Policy} {name preferred : String} {count : Nat}
    (h : policy.SteersOut preferred count)
    (hname : (policy.resolve name).preferredName? = some preferred) :
    policy.SteersOut name (count + 1) := by
  -- The first step leads to where the name is steered to, and the others are those from there.
  have hsteer : policy.steer name = preferred := by
    unfold steer
    rw [hname, Option.getD_some]
  obtain ⟨hsteps, hend⟩ := h
  refine ⟨?_, ?_⟩
  · intro step hstep
    cases step with
    | zero =>
      rw [Function.iterate_zero_apply, Nat.zero_add, Function.iterate_one, hsteer]
      exact hname
    | succ step =>
      rw [Function.iterate_succ_apply, Function.iterate_succ_apply, hsteer]
      exact hsteps step (Nat.lt_of_succ_lt_succ hstep)
  · rw [Function.iterate_succ_apply, hsteer]
    exact hend

end Policy

theorem Resolution.eq_preferred_of_preferredName? {resolution : Resolution} {name : String}
    (h : resolution.preferredName? = some name) : ∃ message, resolution = .preferred name message := by
  cases resolution with
  | preferred other message =>
    cases h
    exact ⟨message, rfl⟩
  | _ => cases h

/-- **Steering ends**: the policy of options and settings steers a name to another known name only,
and after at most two renames it steers no further. -/
theorem steering_ends (options : Options) (settings : Settings) :
    let policy := Policy.ofConfig options settings
    (∀ name preferred message, policy.resolve name = .preferred preferred message →
      preferred ≠ "" ∧ preferred ≠ name ∧ policy.allows preferred = true ∧
        policy.resolve preferred ≠ .invalid) ∧
      ∀ name, ∃ count ≤ 2, policy.SteersOut name count := by
  intro policy
  have hpolicy : policy.IsCoherent := Policy.isCoherent_ofConfig options settings
  refine ⟨?_, ?_⟩
  · intro name preferred message h
    have hallows := hpolicy.allows_preferred h
    have hinvalid : policy.resolve preferred ≠ .invalid := by
      rw [ne_eq, Policy.resolve_eq_invalid_iff, hallows]
      simp
    exact ⟨hpolicy.preferred_ne_empty h, (Policy.steered_cases h).1, hallows, hinvalid⟩
  · intro name
    have hdone : ∀ {last : String}, (policy.resolve last).preferredName? = none →
        policy.SteersOut last 0 := fun h => ⟨by simp, h⟩
    -- Three names are enough: the third is a target, by which the run ends.
    cases hfirst : (policy.resolve name).preferredName? with
    | none => exact ⟨0, by omega, hdone hfirst⟩
    | some second =>
      cases hsecond : (policy.resolve second).preferredName? with
      | none => exact ⟨1, by omega, (hdone hsecond).step hfirst⟩
      | some third =>
        obtain ⟨_, hone⟩ := Resolution.eq_preferred_of_preferredName? hfirst
        obtain ⟨_, htwo⟩ := Resolution.eq_preferred_of_preferredName? hsecond
        have htarget := hpolicy.mem_targets_of_steered_twice hone htwo
        have hthird : (policy.resolve third).preferredName? = none := by
          rw [Policy.resolve_of_mem_targets htarget]
          split <;> rfl
        exact ⟨2, by omega, ((hdone hthird).step hsecond).step hfirst⟩

end DocLint
