import DocLint.Proofs.Decisions

/-!
# Judging a Renamed Tag

A tag that the rule wants renamed is judged again under its new name. The new name is always known, but it
may be redundant beside a type system, and a synonym may lead to a name that a preference blocks or steers
on. Main statement: `decide_renamed_eq_skip_iff`, the exact condition under which the new name passes.
-/

namespace DocLint

/-- A name that another is steered to is valid exactly if a preference steers to it or it has no
preference of its own: the latter can only block it or steer it on. -/
theorem Policy.IsCoherent.resolve_preferred_eq_valid_iff {policy : Policy}
    (hpolicy : policy.IsCoherent) {name preferred : String} {message : Option String}
    (h : policy.resolve name = .preferred preferred message) (hexempt : policy.isExempt preferred = false) :
    policy.resolve preferred = .valid ↔
      preferred ∈ policy.targets ∨ Dict.get? policy.preferences preferred = none := by
  by_cases htarget : preferred ∈ policy.targets
  · simp [Policy.resolve_of_mem_targets htarget, hexempt, htarget]
  · -- No preference steers to the name, so a synonym led to it, and it is no synonym itself.
    have hsynonym : Dict.get? policy.synonyms preferred = none := by
      rcases hpolicy.preferred_cases h with hmem | hsynonym
      · exact absurd hmem htarget
      · exact hpolicy.canonical_not_synonym hsynonym
    rw [Policy.resolve_of_not_mem_targets hexempt (hpolicy.allows_preferred h) htarget]
    simp only [htarget, false_or]
    -- A preference of its own is all that can keep it from being valid.
    unfold Policy.resolveUntargeted
    cases hpreference : Dict.get? policy.preferences preferred with
    | none => simp [Policy.resolveSynonym, hsynonym]
    | some preference =>
      cases preference with
      | block text => simp [Policy.resolvePreference]
      | rename next text =>
        -- Were the name steered to itself, that preference would make it a target.
        have hne : next ≠ preferred := by
          rintro rfl
          exact htarget (Policy.mem_targets_of_get? hpreference (hpolicy.preferred_ne_empty h))
        simp [Policy.resolvePreference, hne]

/-- **A renamed tag passes exactly if** its new name is exempt, or is neither redundant where it
stands nor subject to a preference of its own, unless another preference steers to it. In any case
it is judged, and not as unknown. -/
theorem decide_renamed_eq_skip_iff (options : Options) (settings : Settings) (tag : Tag)
    (context : Context) (decision : Decision) (preferred : String)
    (hdecide : (Rule.ofConfig options settings).decide tag context = .ok decision)
    (hkind : decision.kind = .reportAndReplace) (hpreferred : decision.preferredName = some preferred) :
    let rule := Rule.ofConfig options settings
    let renamed := { tag with name := preferred }
    (rule.decide renamed context = .ok Decision.skip ↔
      rule.policy.isExempt preferred = true ∨
        rule.redundancy? renamed context = none ∧
          (preferred ∈ rule.policy.targets ∨ Dict.get? rule.policy.preferences preferred = none)) ∧
      ∃ next, rule.decide renamed context = .ok next ∧ next.issue ≠ some .unknownTag := by
  intro rule renamed
  have hpolicy : rule.policy.IsCoherent := Policy.isCoherent_ofConfig options settings
  -- Only the policy steers a name, so the new name is one that it steers to.
  obtain ⟨steered, message, hresolve, hname, -⟩ :=
    (Rule.decide_eq_ok_iff.mp hdecide).steered_of_kind hkind
  have heq : steered = preferred := Option.some.inj (hname.symm.trans hpreferred)
  subst heq
  refine ⟨?_, ?_⟩
  · -- The judgment that passes a tag over, read at the new name.
    rw [Rule.decide_eq_ok_iff, Rule.judgment_skip_iff]
    cases hexempt : rule.policy.isExempt steered with
    | true => simp [renamed]
    | false => simp [renamed, hpolicy.resolve_preferred_eq_valid_iff hresolve hexempt]
  · -- The new name is known, so whatever is said of the tag, it is not that its name is unknown.
    obtain ⟨next, hnext⟩ := Rule.exists_judgment hpolicy renamed context
    refine ⟨next, Rule.decide_eq_ok_iff.mpr hnext, ?_⟩
    intro hissue
    have hunknown := hnext.not_allows_of_issue hissue
    rw [hpolicy.allows_preferred hresolve] at hunknown
    cases hunknown

/-- In typed code a synonym may lead to a redundant name. -/
theorem decide_renamed_augments :
    let rule := Rule.ofConfig { typed := true } {}
    rule.decide { name := "extends" } {} = .ok ⟨.reportAndReplace, some .preferredName,
        Rule.preferredMessage "extends" "augments", some "augments"⟩ ∧
      rule.decide { name := "augments" } {} ≠ .ok Decision.skip := by
  intro rule
  have hdecide : rule.decide { name := "extends" } {} = .ok ⟨.reportAndReplace, some .preferredName,
      Rule.preferredMessage "extends" "augments", some "augments"⟩ := by rfl
  refine ⟨hdecide, ?_⟩
  intro hskip
  have hcondition := (decide_renamed_eq_skip_iff { typed := true } {} { name := "extends" } {} _
    "augments" hdecide rfl rfl).1.mp hskip
  revert hcondition
  decide +kernel

/-- A synonym may lead to a name that the settings block: `@arg` is to be renamed to `@param`, and
then `@param` is not to be used. -/
theorem renamed_tag_may_be_blocked :
    ¬ ∀ (options : Options) (settings : Settings) (tag : Tag) (context : Context) (decision : Decision)
        (preferred : String),
      (Rule.ofConfig options settings).decide tag context = .ok decision →
      decision.kind = .reportAndReplace → decision.preferredName = some preferred →
      (Rule.ofConfig options settings).decide { tag with name := preferred } context =
        .ok Decision.skip := by
  intro h
  have hskip := h {} { tagNamePreference := [("param", .bool false)] } { name := "arg" } {}
    ⟨.reportAndReplace, some .preferredName, Rule.preferredMessage "arg" "param", some "param"⟩ "param"
    (by rfl) rfl rfl
  have hblocked : (Rule.ofConfig {} { tagNamePreference := [("param", .bool false)] }).decide
      { name := "param" } {} =
        .ok ⟨.reportOnly, some .blockedTag, Policy.blockedMessage "param", none⟩ := by rfl
  rw [hblocked] at hskip
  cases hskip

end DocLint
