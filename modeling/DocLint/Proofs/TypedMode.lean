import DocLint.Proofs.ConfiguredChecks

/-!
# Rules with and without Types

A typed rule asks for redundancy before it asks the policy, and differs from the rule without types in
nothing else. So a tag that is not redundant is decided about alike, and a tag that is redundant is reported
as such, whatever the policy says of it. Main statement: `typed_check_adds_redundancy`.
-/

namespace DocLint

/-! ## Redundant Tags -/

/-- Only tags of the two sets of redundant names and template tags are ever redundant. -/
theorem Tag.name_of_redundancy? {tag : Tag} {context : Context} {redundancy : RedundancyRule}
    (h : tag.redundancy? context = some redundancy) :
    tag.name ∈ Vocabulary.alwaysRedundantNames ∨ tag.name ∈ Vocabulary.redundantOutsideAmbientNames ∨
      tag.name = "template" := by
  unfold redundancy? at h
  by_cases halways : tag.name ∈ Vocabulary.alwaysRedundantNames
  · exact Or.inl halways
  · by_cases houtside : tag.isRedundantOutsideAmbient context = true
    · -- Being outside is asked for only after the name.
      unfold isRedundantOutsideAmbient at houtside
      simp only [Bool.and_eq_true, List.contains_iff_mem] at houtside
      exact Or.inr (Or.inl houtside.1.1.1)
    · by_cases htemplate : tag.name = "template"
      · exact Or.inr (Or.inr htemplate)
      · simp [halways, houtside, htemplate] at h

namespace Rule

/-! ## Single Tags -/

section

variable (policy : Policy) (tag : Tag) (context : Context)

/-- What redundancy makes of a tag under a typed rule, and what the rule without types makes of it
if there is none. -/
theorem decide_typed_cases :
    decide ⟨policy, true⟩ tag context = decide ⟨policy, false⟩ tag context ∨
      policy.isExempt tag.name = false ∧ ∃ redundancy, tag.redundancy? context = some redundancy ∧
        decide ⟨policy, true⟩ tag context =
          .ok ⟨.reportOnly, some .typedRedundant, redundancy.message tag.name, none⟩ := by
  -- In the order in which the rule asks: the exemption comes before redundancy.
  cases hexempt : policy.isExempt tag.name with
  | true =>
    left
    simp only [decide, hexempt, if_true]
  | false =>
    cases hredundancy : tag.redundancy? context with
    | none =>
      left
      -- What follows from the policy does not depend on whether there are types.
      simp only [decide, hexempt, redundancy?, hredundancy, ite_self, decideByPolicy]
    | some redundancy =>
      refine Or.inr ⟨rfl, redundancy, rfl, ?_⟩
      simp only [decide, hexempt, redundancy?, hredundancy, if_true, Bool.false_eq_true, if_false]

/-- A tag of a comment comes to the same with types and without, or is reported as redundant with
types. -/
theorem outcome_typed_cases {block : Block} {tag : Tag} {index : Nat} (htag : block.tags[index]? = some tag) :
    outcome ⟨policy, true⟩ block context tag index = outcome ⟨policy, false⟩ block context tag index ∨
      ∃ report, outcome ⟨policy, true⟩ block context tag index = .ok (some report) ∧
        report.issue = .typedRedundant ∧ report.tagIndex = some (index : Int) := by
  by_cases hname : tag.name = ""
  · left
    rw [outcome_of_unnamed hname, outcome_of_unnamed hname]
  · rcases decide_typed_cases policy tag context with hsame | ⟨-, redundancy, -, hdecide⟩
    · left
      simp only [outcome, hsame]
    · right
      have hfound : block.tag? (index : Int) = some tag := by
        rw [Block.tag?_natCast, htag]
      obtain ⟨made, hmade⟩ := (decide_eq_ok_iff.mp hdecide).exists_reportFor hfound
      -- The decision is not to pass the tag over, so there is a report.
      obtain ⟨hskip, -⟩ | ⟨-, found, issue, fix, -, hissue, -, rfl⟩ := reportFor_ok_cases hmade
      · cases hskip
      · rw [outcome_of_decide hname hdecide, hmade]
        exact ⟨_, rfl, (Option.some.inj hissue).symm, rfl⟩

/-- With types every tag is reported that is reported without, and all that is new is redundancy. -/
theorem reportsOfTags_typed (block : Block) :
    (∀ report ∈ reportsOfTags ⟨policy, false⟩ block context block.tags,
      ∃ other ∈ reportsOfTags ⟨policy, true⟩ block context block.tags,
        other.tagIndex = report.tagIndex) ∧
      ∀ report ∈ reportsOfTags ⟨policy, true⟩ block context block.tags,
        report ∈ reportsOfTags ⟨policy, false⟩ block context block.tags ∨
          report.issue = .typedRedundant := by
  refine ⟨fun report hreport => ?_, fun report hreport => ?_⟩
  -- Either way round, a report is what a tag comes to, and the tag is compared with itself.
  all_goals obtain ⟨tag, index, htag, houtcome⟩ := mem_reportsOfTags_iff.mp hreport
  · rcases outcome_typed_cases policy context htag with hsame | ⟨other, hother, -, hindex⟩
    · exact ⟨report, mem_reportsOfTags_iff.mpr ⟨tag, index, htag, hsame.trans houtcome⟩, rfl⟩
    · refine ⟨other, mem_reportsOfTags_iff.mpr ⟨tag, index, htag, hother⟩, ?_⟩
      rw [hindex, tagIndex_of_outcome houtcome]
  · rcases outcome_typed_cases policy context htag with hsame | ⟨other, hother, hissue, -⟩
    · left
      exact mem_reportsOfTags_iff.mpr ⟨tag, index, htag, hsame.symm.trans houtcome⟩
    · right
      rw [hother] at houtcome
      cases houtcome
      exact hissue

end

end Rule

/-! ## Whole Checks -/

/-- **Types only add redundancy**: with types, the rule of a configuration decides about each tag as
it does without, or reports the tag as redundant, which happens only to certain names and never to
exempt tags. So every tag reported without types is reported with types, every other report is of
redundancy, and the same is said about the settings. -/
theorem typed_check_adds_redundancy (options : Options) (settings : Settings) (block : Block)
    (context : Context) (collector : Collector) :
    let untyped := { options with typed := false }
    let typed := { options with typed := true }
    (∀ tag : Tag, ∃ before after,
      (Rule.ofConfig untyped settings).decide tag context = .ok before ∧
        (Rule.ofConfig typed settings).decide tag context = .ok after ∧
        (after = before ∨
          after.kind = .reportOnly ∧ after.issue = some .typedRedundant ∧
            (Policy.ofConfig options settings).isExempt tag.name = false ∧
            (tag.name ∈ Vocabulary.alwaysRedundantNames ∨
              tag.name ∈ Vocabulary.redundantOutsideAmbientNames ∨ tag.name = "template"))) ∧
      (∃ fewer more,
        (checkComment untyped settings block context collector).1 = .ok fewer ∧
          (checkComment typed settings block context collector).1 = .ok more ∧
          (∀ report ∈ fewer, ∃ other ∈ more, other.tagIndex = report.tagIndex) ∧
          ∀ report ∈ more, report ∈ fewer ∨ report.issue = .typedRedundant) ∧
      (checkComment untyped settings block context collector).2.settingsMessages =
        (checkComment typed settings block context collector).2.settingsMessages := by
  intro untyped typed
  -- The policy does not depend on whether there are types.
  have huntyped : Rule.ofConfig untyped settings = ⟨Policy.ofConfig options settings, false⟩ := rfl
  have htyped : Rule.ofConfig typed settings = ⟨Policy.ofConfig options settings, true⟩ := rfl
  refine ⟨?_, ?_, ?_⟩
  · intro tag
    obtain ⟨before, hbefore⟩ := Rule.exists_decide_ofConfig untyped settings tag context
    obtain ⟨after, hafter⟩ := Rule.exists_decide_ofConfig typed settings tag context
    refine ⟨before, after, hbefore, hafter, ?_⟩
    rw [huntyped] at hbefore
    rw [htyped] at hafter
    rcases Rule.decide_typed_cases (Policy.ofConfig options settings) tag context with
      hsame | ⟨hexempt, redundancy, hredundancy, hdecide⟩
    · left
      rw [hafter, hbefore] at hsame
      exact Except.ok.inj hsame
    · right
      rw [hafter] at hdecide
      cases hdecide
      exact ⟨rfl, rfl, hexempt, tag.name_of_redundancy? hredundancy⟩
  · exact ⟨_, _, congrArg Prod.fst (checkComment_eq untyped settings block context collector),
      congrArg Prod.fst (checkComment_eq typed settings block context collector),
      Rule.reportsOfTags_typed (Policy.ofConfig options settings) context block⟩
  · rw [checkComment_eq, checkComment_eq]
    rfl

end DocLint
