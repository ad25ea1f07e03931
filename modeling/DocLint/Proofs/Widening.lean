import DocLint.Proofs.ConfiguredChecks

/-!
# Allowing More Names

A configuration may be widened by further defined or structured names and by the exemption of the JSX tags.
A name that becomes known has no preference and is no synonym, for those names were known before; so it can
only become valid. Main statement: `check_widened`, by which the reports of the wider configuration are
those of the narrower one without the ones that it lifts.
-/

namespace DocLint

/-! ## Names That Become Known -/

namespace Policy

/-- Whether all names that have a preference or are a synonym are known, whatever is defined or
structured. So what a policy does not know, it has nothing to say of. -/
structure IsClosed (policy : Policy) : Prop where
  mem_preferenceNames : ∀ {name : String} {preference : Preference},
    Dict.get? policy.preferences name = some preference → name ∈ policy.preferenceNames
  mem_builtinNames : ∀ {synonym canonical : String},
    Dict.get? policy.synonyms synonym = some canonical → synonym ∈ policy.builtinNames

theorem isClosed_ofConfig (options : Options) (settings : Settings) :
    (ofConfig options settings).IsClosed where
  mem_preferenceNames h := by
    rw [preferences_ofConfig] at h
    obtain ⟨value, hmem, -⟩ := exists_mem_of_get?_preferencesOf h
    rw [preferenceNames_ofConfig]
    exact List.mem_map.mpr ⟨_, hmem, rfl⟩
  mem_builtinNames := Mode.synonym_mem_names

/-- A name that is not known has no preference and is no synonym, so nothing is said of it once it
is. -/
theorem IsClosed.resolveUntargeted_of_unknown {policy : Policy} (hpolicy : policy.IsClosed) {name : String}
    (hallows : policy.allows name = false) : policy.resolveUntargeted name = .valid := by
  have hunknown : ¬ policy.allows name = true := by simp [hallows]
  rw [allows_iff, not_or, not_or, not_or] at hunknown
  obtain ⟨hbuiltin, -, hpreferenceNames, -⟩ := hunknown
  have hpreference : Dict.get? policy.preferences name = none := by
    rw [Option.eq_none_iff_forall_ne_some]
    exact fun _ h => hpreferenceNames (hpolicy.mem_preferenceNames h)
  have hsynonym : Dict.get? policy.synonyms name = none := by
    rw [Option.eq_none_iff_forall_ne_some]
    exact fun _ h => hbuiltin (hpolicy.mem_builtinNames h)
  simp only [resolveUntargeted, hpreference, resolveSynonym, hsynonym]

/-! ## Wider Policies -/

/-- Whether a policy allows all that another does, and differs from it only in the names defined and
structured and in the exemption of the JSX tags. -/
structure Widens (policy wider : Policy) : Prop where
  /-- Preferences, built-in names and synonyms are the same. -/
  eq_with : wider = { policy with
    definedNames := wider.definedNames, structuredNames := wider.structuredNames,
    jsxExempt := wider.jsxExempt }
  definedNames_subset : policy.definedNames ⊆ wider.definedNames
  structuredNames_subset : policy.structuredNames ⊆ wider.structuredNames
  jsxExempt_of_jsxExempt : policy.jsxExempt = true → wider.jsxExempt = true

/-- Whether a name is defined or structured. -/
def isListed (policy : Policy) (name : String) : Bool :=
  policy.definedNames.contains name || policy.structuredNames.contains name

namespace Widens

variable {policy wider : Policy} (h : policy.Widens wider) {name : String}

include h

theorem targets_eq : wider.targets = policy.targets := by
  rw [h.eq_with]
  rfl

theorem resolveUntargeted_eq : wider.resolveUntargeted name = policy.resolveUntargeted name := by
  rw [h.eq_with]
  rfl

theorem isExempt_of_isExempt (hexempt : policy.isExempt name = true) : wider.isExempt name = true := by
  unfold isExempt at hexempt ⊢
  rw [Bool.and_eq_true] at hexempt ⊢
  exact ⟨h.jsxExempt_of_jsxExempt hexempt.1, hexempt.2⟩

/-- A wider policy knows what was known and what it lists. -/
theorem allows_iff_or :
    wider.allows name = true ↔ policy.allows name = true ∨ wider.isListed name = true := by
  have hbuiltin : wider.builtinNames = policy.builtinNames := by rw [h.eq_with]
  have hpreferences : wider.preferenceNames = policy.preferenceNames := by rw [h.eq_with]
  have hdefined := @h.definedNames_subset name
  have hstructured := @h.structuredNames_subset name
  simp only [allows_iff, isListed, Bool.or_eq_true, List.contains_iff_mem, h.targets_eq, hbuiltin, hpreferences]
  tauto

/-- A name that is not exempt resolves as before, unless it was unknown and is added. -/
theorem resolve_eq_of_not_exempt (hpolicy : policy.IsClosed) (hexempt : policy.isExempt name = false)
    (hwider : wider.isExempt name = false) :
    wider.resolve name =
      if policy.resolve name = .invalid ∧ wider.isListed name = true then .valid else policy.resolve name := by
  -- A name that was known is resolved by the same questions with the same answers.
  cases hallows : policy.allows name with
  | true =>
    have hknown : policy.resolve name ≠ .invalid := by
      rw [ne_eq, resolve_eq_invalid_iff, hallows]
      simp
    have hstill : wider.allows name = true := h.allows_iff_or.mpr (Or.inl hallows)
    rw [if_neg fun hboth => hknown hboth.1, resolve_eq, resolve_eq, hexempt, hwider, hallows, hstill,
      h.targets_eq, h.resolveUntargeted_eq]
  | false =>
    have hinvalid : policy.resolve name = .invalid := resolve_eq_invalid_iff.mpr ⟨hexempt, hallows⟩
    cases hlisted : wider.isListed name with
    | true =>
      have hknown : wider.allows name = true := h.allows_iff_or.mpr (Or.inr hlisted)
      -- What preferences steer to was known before, so the name is none of it.
      have htarget : name ∉ wider.targets := by
        rw [h.targets_eq]
        intro hmem
        have hbefore : policy.allows name = true :=
          allows_iff.mpr (Or.inr (Or.inr (Or.inr (Or.inl hmem))))
        rw [hallows] at hbefore
        cases hbefore
      rw [if_pos ⟨hinvalid, rfl⟩, resolve_of_not_mem_targets hwider hknown htarget, h.resolveUntargeted_eq]
      exact hpolicy.resolveUntargeted_of_unknown hallows
    | false =>
      have hunknown : wider.allows name = false := by
        rw [Bool.eq_false_iff, ne_eq, h.allows_iff_or, hallows, hlisted]
        simp
      rw [if_neg (by simp), hinvalid]
      exact resolve_eq_invalid_iff.mpr ⟨hwider, hunknown⟩

end Widens

/-- Whether a wider policy lifts an issue with a name: the name becomes exempt, or it was unknown
and is listed. -/
def Lifts (policy wider : Policy) (name : String) (issue : Option Issue) : Prop :=
  policy.isExempt name = false ∧ wider.isExempt name = true ∨
    issue = some .unknownTag ∧ wider.isListed name = true

namespace Widens

variable {policy wider : Policy} (h : policy.Widens wider) (hpolicy : policy.IsClosed) {typed : Bool}
  {tag : Tag} {context : Context} {decision : Decision}

include h hpolicy

/-- A tag whose issue is lifted is passed over. -/
theorem judgment_of_lifts (hjudgment : Rule.Judgment ⟨policy, typed⟩ tag context decision)
    (hlifts : policy.Lifts wider tag.name decision.issue) :
    Rule.Judgment ⟨wider, typed⟩ tag context Decision.skip := by
  cases hwider : wider.isExempt tag.name with
  | true => exact .exempt hwider
  | false =>
    rcases hlifts with ⟨-, hexempt⟩ | ⟨hissue, hlisted⟩
    · rw [hwider] at hexempt
      cases hexempt
    · cases hjudgment with
      | unknown hexempt hredundancy hresolve =>
        refine .valid hwider hredundancy ?_
        exact (h.resolve_eq_of_not_exempt hpolicy hexempt hwider).trans (if_pos ⟨hresolve, hlisted⟩)
      | _ => cases hissue

/-- A tag whose issue is not lifted is decided about as before. -/
theorem judgment_of_not_lifts (hjudgment : Rule.Judgment ⟨policy, typed⟩ tag context decision)
    (hlifts : ¬ policy.Lifts wider tag.name decision.issue) :
    Rule.Judgment ⟨wider, typed⟩ tag context decision := by
  have hwider : policy.isExempt tag.name = false → wider.isExempt tag.name = false := by
    intro hexempt
    rw [Bool.eq_false_iff]
    exact fun htrue => hlifts (Or.inl ⟨hexempt, htrue⟩)
  -- A name that is not unknown, or is not listed, resolves as before.
  have hresolve : ∀ {resolution : Resolution}, policy.isExempt tag.name = false →
      policy.resolve tag.name = resolution → ¬ (resolution = .invalid ∧ wider.isListed tag.name = true) →
        wider.resolve tag.name = resolution := by
    intro resolution hexempt hbefore hnot
    rw [h.resolve_eq_of_not_exempt hpolicy hexempt (hwider hexempt), hbefore, if_neg hnot]
  cases hjudgment with
  | exempt hexempt => exact .exempt (h.isExempt_of_isExempt hexempt)
  | redundant redundancy hexempt hredundancy => exact .redundant redundancy (hwider hexempt) hredundancy
  | valid hexempt hredundancy hbefore =>
    exact .valid (hwider hexempt) hredundancy (hresolve hexempt hbefore (by simp))
  | unknown hexempt hredundancy hbefore =>
    refine .unknown (hwider hexempt) hredundancy (hresolve hexempt hbefore ?_)
    exact fun hlisted => hlifts (Or.inr ⟨rfl, hlisted.2⟩)
  | blocked message hexempt hredundancy hbefore =>
    exact .blocked message (hwider hexempt) hredundancy (hresolve hexempt hbefore (by simp))
  | steered preferred message hexempt hredundancy hbefore hempty =>
    exact .steered preferred message (hwider hexempt) hredundancy (hresolve hexempt hbefore (by simp)) hempty

end Widens

end Policy

/-! ## Wider Configurations -/

/-- Whether a configuration defines and structures all names that another does, exempts the JSX tags
if the other does, and is the same otherwise. -/
structure WiderConfig (narrow wide : Options × Settings) : Prop where
  mode_eq : wide.2.mode = narrow.2.mode
  tagNamePreference_eq : wide.2.tagNamePreference = narrow.2.tagNamePreference
  /-- Redundancy is judged alike, or not at all. -/
  typed_eq : wide.1.typed = narrow.1.typed
  definedTags_subset : narrow.1.definedTags ⊆ wide.1.definedTags
  /-- What is said of the structure of a tag is of no account here, only that something is. -/
  structuredTags_subset : Dict.keys narrow.2.structuredTags ⊆ Dict.keys wide.2.structuredTags
  jsxTags_of_jsxTags : narrow.1.jsxTags = true → wide.1.jsxTags = true

/-- The names that one configuration defines or structures and another does not. -/
def addedNames (narrow wide : Options × Settings) : List String :=
  wide.1.definedTags.filter (fun name => !narrow.1.definedTags.contains name) ++
    (Dict.keys wide.2.structuredTags).filter fun name => !(Dict.keys narrow.2.structuredTags).contains name

/-- Whether a wider configuration lifts a report about a tag of a comment: the tag is one of the JSX
tags, which are newly exempt, or it was reported as unknown and its name is added. -/
def isLifted (narrow wide : Options × Settings) (block : Block) (report : Report) : Bool :=
  (report.tagIndex.bind block.tag?).any fun tag =>
    (wide.1.jsxTags && !narrow.1.jsxTags && Vocabulary.jsxNames.contains tag.name) ||
      (decide (report.issue = .unknownTag) && (addedNames narrow wide).contains tag.name)

section

variable {narrow wide : Options × Settings}

theorem mem_addedNames_iff {name : String}
    (hunknown : (Policy.ofConfig narrow.1 narrow.2).allows name = false) :
    name ∈ addedNames narrow wide ↔ (Policy.ofConfig wide.1 wide.2).isListed name = true := by
  have hnarrow : ¬ (Policy.ofConfig narrow.1 narrow.2).allows name = true := by simp [hunknown]
  rw [Policy.allows_iff, not_or, not_or, not_or, not_or] at hnarrow
  obtain ⟨-, hdefined, -, -, hstructured⟩ := hnarrow
  have hnotDefined : name ∉ narrow.1.definedTags := hdefined
  have hnotStructured : name ∉ Dict.keys narrow.2.structuredTags := hstructured
  unfold addedNames Policy.isListed
  simp [hnotDefined, hnotStructured, Policy.ofConfig, Policy.build]

/-- A report is lifted exactly if the issue of the decision that it follows from is. -/
theorem isLifted_iff (wide : Options × Settings) {block : Block} {context : Context} {tag : Tag}
    {index : Nat} {decision : Decision} {report : Report} (htag : block.tags[index]? = some tag)
    (hjudgment : Rule.Judgment (Rule.ofConfig narrow.1 narrow.2) tag context decision)
    (hreport : reportFor decision block index = .ok (some report)) :
    isLifted narrow wide block report = true ↔
      (Policy.ofConfig narrow.1 narrow.2).Lifts (Policy.ofConfig wide.1 wide.2) tag.name decision.issue := by
  obtain ⟨-, found, -, hissue, -, hindex, -⟩ := reportFor_eq_some hreport
  have hfound : block.tag? (index : Int) = some tag := by
    rw [Block.tag?_natCast, htag]
  unfold isLifted Policy.Lifts
  rw [hindex, Option.bind_some, hfound, Option.any_some, Bool.or_eq_true, Bool.and_eq_true (decide _), hissue,
    List.contains_iff_mem, decide_eq_true_eq, Option.some_inj]
  refine or_congr ?_ (and_congr_right fun hunknown => ?_)
  · -- Both sides say that the tag is one of the JSX tags, and that these are newly exempt.
    have hpart : ∀ config : Options × Settings, (Policy.ofConfig config.1 config.2).isExempt tag.name =
        (config.1.jsxTags && Vocabulary.jsxNames.contains tag.name) := fun _ => rfl
    rw [hpart, hpart]
    cases narrow.1.jsxTags <;> cases wide.1.jsxTags <;> simp
  · -- The name is unknown, so the narrow configuration neither defines nor structures it.
    refine mem_addedNames_iff ?_
    exact hjudgment.not_allows_of_issue (hissue.trans (congrArg some hunknown))

end

namespace WiderConfig

variable {narrow wide : Options × Settings} (h : WiderConfig narrow wide)

include h

theorem policy_widens : (Policy.ofConfig narrow.1 narrow.2).Widens (Policy.ofConfig wide.1 wide.2) where
  eq_with := by
    simp only [Policy.ofConfig, Policy.build, h.mode_eq, h.tagNamePreference_eq]
  definedNames_subset := h.definedTags_subset
  structuredNames_subset := h.structuredTags_subset
  jsxExempt_of_jsxExempt := h.jsxTags_of_jsxTags

theorem rule_eq : Rule.ofConfig wide.1 wide.2 = ⟨Policy.ofConfig wide.1 wide.2, narrow.1.typed⟩ := by
  unfold Rule.ofConfig
  rw [h.typed_eq]

/-- What a tag comes to under the wider configuration is what it came to before, unless that is
lifted. -/
theorem reportsOf_outcome {block : Block} (context : Context) {tag : Tag} {index : Nat}
    (htag : block.tags[index]? = some tag) :
    reportsOf ((Rule.ofConfig wide.1 wide.2).outcome block context tag index) =
      (reportsOf ((Rule.ofConfig narrow.1 narrow.2).outcome block context tag index)).filter
        fun report => !isLifted narrow wide block report := by
  by_cases hname : tag.name = ""
  · rw [Rule.outcome_of_unnamed hname, Rule.outcome_of_unnamed hname]
    rfl
  · -- Both rules decide about the tag; what the narrow one reports, if anything, is `made`.
    have hfound : block.tag? (index : Int) = some tag := by
      rw [Block.tag?_natCast, htag]
    have hclosed := Policy.isClosed_ofConfig narrow.1 narrow.2
    obtain ⟨decision, hdecide⟩ := Rule.exists_decide_ofConfig narrow.1 narrow.2 tag context
    have hjudgment := Rule.decide_eq_ok_iff.mp hdecide
    obtain ⟨made, hmade⟩ := hjudgment.exists_reportFor hfound
    have hlifted := fun report (hreport : made = some report) =>
      isLifted_iff wide htag hjudgment (hmade.trans (congrArg _ hreport))
    rw [Rule.outcome_of_decide hname hdecide, hmade, h.rule_eq]
    by_cases hlifts : (Policy.ofConfig narrow.1 narrow.2).Lifts (Policy.ofConfig wide.1 wide.2) tag.name
        decision.issue
    · -- The tag is passed over now, and its report, if it had one, is lifted.
      have hskip := Rule.decide_eq_ok_iff.mpr (h.policy_widens.judgment_of_lifts hclosed hjudgment hlifts)
      rw [Rule.outcome_of_decide hname hskip, reportFor_eq_none_iff.mpr rfl]
      cases made with
      | none => rfl
      | some report => simp [reportsOf, (hlifted report rfl).mpr hlifts]
    · -- The tag is decided about as before, and its report is kept.
      have hsame := Rule.decide_eq_ok_iff.mpr (h.policy_widens.judgment_of_not_lifts hclosed hjudgment hlifts)
      rw [Rule.outcome_of_decide hname hsame, hmade]
      cases made with
      | none => rfl
      | some report =>
        have hkept : isLifted narrow wide block report = false :=
          Bool.eq_false_iff.mpr fun htrue => hlifts ((hlifted report rfl).mp htrue)
        simp [reportsOf, hkept]

end WiderConfig

/-- **Allowing more only lifts reports**: under a wider configuration a check answers with the
reports of the narrower one, as they are and in their order, without those that are lifted. -/
theorem check_widened (narrow wide : Options × Settings) (h : WiderConfig narrow wide) (block : Block)
    (context : Context) (collector : Collector) :
    ∃ reports, (checkComment narrow.1 narrow.2 block context collector).1 = .ok reports ∧
      (checkComment wide.1 wide.2 block context collector).1 =
        .ok (reports.filter fun report => !isLifted narrow wide block report) := by
  refine ⟨_, congrArg Prod.fst (checkComment_eq narrow.1 narrow.2 block context collector), ?_⟩
  rw [checkComment_eq]
  unfold Rule.reportsOfTags
  rw [List.filter_flatMap]
  -- Lifting is settled tag by tag.
  refine congrArg Except.ok (List.flatMap_congr fun entry hentry => ?_)
  exact h.reportsOf_outcome context (List.mem_zipIdx_iff_getElem?.mp hentry)

/-- A name that becomes defined and a JSX tag are no longer reported; a blocked name and an unknown
one are reported as before. -/
theorem check_widened_jsx :
    let narrow : Options × Settings := ({}, { tagNamePreference := [("note", .bool false)] })
    let wide : Options × Settings := ({ definedTags := ["own"], jsxTags := true },
      { tagNamePreference := [("note", .bool false)], structuredTags := [("shape", .null)] })
    let block : Block := { tags := [{ name := "own" }, { name := "note" }, { name := "jsx" }, { name := "odd" }] }
    let about (index : Int) (issue : Issue) (message : String) : Report :=
      ⟨issue, message, some index, some ⟨Position.first, Position.first⟩, none⟩
    WiderConfig narrow wide ∧
      (checkComment narrow.1 narrow.2 block {} {}).1 = .ok
        [about 0 .unknownTag (Rule.unknownMessage "own"), about 1 .blockedTag (Policy.blockedMessage "note"),
          about 2 .unknownTag (Rule.unknownMessage "jsx"), about 3 .unknownTag (Rule.unknownMessage "odd")] ∧
      (checkComment wide.1 wide.2 block {} {}).1 = .ok
        [about 1 .blockedTag (Policy.blockedMessage "note"),
          about 3 .unknownTag (Rule.unknownMessage "odd")] := by
  intro narrow wide block about
  have hwider : WiderConfig narrow wide :=
    ⟨rfl, rfl, rfl, by simp [narrow], by simp [narrow, Dict.keys], by simp [narrow]⟩
  have hreports : (checkComment narrow.1 narrow.2 block {} {}).1 = .ok
      [about 0 .unknownTag (Rule.unknownMessage "own"), about 1 .blockedTag (Policy.blockedMessage "note"),
        about 2 .unknownTag (Rule.unknownMessage "jsx"), about 3 .unknownTag (Rule.unknownMessage "odd")] := by
    rfl
  refine ⟨hwider, hreports, ?_⟩
  obtain ⟨reports, hnarrow, hwide⟩ := check_widened narrow wide hwider block {} {}
  rw [hreports] at hnarrow
  cases hnarrow
  rw [hwide]
  rfl

end DocLint
