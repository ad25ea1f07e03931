import DocLint.Proofs.Steering
import DocLint.Rule

/-!
# Decisions of the Rule

The ways in which the rule comes to a decision about a tag, one constructor for each. Main statements:
`decide_eq_ok_iff`, by which they are all the ways there are, and `exists_judgment`, by which the rule of a
configuration always comes to a decision.
-/

namespace DocLint.Rule

/-! ## The Ways to a Decision -/

/-- How a decision about a tag comes about: the exemption is asked for first, then redundancy, and
the policy last. -/
inductive Judgment (rule : Rule) (tag : Tag) (context : Context) : Decision → Prop where
  /-- Exempt names are passed over whatever else is true of them. -/
  | exempt : rule.policy.isExempt tag.name = true → Judgment rule tag context Decision.skip
  /-- A redundant tag is reported as such, even if its name is not allowed. -/
  | redundant (redundancy : RedundancyRule) :
      rule.policy.isExempt tag.name = false → rule.redundancy? tag context = some redundancy →
      Judgment rule tag context ⟨.reportOnly, some .typedRedundant, redundancy.message tag.name, none⟩
  | valid :
      rule.policy.isExempt tag.name = false → rule.redundancy? tag context = none →
      rule.policy.resolve tag.name = .valid → Judgment rule tag context Decision.skip
  | unknown :
      rule.policy.isExempt tag.name = false → rule.redundancy? tag context = none →
      rule.policy.resolve tag.name = .invalid →
      Judgment rule tag context ⟨.reportOnly, some .unknownTag, unknownMessage tag.name, none⟩
  /-- A blocked name is reported with the message that it is blocked with. -/
  | blocked (message : String) :
      rule.policy.isExempt tag.name = false → rule.redundancy? tag context = none →
      rule.policy.resolve tag.name = .blocked message →
      Judgment rule tag context ⟨.reportOnly, some .blockedTag, message, none⟩
  /-- A name for which there is a better one is to be replaced by it. There is no judgment of a name
  that is steered to the empty one: there the decision fails. -/
  | steered (preferred : String) (message : Option String) :
      rule.policy.isExempt tag.name = false → rule.redundancy? tag context = none →
      rule.policy.resolve tag.name = .preferred preferred message → preferred ≠ "" →
      Judgment rule tag context ⟨.reportAndReplace, some .preferredName,
        Policy.messageOr message (preferredMessage tag.name preferred), some preferred⟩

variable {rule : Rule} {tag : Tag} {context : Context} {decision : Decision}

theorem decide_of_not_redundant (hexempt : rule.policy.isExempt tag.name = false)
    (hredundancy : rule.redundancy? tag context = none) :
    rule.decide tag context = rule.decideByPolicy tag.name := by
  unfold decide
  rw [hexempt, hredundancy]
  rfl

/-- The rule comes to a decision exactly in one of these ways. Later proofs take a decision apart by
this, and never open the rule itself. -/
theorem decide_eq_ok_iff :
    rule.decide tag context = .ok decision ↔ rule.Judgment tag context decision := by
  constructor
  · -- The cases are split in the order in which the rule asks: exemption, redundancy, policy.
    intro h
    cases hexempt : rule.policy.isExempt tag.name with
    | true =>
      simp only [decide, hexempt, if_true] at h
      cases h
      exact .exempt hexempt
    | false =>
      cases hredundancy : rule.redundancy? tag context with
      | some redundancy =>
        simp only [decide, hexempt, hredundancy, Bool.false_eq_true, if_false] at h
        cases h
        exact .redundant redundancy hexempt hredundancy
      | none =>
        rw [decide_of_not_redundant hexempt hredundancy] at h
        unfold decideByPolicy at h
        cases hresolve : rule.policy.resolve tag.name with
        | exempt =>
          -- The exemption was asked for before the policy.
          rw [Policy.resolve_eq_exempt_iff, hexempt] at hresolve
          cases hresolve
        | valid =>
          simp only [hresolve] at h
          cases h
          exact .valid hexempt hredundancy hresolve
        | invalid =>
          simp only [hresolve] at h
          cases h
          exact .unknown hexempt hredundancy hresolve
        | blocked message =>
          simp only [hresolve] at h
          cases h
          exact .blocked message hexempt hredundancy hresolve
        | preferred preferred message =>
          -- A name steered nowhere is a fault, not a decision.
          by_cases hempty : preferred = ""
          · simp only [hresolve, if_pos hempty] at h
            cases h
          · simp only [hresolve, if_neg hempty] at h
            cases h
            exact .steered preferred message hexempt hredundancy hresolve hempty
  · -- Each way carries what the rule asked for, which leads it to the decision again.
    intro h
    cases h with
    | exempt hexempt => simp only [decide, hexempt, if_true]
    | redundant redundancy hexempt hredundancy =>
      simp only [decide, hexempt, hredundancy, Bool.false_eq_true, if_false]
    | valid hexempt hredundancy hresolve =>
      simp only [decide_of_not_redundant hexempt hredundancy, decideByPolicy, hresolve]
    | unknown hexempt hredundancy hresolve =>
      simp only [decide_of_not_redundant hexempt hredundancy, decideByPolicy, hresolve]
    | blocked message hexempt hredundancy hresolve =>
      simp only [decide_of_not_redundant hexempt hredundancy, decideByPolicy, hresolve]
    | steered preferred message hexempt hredundancy hresolve hempty =>
      simp only [decide_of_not_redundant hexempt hredundancy, decideByPolicy, hresolve, if_neg hempty]

/-- Where no name is steered to the empty name, every tag is decided about. The coherence of the
policy is needed in the last case only. -/
theorem exists_judgment (hpolicy : rule.policy.IsCoherent) (tag : Tag) (context : Context) :
    ∃ decision, rule.Judgment tag context decision := by
  -- The three questions in the order in which the rule asks them.
  cases hexempt : rule.policy.isExempt tag.name with
  | true => exact ⟨_, .exempt hexempt⟩
  | false =>
    cases hredundancy : rule.redundancy? tag context with
    | some redundancy => exact ⟨_, .redundant redundancy hexempt hredundancy⟩
    | none =>
      cases hresolve : rule.policy.resolve tag.name with
      -- The exemption has been asked for already.
      | exempt =>
        rw [Policy.resolve_eq_exempt_iff, hexempt] at hresolve
        cases hresolve
      | valid => exact ⟨_, .valid hexempt hredundancy hresolve⟩
      | invalid => exact ⟨_, .unknown hexempt hredundancy hresolve⟩
      | blocked message => exact ⟨_, .blocked message hexempt hredundancy hresolve⟩
      | preferred preferred message =>
        have hempty := hpolicy.preferred_ne_empty hresolve
        exact ⟨_, .steered preferred message hexempt hredundancy hresolve hempty⟩

/-! ## Single Kinds of Decisions -/

/-- A decision to replace a name writes the name that the policy steers to. -/
theorem Judgment.steered_of_kind (h : rule.Judgment tag context decision)
    (hkind : decision.kind = .reportAndReplace) :
    ∃ preferred message, rule.policy.resolve tag.name = .preferred preferred message ∧
      decision.preferredName = some preferred ∧ preferred ≠ "" := by
  cases h with
  | steered preferred message _ _ hresolve hempty => exact ⟨preferred, message, hresolve, rfl, hempty⟩
  | _ => cases hkind

/-- A tag is passed over exactly if it is exempt, or neither redundant nor steered, blocked or
unknown. -/
theorem judgment_skip_iff :
    rule.Judgment tag context Decision.skip ↔
      rule.policy.isExempt tag.name = true ∨
        rule.redundancy? tag context = none ∧ rule.policy.resolve tag.name = .valid := by
  constructor
  · intro h
    -- The decision is an index of the judgment, so it has to be a variable for the cases.
    generalize hdecision : Decision.skip = decision at h
    cases h with
    | exempt hexempt => exact Or.inl hexempt
    | valid _ hredundancy hresolve => exact Or.inr ⟨hredundancy, hresolve⟩
    | _ => cases hdecision
  · rintro (hexempt | ⟨hredundancy, hresolve⟩)
    · exact .exempt hexempt
    · cases hexempt : rule.policy.isExempt tag.name with
      | true => exact .exempt hexempt
      | false => exact .valid hexempt hredundancy hresolve

/-- A decision that calls a tag unknown is about a name that the policy does not know. -/
theorem Judgment.not_allows_of_issue (h : rule.Judgment tag context decision)
    (hissue : decision.issue = some .unknownTag) : rule.policy.allows tag.name = false := by
  cases h with
  | unknown _ _ hresolve => exact (Policy.resolve_eq_invalid_iff.mp hresolve).2
  | _ => cases hissue

end DocLint.Rule
