import DocLint.Proofs.ConfiguredChecks

/-!
# Diagnoses of Single Tags

A check by a configuration reports each tag by the decision about that tag alone: its neighbours decide
neither whether it is reported nor what is said. Only the number of the tag and the text of a fix depend on
the comment. Main statements: `exists_indices_reportsOfTags`, by which the reports stand in the order of
their tags, `diagnosis?_of_decide`, by which what is said of a tag follows from the decision about it, and
`tags_diagnosed_alone`.
-/

namespace DocLint

/-! ## What Reports Say -/

/-- What a report says of its tag, the number of the tag and the fix apart. These two are what
depends on the rest of the comment. -/
structure Diagnosis where
  issue : Issue
  message : String
  span : Option Span
  deriving DecidableEq, Repr, Inhabited

def Report.diagnosis (report : Report) : Diagnosis := ⟨report.issue, report.message, report.span⟩

/-- What reports say of the tag of a number, if they say anything. -/
def diagnosis? (reports : List Report) (index : Nat) : Option Diagnosis :=
  (reports.find? fun report => report.tagIndex == some (index : Int)).map Report.diagnosis

/-- Whether a report carries the place of a tag and what was decided about it, and a fix exactly if
it is about a better name or about redundancy. -/
structure Report.Conveys (report : Report) (decision : Decision) (tag : Tag) : Prop where
  span_eq : report.span = some tag.span
  issue_eq : decision.issue = some report.issue
  message_eq : report.message = decision.message
  /-- Unknown and blocked names come without a fix, for no other name is known to be right. -/
  fix_iff : report.fix.isSome = true ↔
    report.issue = .preferredName ∨ report.issue = .typedRedundant

/-- What a decision about a tag says of it; nothing if the tag has no name or is to be passed
over. -/
def Decision.diagnosis? (decision : Decision) (tag : Tag) : Option Diagnosis :=
  if tag.name = "" ∨ decision = Decision.skip then none
  else decision.issue.map fun issue => ⟨issue, decision.message, some tag.span⟩

namespace Rule

/-! ## What a Single Tag Comes To -/

section

variable {rule : Rule} {block : Block} {context : Context} {tag : Tag} {decision : Decision}

theorem Judgment.kind_eq_skip_iff (h : rule.Judgment tag context decision) :
    decision.kind = .skip ↔ decision = Decision.skip := by
  cases h <;> simp [Decision.skip]

/-- The report of a decision of the rule conveys the decision: it says its issue and its message,
points at the tag, and offers a fix where that is the kind of issue to have one. -/
theorem Judgment.conveys (h : rule.Judgment tag context decision) {index : Int} {report : Report}
    (htag : block.tag? index = some tag) (hreport : reportFor decision block index = .ok (some report)) :
    report.Conveys decision tag := by
  obtain ⟨issue, message, number, span, fix⟩ := report
  obtain ⟨hkind, found, hfound, hissue, hmessage, -, hspan, hfix⟩ := reportFor_eq_some hreport
  rw [htag, Option.some.injEq] at hfound
  subst hfound
  refine ⟨hspan, hissue, hmessage, ?_⟩
  -- One case for each way to a decision that is reported: the decision says the issue, and that the
  -- fix.
  cases h with
  | exempt => exact absurd rfl hkind
  | valid => exact absurd rfl hkind
  | redundant redundancy =>
    cases hissue
    simp only [fixFor, if_true, Except.ok.injEq] at hfix
    simp [← hfix, Block.isSome_redundancyFix? htag]
  | unknown =>
    cases hissue
    cases hfix
    simp
  | blocked message =>
    cases hissue
    cases hfix
    simp
  | steered preferred message _ _ _ hempty =>
    cases hissue
    simp only [fixFor, if_neg hempty] at hfix
    cases hfix
    simp

/-- A tag of a comment that is decided about comes to nothing exactly if it has no name or is to be
passed over, and else to a report that conveys the decision. -/
theorem outcome_cases {index : Nat} (htag : block.tags[index]? = some tag)
    (hdecide : rule.decide tag context = .ok decision) :
    (tag.name = "" ∨ decision = Decision.skip) ∧ rule.outcome block context tag index = .ok none ∨
      (tag.name ≠ "" ∧ decision ≠ Decision.skip) ∧
        ∃ report, rule.outcome block context tag index = .ok (some report) ∧
          report.Conveys decision tag := by
  by_cases hname : tag.name = ""
  · exact Or.inl ⟨Or.inl hname, outcome_of_unnamed hname⟩
  · have hjudgment := decide_eq_ok_iff.mp hdecide
    have hfound : block.tag? (index : Int) = some tag := by
      rw [Block.tag?_natCast, htag]
    -- The decision can be reported, and whether there is a report is a question of its kind.
    obtain ⟨made, hmade⟩ := hjudgment.exists_reportFor hfound
    rw [outcome_of_decide hname hdecide, hmade]
    cases made with
    | none =>
      have hskip := hjudgment.kind_eq_skip_iff.mp (reportFor_eq_none_iff.mp hmade)
      exact Or.inl ⟨Or.inr hskip, rfl⟩
    | some report =>
      have hkind := (reportFor_eq_some hmade).1
      exact Or.inr ⟨⟨hname, mt hjudgment.kind_eq_skip_iff.mpr hkind⟩, report, rfl,
        hjudgment.conveys hfound hmade⟩

end

/-! ## The Reports of a Comment -/

section

variable {rule : Rule} {block : Block} {context : Context}

/-- The reports of numbered tags bear some of their numbers, in order. A tag that comes to nothing
leaves its number out, so the numbers are a sublist. -/
theorem exists_indices (rule : Rule) (block : Block) (context : Context) (entries : List (Tag × Nat)) :
    ∃ indices : List Nat, indices.Sublist (entries.map Prod.snd) ∧
      (entries.flatMap fun entry => reportsOf (rule.outcome block context entry.1 entry.2)).map
          Report.tagIndex = indices.map fun index => some (index : Int) := by
  induction entries with
  | nil => exact ⟨[], List.Sublist.refl _, rfl⟩
  | cons entry entries ih =>
    obtain ⟨tag, index⟩ := entry
    obtain ⟨indices, hindices, hrest⟩ := ih
    rw [List.map_cons, List.flatMap_cons, List.map_append, hrest]
    cases houtcome : rule.outcome block context tag index with
    -- Only a report has a number to add.
    | error fault => exact ⟨indices, hindices.cons index, rfl⟩
    | ok made =>
      cases made with
      | none => exact ⟨indices, hindices.cons index, rfl⟩
      | some report =>
        refine ⟨index :: indices, hindices.cons_cons index, ?_⟩
        simp [reportsOf, tagIndex_of_outcome houtcome]

/-- The reports of a comment bear numbers of its tags, in strictly increasing order. -/
theorem exists_indices_reportsOfTags (rule : Rule) (block : Block) (context : Context) :
    ∃ indices : List Nat,
      (rule.reportsOfTags block context block.tags).map Report.tagIndex =
          indices.map (fun index => some (index : Int)) ∧
        indices.Pairwise (· < ·) ∧ ∀ index ∈ indices, index < block.tags.length := by
  obtain ⟨indices, hsublist, hreports⟩ := exists_indices rule block context block.tags.zipIdx
  -- The tags are numbered upwards, and so is every sublist of their numbers.
  rw [List.zipIdx_map_snd] at hsublist
  refine ⟨indices, hreports, (List.pairwise_lt_range' 1).sublist hsublist, ?_⟩
  intro index hindex
  have hrange := List.mem_range'_1.mp (hsublist.subset hindex)
  omega

/-- A report of a comment is about a tag exactly if the tag comes to it. -/
theorem mem_reportsOfTags_and_tagIndex_iff {tag : Tag} {index : Nat} {report : Report}
    (htag : block.tags[index]? = some tag) :
    report ∈ rule.reportsOfTags block context block.tags ∧ report.tagIndex = some (index : Int) ↔
      rule.outcome block context tag index = .ok (some report) := by
  rw [mem_reportsOfTags_iff]
  constructor
  · intro h
    obtain ⟨⟨found, number, hfound, houtcome⟩, hindex⟩ := h
    -- A report bears the number of the tag that came to it.
    rw [tagIndex_of_outcome houtcome, Option.some.injEq, Int.natCast_inj] at hindex
    subst hindex
    rw [htag, Option.some.injEq] at hfound
    rw [hfound]
    exact houtcome
  · intro houtcome
    exact ⟨⟨tag, index, htag, houtcome⟩, tagIndex_of_outcome houtcome⟩

section

variable {tag : Tag} {index : Nat} {decision : Decision} (htag : block.tags[index]? = some tag)
  (hdecide : rule.decide tag context = .ok decision)

include htag hdecide

/-- A tag is reported exactly if it has a name and is not to be passed over. -/
theorem exists_report_iff :
    (∃ report ∈ rule.reportsOfTags block context block.tags, report.tagIndex = some (index : Int)) ↔
      tag.name ≠ "" ∧ decision ≠ Decision.skip := by
  rcases outcome_cases htag hdecide with ⟨hpassed, hnone⟩ | ⟨hnamed, report, hreport, -⟩
  · refine iff_of_false ?_ (not_and_or.mpr (hpassed.imp not_not_intro not_not_intro))
    intro h
    obtain ⟨report, hreport⟩ := h
    rw [mem_reportsOfTags_and_tagIndex_iff htag, hnone] at hreport
    cases hreport
  · exact iff_of_true ⟨report, (mem_reportsOfTags_and_tagIndex_iff htag).mpr hreport⟩ hnamed

/-- A report about a tag conveys the decision about it. -/
theorem conveys_of_mem {report : Report} (hmem : report ∈ rule.reportsOfTags block context block.tags)
    (hindex : report.tagIndex = some (index : Int)) : report.Conveys decision tag := by
  have hreport := (mem_reportsOfTags_and_tagIndex_iff htag).mp ⟨hmem, hindex⟩
  rcases outcome_cases htag hdecide with ⟨-, hnone⟩ | ⟨-, made, hmade, hconveys⟩
  · rw [hnone] at hreport
    cases hreport
  · rw [hmade, Except.ok.injEq, Option.some.injEq] at hreport
    subst hreport
    exact hconveys

end

/-- What the reports of a comment say of a tag is what the report says that the tag comes to. -/
theorem diagnosis?_reportsOfTags {tag : Tag} {index : Nat} {made : Option Report}
    (htag : block.tags[index]? = some tag) (houtcome : rule.outcome block context tag index = .ok made) :
    diagnosis? (rule.reportsOfTags block context block.tags) index = made.map Report.diagnosis := by
  unfold diagnosis?
  apply congrArg
  cases hfind : (rule.reportsOfTags block context block.tags).find?
      fun report => report.tagIndex == some (index : Int) with
  | some report =>
    -- Whatever is found under the number is what the tag comes to, so there is no choice.
    have hreport := (mem_reportsOfTags_and_tagIndex_iff htag).mp
      ⟨List.mem_of_find?_eq_some hfind, by simpa using List.find?_some hfind⟩
    rw [houtcome] at hreport
    exact (Except.ok.inj hreport).symm
  | none =>
    cases made with
    | none => rfl
    | some report =>
      obtain ⟨hmem, hindex⟩ := (mem_reportsOfTags_and_tagIndex_iff htag).mpr houtcome
      have hnone := List.find?_eq_none.mp hfind report hmem
      simp [hindex] at hnone

/-- What the reports of a comment say of a tag is what the decision about the tag says. The right
side knows nothing of the comment, and that is why the neighbours of a tag have no say. -/
theorem diagnosis?_of_decide {tag : Tag} {index : Nat} {decision : Decision}
    (htag : block.tags[index]? = some tag) (hdecide : rule.decide tag context = .ok decision) :
    diagnosis? (rule.reportsOfTags block context block.tags) index = decision.diagnosis? tag := by
  unfold Decision.diagnosis?
  rcases outcome_cases htag hdecide with ⟨hpassed, hnone⟩ | ⟨hnamed, report, hreport, hconveys⟩
  · rw [if_pos hpassed, diagnosis?_reportsOfTags htag hnone, Option.map_none]
  · rw [if_neg (not_or.mpr hnamed), diagnosis?_reportsOfTags htag hreport, hconveys.issue_eq,
      Option.map_some, Option.map_some, ← hconveys.message_eq, ← hconveys.span_eq]
    rfl

end

end Rule

/-! ## Checks by a Configuration -/

/-- **Each tag is diagnosed alone.** The reports of a check stand in the order of their tags, at
most one for each. A tag is reported exactly if it has a name and the decision about it is not to
pass it over; the report carries the place of the tag and what was decided, and a fix exactly if it
is about a better name or about redundancy. What is said of the tag is what is said of it in the
comment with this tag only, and in every comment that has the tag, whatever the other tags are. -/
theorem tags_diagnosed_alone (options : Options) (settings : Settings) (block : Block) (context : Context)
    (collector : Collector) :
    let rule := Rule.ofConfig options settings
    ∃ reports, (rule.check block context collector).1 = .ok reports ∧
      (∃ indices : List Nat, reports.map Report.tagIndex = indices.map (fun index => some (index : Int)) ∧
        indices.Pairwise (· < ·) ∧ ∀ index ∈ indices, index < block.tags.length) ∧
      ∀ (index : Nat) (tag : Tag), block.tags[index]? = some tag →
        ∃ decision, rule.decide tag context = .ok decision ∧
          ((∃ report ∈ reports, report.tagIndex = some (index : Int)) ↔
            tag.name ≠ "" ∧ decision ≠ Decision.skip) ∧
          (∀ report ∈ reports, report.tagIndex = some (index : Int) → report.Conveys decision tag) ∧
          (∃ alone, (rule.check { block with tags := [tag] } context collector).1 = .ok alone ∧
            diagnosis? alone 0 = diagnosis? reports index) ∧
          ∀ (other : Block) (number : Nat), other.tags[number]? = some tag →
            ∃ others, (rule.check other context collector).1 = .ok others ∧
              diagnosis? others number = diagnosis? reports index := by
  intro rule
  -- The collector does not matter for what a check answers.
  have hcheck := fun block : Block =>
    congrArg Prod.fst (Rule.check_ofConfig options settings block context collector)
  refine ⟨rule.reportsOfTags block context block.tags, hcheck block,
    rule.exists_indices_reportsOfTags block context, ?_⟩
  intro index tag htag
  obtain ⟨decision, hdecide⟩ := Rule.exists_decide_ofConfig options settings tag context
  -- The decision is the same wherever the tag stands.
  have hsame : ∀ (other : Block) (number : Nat), other.tags[number]? = some tag →
      ∃ others, (rule.check other context collector).1 = .ok others ∧
        diagnosis? others number = diagnosis? (rule.reportsOfTags block context block.tags) index := by
    intro other number hother
    refine ⟨_, hcheck other, ?_⟩
    rw [Rule.diagnosis?_of_decide hother hdecide, Rule.diagnosis?_of_decide htag hdecide]
  refine ⟨decision, hdecide, Rule.exists_report_iff htag hdecide, ?_,
    hsame { block with tags := [tag] } 0 rfl, hsame⟩
  intro report hmem hindex
  exact Rule.conveys_of_mem htag hdecide hmem hindex

end DocLint
