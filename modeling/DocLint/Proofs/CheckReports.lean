import DocLint.Proofs.Decisions

/-!
# Reports of a Check

Where the reports of a check come from. What a single tag comes to does not depend on what has been
reported before; the check collects it tag by tag until one tag stops it. Main statements:
`checkTags_collector`, which says what a check adds to the reports, and `mem_reports_check`, by which each
report added is what one of the tags of the comment comes to.
-/

namespace DocLint

/-! ## Adding Reports -/

/-- Takes reports in, in order. Nothing that was there before is touched, and so neither are the
messages about the settings. -/
def Collector.addAll (collector : Collector) (reports : List Report) : Collector :=
  { collector with reports := collector.reports ++ reports }

@[simp] theorem Collector.addAll_nil (collector : Collector) : collector.addAll [] = collector := by
  simp [addAll]

@[simp] theorem Collector.addAll_addAll (collector : Collector) (first second : List Report) :
    (collector.addAll first).addAll second = collector.addAll (first ++ second) := by
  simp [addAll, List.append_assoc]

/-- The report of an outcome, if it has one. -/
def reportsOf : Except Fault (Option Report) → List Report
  | .ok report => report.toList
  | .error _ => []

/-- Emitting a decision gives its report, or what is wrong with it, and adds the report only. What
comes out of it does not depend on the collector. -/
theorem emit_eq (decision : Decision) (block : Block) (index : Int) (collector : Collector) :
    emit decision block index collector =
      (reportFor decision block index, collector.addAll (reportsOf (reportFor decision block index))) := by
  unfold emit
  cases reportFor decision block index with
  | error fault => simp [reportsOf]
  | ok report =>
    cases report with
    | none => simp [reportsOf]
    | some report => rfl

theorem Block.tag?_natCast (block : Block) (index : Nat) :
    block.tag? (index : Int) = block.tags[index]? := by
  unfold tag?
  rw [if_pos (Int.natCast_nonneg index), Int.toNat_natCast]

section

variable {decision : Decision} {block : Block} {index : Int}

/-- A decision that can be reported passes its tag over, or has an issue and a fix for a tag that is
there, which make up the report. -/
theorem reportFor_ok_cases {outcome : Option Report} (h : reportFor decision block index = .ok outcome) :
    decision.kind = .skip ∧ outcome = none ∨
      decision.kind ≠ .skip ∧ ∃ tag issue fix, block.tag? index = some tag ∧
        decision.issue = some issue ∧ fixFor decision issue block index tag.name = .ok fix ∧
        outcome = some ⟨issue, decision.message, some index, some tag.span, fix⟩ := by
  unfold reportFor at h
  by_cases hkind : decision.kind = .skip
  · rw [if_pos hkind] at h
    cases h
    exact Or.inl ⟨hkind, rfl⟩
  · -- Each thing that the report needs is looked up in turn, and what is missing is a fault.
    rw [if_neg hkind] at h
    cases htag : block.tag? index with
    | none => simp [htag] at h
    | some tag =>
      simp only [htag] at h
      cases hissue : decision.issue with
      | none => simp [hissue] at h
      | some issue =>
        simp only [hissue] at h
        cases hfix : fixFor decision issue block index tag.name with
        | error fault =>
          rw [hfix] at h
          cases h
        -- Nothing is missing, so the report is made of what was found.
        | ok fix =>
          rw [hfix] at h
          cases h
          exact Or.inr ⟨hkind, tag, issue, fix, rfl, rfl, hfix, rfl⟩

theorem reportFor_eq_some {report : Report} (h : reportFor decision block index = .ok (some report)) :
    decision.kind ≠ .skip ∧ ∃ tag, block.tag? index = some tag ∧
      decision.issue = some report.issue ∧ report.message = decision.message ∧
      report.tagIndex = some index ∧ report.span = some tag.span ∧
      fixFor decision report.issue block index tag.name = .ok report.fix := by
  obtain ⟨-, hnone⟩ | ⟨hkind, tag, issue, fix, htag, hissue, hfix, hreport⟩ := reportFor_ok_cases h
  · cases hnone
  · cases hreport
    exact ⟨hkind, tag, htag, hissue, rfl, rfl, rfl, hfix⟩

/-- Only a decision to pass a tag over leads to no report and no fault. -/
theorem reportFor_eq_none_iff : reportFor decision block index = .ok none ↔ decision.kind = .skip := by
  constructor
  · intro h
    obtain ⟨hkind, -⟩ | ⟨-, tag, issue, fix, -, -, -, hreport⟩ := reportFor_ok_cases h
    · exact hkind
    · cases hreport
  · intro hkind
    unfold reportFor
    rw [if_pos hkind]

end

namespace Rule

/-! ## Single Tags -/

/-- What a tag of a comment comes to: a report, nothing, or what stops the check. -/
def outcome (rule : Rule) (block : Block) (context : Context) (tag : Tag) (index : Nat) :
    Except Fault (Option Report) :=
  if tag.name = "" then .ok none
  else
    match rule.decide tag context with
    | .ok decision => reportFor decision block index
    | .error fault => .error fault

/-- Checking a tag gives what the tag comes to and adds its report only. -/
theorem checkTag_eq (rule : Rule) (block : Block) (context : Context) (tag : Tag) (index : Nat)
    (collector : Collector) :
    rule.checkTag block context tag index collector =
      (rule.outcome block context tag index,
        collector.addAll (reportsOf (rule.outcome block context tag index))) := by
  unfold checkTag outcome
  by_cases hname : tag.name = ""
  · simp [hname, reportsOf]
  · simp only [if_neg hname]
    cases rule.decide tag context with
    | error fault => simp [reportsOf]
    | ok decision => exact emit_eq decision block index collector

/-- A report that a tag comes to follows from the decision about the tag. -/
theorem decide_of_outcome {rule : Rule} {block : Block} {context : Context} {tag : Tag} {index : Nat}
    {report : Report} (h : rule.outcome block context tag index = .ok (some report)) :
    ∃ decision, rule.decide tag context = .ok decision ∧
      reportFor decision block index = .ok (some report) := by
  unfold outcome at h
  by_cases hname : tag.name = ""
  · simp [hname] at h
  · simp only [if_neg hname] at h
    cases hdecide : rule.decide tag context with
    | error fault => simp [hdecide] at h
    | ok decision => exact ⟨decision, rfl, by simpa [hdecide] using h⟩

theorem tagIndex_of_outcome {rule : Rule} {block : Block} {context : Context} {tag : Tag} {index : Nat}
    {report : Report} (h : rule.outcome block context tag index = .ok (some report)) :
    report.tagIndex = some (index : Int) := by
  obtain ⟨decision, -, hreport⟩ := decide_of_outcome h
  obtain ⟨-, -, -, -, -, hindex, -⟩ := reportFor_eq_some hreport
  exact hindex

/-! ## All Tags -/

/-- The reports that tags come to, up to the first tag that stops the check. -/
def reportsUntilFault (rule : Rule) (block : Block) (context : Context) :
    List (Tag × Nat) → List Report
  | [] => []
  | (tag, index) :: rest =>
    match rule.outcome block context tag index with
    | .ok report => report.toList ++ reportsUntilFault rule block context rest
    | .error _ => []

/-- Checking tags adds the reports that they come to, up to the first tag that stops the check. -/
theorem checkTags_collector (rule : Rule) (block : Block) (context : Context) (tags : List (Tag × Nat))
    (collector : Collector) :
    (rule.checkTags block context tags collector).2 =
      collector.addAll (rule.reportsUntilFault block context tags) := by
  -- By induction on the tags, for every collector: each tag leaves its report to the next one.
  induction tags generalizing collector with
  | nil => simp [checkTags, reportsUntilFault]
  | cons entry rest ih =>
    obtain ⟨tag, index⟩ := entry
    unfold checkTags reportsUntilFault
    rw [checkTag_eq]
    cases rule.outcome block context tag index with
    | error fault => simp [reportsOf]
    | ok report =>
      -- The rest is checked with the report taken in, so the hypothesis is used at that collector.
      have hrest := ih (collector.addAll report.toList)
      rw [Collector.addAll_addAll] at hrest
      simp only [reportsOf]
      cases hcheck : rule.checkTags block context rest (collector.addAll report.toList) with
      | mk result later =>
        rw [hcheck] at hrest
        cases result with
        | error fault => exact hrest
        | ok reports => exact hrest

/-- Reports come from tags: each is what one of the tags comes to, under its own number. -/
theorem mem_reportsUntilFault {rule : Rule} {block : Block} {context : Context} {report : Report}
    {tags : List (Tag × Nat)} (h : report ∈ rule.reportsUntilFault block context tags) :
    ∃ tag index, (tag, index) ∈ tags ∧ rule.outcome block context tag index = .ok (some report) := by
  induction tags with
  | nil => cases h
  | cons entry rest ih =>
    obtain ⟨tag, index⟩ := entry
    unfold reportsUntilFault at h
    cases houtcome : rule.outcome block context tag index with
    | error fault => simp [houtcome] at h
    | ok made =>
      -- The report is that of the first tag, or one of the reports of the others.
      simp only [houtcome, List.mem_append, Option.mem_toList] at h
      rcases h with hmade | hrest
      · rw [Option.mem_def.mp hmade] at houtcome
        exact ⟨tag, index, List.mem_cons_self .., houtcome⟩
      · obtain ⟨other, number, hmem, hother⟩ := ih hrest
        exact ⟨other, number, List.mem_cons_of_mem _ hmem, hother⟩

/-- A report of a check was there before, or is what a tag of the comment comes to. -/
theorem mem_reports_check {rule : Rule} {block : Block} {context : Context} {report : Report}
    {collector : Collector} (h : report ∈ (rule.check block context collector).2.reports) :
    report ∈ collector.reports ∨
      ∃ (tag : Tag) (index : Nat), block.tags[index]? = some tag ∧
        rule.outcome block context tag index = .ok (some report) := by
  unfold check at h
  rw [checkTags_collector] at h
  -- What the check adds stands behind what was there before.
  rcases List.mem_append.mp h with hbefore | hmade
  · exact Or.inl hbefore
  · obtain ⟨tag, index, hmem, houtcome⟩ := mem_reportsUntilFault hmade
    exact Or.inr ⟨tag, index, List.mem_zipIdx_iff_getElem?.mp hmem, houtcome⟩

end Rule

end DocLint
