import DocLint.Proofs.CheckReports

/-!
# Completing a Check

How a check ends. It is stopped by the first tag that the rule cannot decide about, since every decision of
the rule can be reported; a rule of a configuration decides about every tag. Main statements:
`checkTags_result`, which says what a check answers, and `configured_check_completes`, by which no
configuration stops a check.
-/

namespace DocLint

/-! ## Decisions of the Rule Can Be Reported -/

/-- There is a fix for every tag that says nothing beside a type system: whichever way the fix goes,
it looks the same tag up again. -/
theorem Block.isSome_redundancyFix? {block : Block} {index : Int} {tag : Tag}
    (h : block.tag? index = some tag) : (block.redundancyFix? index).isSome := by
  unfold redundancyFix?
  rw [h]
  by_cases hblank : Text.isBlankText tag.description = true
  · -- Whether or not the comment goes as a whole, the tag to be removed is there.
    cases hempty : block.isEmptyWithoutTag <;> simp [hblank, removeTag?, hempty, h]
  · simp [hblank, stripTag?, h]

namespace Rule

/-- A decision of the rule can be reported for every tag of a comment. The tag need not be the one
that was decided about, since a report takes only its name and its place. -/
theorem Judgment.exists_reportFor {rule : Rule} {tag : Tag} {context : Context} {decision : Decision}
    (h : rule.Judgment tag context decision) {block : Block} {index : Int} {found : Tag}
    (hfound : block.tag? index = some found) : ∃ report, reportFor decision block index = .ok report := by
  -- One case for each way to a decision: each but the first says its issue, and a steered name is
  -- not empty.
  cases h with
  | exempt => exact ⟨none, rfl⟩
  | valid => exact ⟨none, rfl⟩
  | redundant redundancy => simp [reportFor, fixFor, hfound, bind, Except.bind, pure, Except.pure]
  | unknown => simp [reportFor, fixFor, hfound, bind, Except.bind, pure, Except.pure]
  | blocked message => simp [reportFor, fixFor, hfound, bind, Except.bind, pure, Except.pure]
  | steered preferred message _ _ _ hempty =>
    simp [reportFor, fixFor, hfound, hempty, bind, Except.bind, pure, Except.pure]

section

variable {rule : Rule} {block : Block} {context : Context} {tag : Tag} {index : Nat} {fault : Fault}

/-- A tag stops a check exactly if it is named and the rule cannot decide about it: once there is a
decision, it can be reported. -/
theorem outcome_eq_error_iff (htag : block.tags[index]? = some tag) :
    rule.outcome block context tag index = .error fault ↔
      tag.name ≠ "" ∧ rule.decide tag context = .error fault := by
  have hfound : block.tag? (index : Int) = some tag := by
    rw [Block.tag?_natCast, htag]
  unfold outcome
  by_cases hname : tag.name = ""
  · simp [hname]
  · cases hdecide : rule.decide tag context with
    | error other => simp [hname]
    | ok decision =>
      obtain ⟨report, hreport⟩ := (decide_eq_ok_iff.mp hdecide).exists_reportFor hfound
      simp [hname, hreport]

end

/-! ## The Answer of a Check -/

/-- The fault of an outcome, if it has one. -/
def faultOf {α : Type} : Except Fault α → Option Fault
  | .ok _ => none
  | .error fault => some fault

theorem faultOf_eq_some_iff {α : Type} {outcome : Except Fault α} {fault : Fault} :
    faultOf outcome = some fault ↔ outcome = .error fault := by
  cases outcome <;> simp [faultOf]

theorem faultOf_eq_none_iff {α : Type} {outcome : Except Fault α} :
    faultOf outcome = none ↔ ∃ value, outcome = .ok value := by
  cases outcome <;> simp [faultOf]

/-- The first fault that tags come to. -/
def firstFault? (rule : Rule) (block : Block) (context : Context) (tags : List (Tag × Nat)) :
    Option Fault :=
  tags.findSome? fun entry => faultOf (rule.outcome block context entry.1 entry.2)

/-- The first tag has its say before the others. -/
theorem firstFault?_cons (rule : Rule) (block : Block) (context : Context) (tag : Tag) (index : Nat)
    (rest : List (Tag × Nat)) :
    rule.firstFault? block context ((tag, index) :: rest) =
      (faultOf (rule.outcome block context tag index)).or (rule.firstFault? block context rest) := by
  unfold firstFault?
  rw [List.findSome?_cons]
  cases faultOf (rule.outcome block context tag index) with
  | none => rfl
  | some fault => rfl

/-- Checking tags answers with the first fault that they come to, and with all their reports if
there is none. -/
theorem checkTags_result (rule : Rule) (block : Block) (context : Context) (tags : List (Tag × Nat))
    (collector : Collector) :
    (rule.checkTags block context tags collector).1 =
      match rule.firstFault? block context tags with
      | some fault => .error fault
      | none => .ok (rule.reportsUntilFault block context tags) := by
  induction tags generalizing collector with
  | nil => rfl
  | cons entry rest ih =>
    obtain ⟨tag, index⟩ := entry
    rw [firstFault?_cons]
    unfold checkTags reportsUntilFault
    rw [checkTag_eq]
    cases rule.outcome block context tag index with
    | error fault => simp [faultOf]
    | ok report =>
      -- What was reported before does not change the answer, so the hypothesis is used at any
      -- collector.
      have hrest := ih (collector.addAll report.toList)
      simp only [reportsOf, faultOf, Option.none_or]
      cases hcheck : rule.checkTags block context rest (collector.addAll report.toList) with
      | mk result later =>
        rw [hcheck] at hrest
        cases hfault : rule.firstFault? block context rest with
        | none =>
          simp only [hfault] at hrest
          simp only [hrest]
        | some fault =>
          simp only [hfault] at hrest
          simp only [hrest]

/-- Reports of tags that come to no fault are all there, and those of further tags come after
them. -/
theorem reportsUntilFault_append {rule : Rule} {block : Block} {context : Context}
    {before rest : List (Tag × Nat)} (h : rule.firstFault? block context before = none) :
    rule.reportsUntilFault block context (before ++ rest) =
      (before.flatMap fun entry => reportsOf (rule.outcome block context entry.1 entry.2)) ++
        rule.reportsUntilFault block context rest := by
  induction before with
  | nil => rfl
  | cons entry before ih =>
    obtain ⟨tag, index⟩ := entry
    -- Neither the first tag nor the others come to a fault.
    rw [firstFault?_cons, Option.or_eq_none_iff] at h
    obtain ⟨report, hreport⟩ := faultOf_eq_none_iff.mp h.1
    simp only [List.cons_append, reportsUntilFault, List.flatMap_cons, hreport, reportsOf, ih h.2,
      List.append_assoc]

/-! ## Where a Check Stops -/

/-- Whether a tag has no name and is passed over, or the rule decides about it. -/
def PassesOrDecides (rule : Rule) (context : Context) (tag : Tag) : Prop :=
  tag.name ≠ "" → ∃ decision, rule.decide tag context = .ok decision

/-- The reports that the first tags of a comment come to. -/
def reportsOfTags (rule : Rule) (block : Block) (context : Context) (tags : List Tag) : List Report :=
  tags.zipIdx.flatMap fun entry => reportsOf (rule.outcome block context entry.1 entry.2)

section

variable {rule : Rule} {block : Block} {context : Context}

/-- Tags of a comment come to no fault exactly if the rule passes over or decides about each. -/
theorem firstFault?_eq_none_iff {tags : List (Tag × Nat)}
    (htags : ∀ entry ∈ tags, block.tags[entry.2]? = some entry.1) :
    rule.firstFault? block context tags = none ↔
      ∀ entry ∈ tags, rule.PassesOrDecides context entry.1 := by
  unfold firstFault?
  rw [List.findSome?_eq_none_iff]
  constructor
  · intro h entry hentry hname
    -- A named tag that the rule cannot decide about would have come to that fault.
    cases hdecide : rule.decide entry.1 context with
    | ok decision => exact ⟨decision, rfl⟩
    | error fault =>
      have hnone := h entry hentry
      rw [(outcome_eq_error_iff (htags entry hentry)).mpr ⟨hname, hdecide⟩] at hnone
      cases hnone
  · -- A fault would be one of deciding about the tag, and there is a decision.
    intro h entry hentry
    rw [Option.eq_none_iff_forall_ne_some]
    intro fault hfault
    obtain ⟨hname, herror⟩ := (outcome_eq_error_iff (htags entry hentry)).mp (faultOf_eq_some_iff.mp hfault)
    obtain ⟨decision, hdecision⟩ := h entry hentry hname
    rw [hdecision] at herror
    cases herror

/-- Tags of a comment that come to no fault are all reported, as if none of them could stop the
check. -/
theorem reportsUntilFault_eq_reportsOfTags
    (h : rule.firstFault? block context block.tags.zipIdx = none) :
    rule.reportsUntilFault block context block.tags.zipIdx =
      rule.reportsOfTags block context block.tags := by
  have hall : rule.reportsUntilFault block context (block.tags.zipIdx ++ []) = _ :=
    reportsUntilFault_append h
  rw [List.append_nil] at hall
  rw [hall, reportsUntilFault, List.append_nil, reportsOfTags]

/-- If the tags of a comment come to a fault, the first one that does has a name and the rule cannot
decide about it; what was reported is what the tags before it come to. -/
theorem exists_stop_of_firstFault? {fault : Fault}
    (h : rule.firstFault? block context block.tags.zipIdx = some fault) :
    ∃ before tag after, block.tags = before ++ tag :: after ∧
      (∀ earlier ∈ before, rule.PassesOrDecides context earlier) ∧
      tag.name ≠ "" ∧ rule.decide tag context = .error fault ∧
      rule.reportsUntilFault block context block.tags.zipIdx = rule.reportsOfTags block context before := by
  have hnumber : ∀ entry ∈ block.tags.zipIdx, block.tags[entry.2]? = some entry.1 :=
    fun entry hentry => List.mem_zipIdx_iff_getElem?.mp hentry
  unfold firstFault? at h
  obtain ⟨front, entry, back, hsplit, hfault, hfront⟩ := List.findSome?_eq_some_iff.mp h
  -- The numbered tags split as the tags do.
  obtain ⟨before, tail, htags, rfl, htail⟩ := List.zipIdx_eq_append_iff.mp hsplit
  obtain ⟨tag, after, rfl, rfl, -⟩ := List.zipIdx_eq_cons_iff.mp htail.symm
  simp only [Nat.zero_add] at hsplit hfault
  have hmem : (tag, before.length) ∈ block.tags.zipIdx := by
    rw [hsplit]
    simp
  have hbefore : rule.firstFault? block context before.zipIdx = none :=
    List.findSome?_eq_none_iff.mpr hfront
  have hdecided := (firstFault?_eq_none_iff fun entry hentry =>
    hnumber entry (hsplit ▸ List.mem_append_left _ hentry)).mp hbefore
  have hstop := faultOf_eq_some_iff.mp hfault
  obtain ⟨hname, hdecide⟩ := (outcome_eq_error_iff (hnumber _ hmem)).mp hstop
  refine ⟨before, tag, after, htags, ?_, hname, hdecide, ?_⟩
  · -- The tags before keep the numbers that they have in the comment.
    intro earlier hearlier
    obtain ⟨index, hindex⟩ := List.getElem?_of_mem hearlier
    exact hdecided (earlier, index) (List.mem_zipIdx_iff_getElem?.mpr hindex)
  · rw [hsplit, reportsUntilFault_append hbefore]
    simp [reportsUntilFault, hstop, reportsOfTags]

end

/-! ## Rules of a Configuration -/

/-- The rule of a configuration decides about every tag. It is the coherence of the policy that
carries this: a policy that is built steers no name to the empty one. -/
theorem exists_decide_ofConfig (options : Options) (settings : Settings) (tag : Tag) (context : Context) :
    ∃ decision, (ofConfig options settings).decide tag context = .ok decision := by
  have hpolicy : (ofConfig options settings).policy.IsCoherent := Policy.isCoherent_ofConfig options settings
  obtain ⟨decision, hjudgment⟩ := exists_judgment hpolicy tag context
  exact ⟨decision, decide_eq_ok_iff.mpr hjudgment⟩

/-- A hand-made policy may steer a name to the empty one, and then the tag stops the check. -/
example :
    let policy : Policy := { preferences := [("note", .rename "" none)], preferenceNames := ["note"] }
    (Rule.mk policy false).decide { name := "note" } {} = .error (.breach (.steeredNowhere "note")) := by
  rfl

end Rule

/-- **No configuration stops a check**: whatever the options, the settings, the comment and the
place where it stands, checking the comment answers with a list of reports. Each of its tags is
decided about, each decision can be reported, and there is a fix for each tag that may be
redundant. -/
theorem configured_check_completes (options : Options) (settings : Settings) (block : Block)
    (context : Context) (collector : Collector) :
    (∃ reports, (checkComment options settings block context collector).1 = .ok reports) ∧
      ∀ index : Fin block.tags.length,
        (block.redundancyFix? (index.val : Int)).isSome ∧
          ∃ decision report,
            (Rule.ofConfig options settings).decide block.tags[index] context = .ok decision ∧
              (emit decision block (index.val : Int) collector).1 = .ok report := by
  refine ⟨?_, ?_⟩
  · -- The rule decides about every tag, so no tag comes to a fault that could stop the check.
    have hnone : (Rule.ofConfig options settings).firstFault? block context block.tags.zipIdx = none :=
      (Rule.firstFault?_eq_none_iff fun entry hentry => List.mem_zipIdx_iff_getElem?.mp hentry).mpr
        fun entry _ _ => Rule.exists_decide_ofConfig options settings entry.1 context
    refine ⟨(Rule.ofConfig options settings).reportsUntilFault block context block.tags.zipIdx, ?_⟩
    -- Whatever the collector was told about the settings, the rule is that of the configuration.
    show ((Rule.ofConfig options settings).checkTags block context block.tags.zipIdx
      (Rule.setUp options settings collector).2).1 = _
    rw [Rule.checkTags_result, hnone]
  · -- A decision about a tag that is there can be reported, and so can its fix.
    intro index
    have hfound : block.tag? (index.val : Int) = some block.tags[index] := by
      rw [Block.tag?_natCast]
      exact List.getElem?_eq_getElem index.isLt
    obtain ⟨decision, hdecide⟩ := Rule.exists_decide_ofConfig options settings block.tags[index] context
    obtain ⟨report, hreport⟩ := (Rule.decide_eq_ok_iff.mp hdecide).exists_reportFor hfound
    refine ⟨Block.isSome_redundancyFix? hfound, decision, report, hdecide, ?_⟩
    rw [emit_eq]
    exact hreport

end DocLint
