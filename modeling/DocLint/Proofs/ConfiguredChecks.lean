import DocLint.Proofs.Completion

/-!
# Checks by a Configuration

The rule of a configuration decides about every tag, so a check by it is never stopped: it answers with what
the tags come to, one after the other, and two such checks can be compared tag by tag. Main statements:
`checkComment_eq`, which says all that a check by a configuration does, and `mem_reportsOfTags_iff`, by
which its reports are those that a single tag comes to.
-/

namespace DocLint

namespace Rule

/-! ## What Tags Come To -/

section

variable {rule : Rule} {block : Block} {context : Context} {tag : Tag} {index : Nat}

theorem outcome_of_unnamed (hname : tag.name = "") : rule.outcome block context tag index = .ok none := by
  unfold outcome
  rw [if_pos hname]

theorem outcome_of_decide {decision : Decision} (hname : tag.name ≠ "")
    (hdecide : rule.decide tag context = .ok decision) :
    rule.outcome block context tag index = reportFor decision block index := by
  unfold outcome
  rw [if_neg hname, hdecide]

/-- The reports of a comment are those that one of its tags comes to. -/
theorem mem_reportsOfTags_iff {report : Report} :
    report ∈ rule.reportsOfTags block context block.tags ↔
      ∃ (tag : Tag) (index : Nat), block.tags[index]? = some tag ∧
        rule.outcome block context tag index = .ok (some report) := by
  have hreport : ∀ outcome : Except Fault (Option Report),
      report ∈ reportsOf outcome ↔ outcome = .ok (some report) := by
    intro outcome
    cases outcome with
    | error fault => simp [reportsOf]
    | ok made => simp [reportsOf]
  unfold reportsOfTags
  rw [List.mem_flatMap]
  -- Numbering the tags pairs each with the place where the comment has it.
  constructor
  · rintro ⟨⟨tag, index⟩, hentry, hmem⟩
    exact ⟨tag, index, List.mem_zipIdx_iff_getElem?.mp hentry, (hreport _).mp hmem⟩
  · rintro ⟨tag, index, htag, houtcome⟩
    exact ⟨(tag, index), List.mem_zipIdx_iff_getElem?.mpr htag, (hreport _).mpr houtcome⟩

end

/-- Rules that decide alike about every tag report alike, since a decision is all that a report
needs of the rule. -/
theorem reportsOfTags_congr {first second : Rule} {context : Context}
    (h : ∀ tag, first.decide tag context = second.decide tag context) (block : Block) (tags : List Tag) :
    first.reportsOfTags block context tags = second.reportsOfTags block context tags := by
  have houtcome : ∀ (tag : Tag) (index : Nat),
      first.outcome block context tag index = second.outcome block context tag index := by
    intro tag index
    unfold outcome
    rw [h tag]
  simp only [reportsOfTags, houtcome]

/-! ## Whole Checks -/

/-- The tags of a comment come to no fault under the rule of a configuration. -/
theorem firstFault?_ofConfig (options : Options) (settings : Settings) (block : Block) (context : Context) :
    (ofConfig options settings).firstFault? block context block.tags.zipIdx = none :=
  (firstFault?_eq_none_iff fun _ hentry => List.mem_zipIdx_iff_getElem?.mp hentry).mpr
    fun entry _ _ => exists_decide_ofConfig options settings entry.1 context

/-- A check by the rule of a configuration answers with the reports of all tags and takes them
in. -/
theorem check_ofConfig (options : Options) (settings : Settings) (block : Block) (context : Context)
    (collector : Collector) :
    let reports := (ofConfig options settings).reportsOfTags block context block.tags
    (ofConfig options settings).check block context collector = (.ok reports, collector.addAll reports) := by
  intro reports
  -- No tag comes to a fault, so nothing cuts the reports short.
  have hnone := firstFault?_ofConfig options settings block context
  have hreports : (ofConfig options settings).reportsUntilFault block context block.tags.zipIdx = reports :=
    reportsUntilFault_eq_reportsOfTags hnone
  refine Prod.ext ?_ ?_
  · unfold check
    rw [checkTags_result, hnone, hreports]
  · unfold check
    rw [checkTags_collector, hreports]

end Rule

/-- A rule is set up with the policy of its configuration, and its collector takes the messages
about the settings in. -/
theorem Rule.setUp_eq (options : Options) (settings : Settings) (collector : Collector) :
    setUp options settings collector =
      (ofConfig options settings, collector.addSettings (Policy.settingsMessages settings)) := by
  -- The collector is the sink of the build, and takes in at most one message.
  have htold := Policy.build_snd options settings (fun message told => told.addSettings [message]) collector
  refine Prod.ext rfl (htold.trans ?_)
  rw [Policy.settingsMessages_eq]
  cases Policy.hasMalformed settings.tagNamePreference with
  | true => rfl
  | false => simp [Collector.addSettings]

/-- Checking a comment by a configuration says what is wrong with the settings, and then answers
with the reports of all tags and takes them in. -/
theorem checkComment_eq (options : Options) (settings : Settings) (block : Block) (context : Context)
    (collector : Collector) :
    let reports := (Rule.ofConfig options settings).reportsOfTags block context block.tags
    checkComment options settings block context collector =
      (.ok reports, (collector.addSettings (Policy.settingsMessages settings)).addAll reports) := by
  unfold checkComment
  rw [Rule.setUp_eq]
  exact Rule.check_ofConfig options settings block context _

end DocLint
