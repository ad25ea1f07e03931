import DocLint.Proofs.Completion

/-!
# Sessions with One Collector

A host may emit decisions of its own, check comments and ask the rule about tags and names, in any order and
with one collector throughout. What each call adds to the reports can be told from the call and its answer.
Main statement: `session_accounts`, by which every session adds exactly that, call by call, and nothing
else; so a collector only ever grows.
-/

namespace DocLint

/-! ## Calls and Answers -/

/-- A call that a host makes with a collector. -/
inductive Call where
  | emit (decision : Decision) (block : Block) (index : Int)
  | check (block : Block) (context : Context)
  | decide (tag : Tag) (context : Context)
  | resolve (name : String)
  | isExempt (name : String)

/-- What a call answers; a fault is what the call is stopped by. -/
inductive Answer where
  | emitted (outcome : Except Fault (Option Report))
  | checked (outcome : Except Fault (List Report))
  | decided (outcome : Except Fault Decision)
  | resolved (resolution : Resolution)
  | exempt (answer : Bool)

namespace Rule

/-- Makes a call. -/
def perform (rule : Rule) : Call → Collector → Answer × Collector
  | .emit decision block index, collector =>
    let (outcome, collector) := DocLint.emit decision block index collector
    (.emitted outcome, collector)
  | .check block context, collector =>
    let (outcome, collector) := rule.check block context collector
    (.checked outcome, collector)
  | .decide tag context, collector => (.decided (rule.decide tag context), collector)
  | .resolve name, collector => (.resolved (rule.policy.resolve name), collector)
  | .isExempt name, collector => (.exempt (rule.policy.isExempt name), collector)

/-- Makes calls in order with one collector. A call that is stopped by a fault does not stop the
session: what it has added stays, and the next call is made. -/
def run (rule : Rule) : List Call → Collector → List (Call × Answer) × Collector
  | [], collector => ([], collector)
  | call :: rest, collector =>
    let (answer, collector) := rule.perform call collector
    let (transcript, collector) := rule.run rest collector
    ((call, answer) :: transcript, collector)

/-! ## What Calls Add -/

/-- The reports that a call adds, given its answer. Asking adds nothing, and nor does a call to emit
that is stopped. A check that returns has added the reports of all tags, and one that is stopped
those of the tags before the first one that the rule cannot decide about. -/
inductive Adds (rule : Rule) : Call → Answer → List Report → Prop where
  /-- A decision to pass a tag over adds nothing. -/
  | emitSkip {decision block index} :
      decision.kind = .skip → Adds rule (.emit decision block index) (.emitted (.ok none)) []
  | emitReport {decision block index} (report : Report) :
      decision.kind ≠ .skip →
      Adds rule (.emit decision block index) (.emitted (.ok (some report))) [report]
  | emitFault {decision block index} (fault : Fault) :
      decision.kind ≠ .skip → Adds rule (.emit decision block index) (.emitted (.error fault)) []
  /-- A check that comes to its end has reported on every tag. -/
  | checkReturns {block context} (reports : List Report) :
      (∀ tag ∈ block.tags, rule.PassesOrDecides context tag) →
      reports = rule.reportsOfTags block context block.tags →
      Adds rule (.check block context) (.checked (.ok reports)) reports
  /-- A check that is stopped keeps what it has reported before. -/
  | checkStops {block context} (before : List Tag) (tag : Tag) (after : List Tag) (fault : Fault) :
      block.tags = before ++ tag :: after → (∀ earlier ∈ before, rule.PassesOrDecides context earlier) →
      tag.name ≠ "" → rule.decide tag context = .error fault →
      Adds rule (.check block context) (.checked (.error fault)) (rule.reportsOfTags block context before)
  /-- Asking for a decision does not carry it out. -/
  | decide {tag context} : Adds rule (.decide tag context) (.decided (rule.decide tag context)) []
  | resolve {name} : Adds rule (.resolve name) (.resolved (rule.policy.resolve name)) []
  | isExempt {name} : Adds rule (.isExempt name) (.exempt (rule.policy.isExempt name)) []

/-- A session from one state of a collector to another: each call leaves the messages about settings
as they are and puts what it adds behind the reports. -/
inductive Session (rule : Rule) : Collector → List (Call × Answer) → Collector → Prop where
  | done (collector : Collector) : Session rule collector [] collector
  | call {before after last : Collector} {call : Call} {answer : Answer} {added : List Report}
      {rest : List (Call × Answer)} :
      rule.Adds call answer added → after.reports = before.reports ++ added →
      after.settingsMessages = before.settingsMessages → Session rule after rest last →
      Session rule before ((call, answer) :: rest) last

/-! ## Single Calls -/

section

variable {rule : Rule}

/-- Emitting a decision adds the report that it answers with, if there is one. -/
theorem adds_emit (decision : Decision) (block : Block) (index : Int) :
    rule.Adds (.emit decision block index) (.emitted (reportFor decision block index))
      (reportsOf (reportFor decision block index)) := by
  -- One case for each answer; that there is none belongs to a decision to pass the tag over.
  by_cases hskip : decision.kind = .skip
  · rw [reportFor_eq_none_iff.mpr hskip]
    exact .emitSkip hskip
  · cases hreport : reportFor decision block index with
    | error fault => exact .emitFault fault hskip
    | ok report =>
      cases report with
      | some report => exact .emitReport report hskip
      | none => exact absurd (reportFor_eq_none_iff.mp hreport) hskip

/-- Checking a comment adds the reports that it answers with, or those of the tags before the one
that stops it. -/
theorem adds_check (block : Block) (context : Context) (collector : Collector) :
    rule.Adds (.check block context) (.checked (rule.check block context collector).1)
      (rule.reportsUntilFault block context block.tags.zipIdx) := by
  unfold check
  rw [checkTags_result]
  cases hfault : rule.firstFault? block context block.tags.zipIdx with
  | none =>
    -- No tag comes to a fault, so each is passed over or decided about.
    have hdecided := (firstFault?_eq_none_iff fun entry hentry =>
      List.mem_zipIdx_iff_getElem?.mp hentry).mp hfault
    refine .checkReturns _ ?_ (reportsUntilFault_eq_reportsOfTags hfault)
    intro tag htag
    obtain ⟨index, hindex⟩ := List.getElem?_of_mem htag
    exact hdecided (tag, index) (List.mem_zipIdx_iff_getElem?.mpr hindex)
  | some fault =>
    obtain ⟨before, tag, after, htags, hbefore, hname, hdecide, hreports⟩ :=
      exists_stop_of_firstFault? hfault
    rw [hreports]
    exact .checkStops before tag after fault htags hbefore hname hdecide

/-- A call puts what it adds by its answer behind the reports of the collector, and does nothing
else to it. -/
theorem perform_adds (call : Call) (collector : Collector) :
    ∃ added, rule.Adds call (rule.perform call collector).1 added ∧
      (rule.perform call collector).2 = collector.addAll added := by
  -- Only the first two calls touch the collector at all.
  cases call with
  | emit decision block index =>
    refine ⟨reportsOf (reportFor decision block index), ?_, ?_⟩
    · simp only [perform, emit_eq]
      exact adds_emit decision block index
    · simp only [perform, emit_eq]
  | check block context =>
    refine ⟨rule.reportsUntilFault block context block.tags.zipIdx, ?_, ?_⟩
    · exact adds_check block context collector
    · exact checkTags_collector rule block context block.tags.zipIdx collector
  | decide tag context => exact ⟨[], .decide, (Collector.addAll_nil collector).symm⟩
  | resolve name => exact ⟨[], .resolve, (Collector.addAll_nil collector).symm⟩
  | isExempt name => exact ⟨[], .isExempt, (Collector.addAll_nil collector).symm⟩

end

/-! ## Whole Sessions -/

/-- A session takes nothing out of a collector, and it says nothing about settings. -/
theorem Session.grows {rule : Rule} {before last : Collector} {transcript : List (Call × Answer)}
    (h : rule.Session before transcript last) :
    before.reports <+: last.reports ∧ last.settingsMessages = before.settingsMessages := by
  -- Each call puts reports behind those of the call before; the messages are passed on.
  induction h with
  | done collector => exact ⟨List.prefix_refl _, rfl⟩
  | @call before after last call answer added rest _ hreports hsettings _ ih =>
    have hgrown : before.reports <+: after.reports := ⟨added, hreports.symm⟩
    exact ⟨hgrown.trans ih.1, ih.2.trans hsettings⟩

/-- A transcript holds the calls in the order in which they were made. -/
theorem run_calls (rule : Rule) (calls : List Call) (collector : Collector) :
    (rule.run calls collector).1.map (·.1) = calls := by
  induction calls generalizing collector with
  | nil => rfl
  | cons call rest ih => exact congrArg (call :: ·) (ih (rule.perform call collector).2)

/-- Making calls in order is a session. -/
theorem session_run (rule : Rule) (calls : List Call) (collector : Collector) :
    rule.Session collector (rule.run calls collector).1 (rule.run calls collector).2 := by
  -- Each call leaves another collector for the rest, so the hypothesis is used at that one.
  induction calls generalizing collector with
  | nil => exact .done collector
  | cons call rest ih =>
    obtain ⟨added, hadds, hafter⟩ := perform_adds call collector
    refine .call hadds ?_ ?_ (ih (rule.perform call collector).2)
    · rw [hafter]
      rfl
    · rw [hafter]
      rfl

end Rule

/-- **A collector is accounted for call by call**: whatever the rule and the calls, each call adds
to the reports what its answer says and leaves the messages about settings alone, so that the
collector only ever grows. -/
theorem session_accounts (rule : Rule) (calls : List Call) (collector : Collector) :
    let (transcript, last) := rule.run calls collector
    transcript.map (·.1) = calls ∧ rule.Session collector transcript last ∧
      collector.reports <+: last.reports ∧ last.settingsMessages = collector.settingsMessages := by
  have hsession := rule.session_run calls collector
  exact ⟨rule.run_calls calls collector, hsession, hsession.grows⟩

/-- A check that is stopped at its third tag keeps the report of the first; the second is passed
over. -/
example :
    let policy : Policy := { preferences := [("note", .rename "" none)], preferenceNames := ["note"] }
    let rule : Rule := ⟨policy, false⟩
    let block : Block := { tags := [{ name := "odd" }, { name := "" }, { name := "note" }, { name := "odd" }] }
    (rule.run [.check block {}] {}).2.reports.map (·.tagIndex) = [some 0] := by
  decide

end DocLint
