import DocLint.Proofs.CheckReports
import DocLint.Proofs.Mentions
import DocLint.Proofs.Rendering

/-!
# Fixes That Rename a Tag

A fix that renames a tag does not know where the tag stands: it rewrites the first mention of the name in
the whole comment. Main statement: `rename_fix_rewrites_tag`, by which it rewrites the tag and nothing else
if the name ends in a word character and is not mentioned before the tag. Both conditions are needed.
-/

namespace DocLint

/-! ## The Fix of a Report -/

/-- A report of a better name for a tag carries the fix that writes the name that the policy steers
to. -/
theorem Rule.fix_of_outcome {rule : Rule} {block : Block} {context : Context} {tag : Tag} {index : Nat}
    {report : Report} (h : rule.outcome block context tag index = .ok (some report))
    (htag : block.tags[index]? = some tag) (hissue : report.issue = .preferredName) :
    ∃ decision preferred message, rule.decide tag context = .ok decision ∧
      decision.preferredName = some preferred ∧
      rule.policy.resolve tag.name = .preferred preferred message ∧
      report.fix = some (.rename tag.name preferred) := by
  obtain ⟨decision, hdecide, hreport⟩ := decide_of_outcome h
  obtain ⟨-, found, hfound, hdecision, -, -, -, hfix⟩ := reportFor_eq_some hreport
  -- The fix is for the tag of that number, and of the ways to a decision one has this issue.
  rw [Block.tag?_natCast, htag, Option.some.injEq] at hfound
  subst hfound
  rw [hissue] at hdecision
  cases decide_eq_ok_iff.mp hdecide with
  | steered preferred message _ _ hresolve hempty =>
    simp only [fixFor, if_neg hempty] at hfix
    exact ⟨_, preferred, message, hdecide, rfl, hresolve, (Except.ok.inj hfix).symm⟩
  | _ => cases hdecision

/-! ## The Text of the Fix -/

/-- Renaming rewrites a tag and nothing else if its name ends in a word character, stands before
white space or the end of its line, and is not mentioned earlier. -/
theorem replaceTagName_of_first {before name preferred after : String}
    (hname : EndsInWord name.toList)
    (hafter : ∀ c, after.toList.head? = some c → Text.isBlank c = true)
    (hbefore : ∀ position < before.length,
      ¬ IsMentionAt name.toList (before ++ ("@" ++ name) ++ after).toList position) :
    replaceTagName (before ++ ("@" ++ name) ++ after) name preferred =
      before ++ ("@" ++ preferred) ++ after := by
  have hend : after.toList.head?.any Text.isWord = false := by
    cases hhead : after.toList.head? with
    | none => rfl
    | some c => exact Text.isWord_of_isBlank (hafter c hhead)
  -- The text is taken apart into characters: what stands before, the mention, and what stands
  -- after.
  have htext : ∀ word : String, (before ++ ("@" ++ word) ++ after).toList =
      before.toList ++ mentionOf word.toList ++ after.toList := by
    intro word
    rw [String.toList_append, String.toList_append, toList_mention]
  have hmention : IsMentionAt name.toList (before.toList ++ mentionOf name.toList ++ after.toList)
      before.toList.length := by
    unfold IsMentionAt
    rw [List.append_assoc, List.drop_left]
    exact startsWithMention_append hname hend
  rw [htext, ← String.length_toList] at hbefore
  unfold replaceTagName
  rw [htext, renameMention_first preferred.toList hmention hbefore, ← htext, String.ofList_toList]

/-! ## Tags That Are to Be Renamed -/

/-- A report of a better name for a tag whose token is the only one of its name in the comment: it
stands in the first line of the tag, with white space or the end of the line after it. -/
structure RenameReport (rule : Rule) (block : Block) (context : Context) (report : Report) (tag : Tag)
    (index line : Nat) (tokens : Tokens) : Prop where
  source_eq : block.source = block.render
  reported : report ∈ (rule.check block context {}).2.reports
  issue_eq : report.issue = .preferredName
  index_eq : report.tagIndex = some (index : Int)
  tag_at : block.tags[index]? = some tag
  first_line : tag.lines.head? = some (line : Int)
  tokens_at : block.lines[line]? = some tokens
  token_eq : tokens.tag = "@" ++ tag.name
  /-- What follows the token on this line is white space, or nothing at all. -/
  token_ends : tokens.afterTag.toList.head?.all Text.isBlank = true
  only_token : (block.lines.countP fun other => other.tag == "@" ++ tag.name) = 1
  only_tag : (block.tags.countP fun other => other.name == tag.name) = 1

/-- Whether the fix of a report writes the preferred name in the token of the tag, leaves all else
in the comment as it is, and does change the text. -/
def RewritesTagOnly (rule : Rule) (block : Block) (context : Context) (report : Report) (tag : Tag)
    (line : Nat) (tokens : Tokens) : Prop :=
  ∃ decision preferred fix, rule.decide tag context = .ok decision ∧
    decision.preferredName = some preferred ∧ report.fix = some fix ∧
    fix.apply block.source =
      renderLines (block.lines.set line { tokens with tag := "@" ++ preferred }) ∧
    fix.apply block.source ≠ block.source

/-- Whether a name is not mentioned in a comment before the tag of a line. -/
def NotMentionedBefore (block : Block) (name : String) (line : Nat) (tokens : Tokens) : Prop :=
  ∀ position < (block.textBeforeTag line tokens).length,
    ¬ IsMentionAt name.toList block.source.toList position

instance (block : Block) (name : String) (line : Nat) (tokens : Tokens) :
    Decidable (NotMentionedBefore block name line tokens) :=
  inferInstanceAs (Decidable (∀ position < _, _))

section

variable {rule : Rule} {block : Block} {context : Context} {report : Report} {tag : Tag}
  {index line : Nat} {tokens : Tokens}

/-- The report of a better name is what the tag itself comes to. -/
theorem RenameReport.outcome_eq (h : RenameReport rule block context report tag index line tokens) :
    rule.outcome block context tag index = .ok (some report) := by
  rcases Rule.mem_reports_check h.reported with hmem | ⟨found, number, hfound, houtcome⟩
  · cases hmem
  · -- The report bears the number of the tag that it is about.
    have hnumber : number = index := by
      have hsome := (Rule.tagIndex_of_outcome houtcome).symm.trans h.index_eq
      exact Int.ofNat_inj.mp (Option.some.inj hsome)
    subst hnumber
    have heq : found = tag := Option.some.inj (hfound.symm.trans h.tag_at)
    subst heq
    exact houtcome

/-- The text of the comment around the tag that is to be renamed. -/
theorem RenameReport.source_around_tag
    (h : RenameReport rule block context report tag index line tokens) :
    block.source =
      block.textBeforeTag line tokens ++ ("@" ++ tag.name) ++ block.textAfterTag line tokens := by
  rw [h.source_eq, block.render_eq_around_tag h.tokens_at, h.token_eq]

/-- Behind the tag comes white space: of its own line, or the line feed that ends it. -/
theorem RenameReport.blank_after_tag
    (h : RenameReport rule block context report tag index line tokens) :
    ∀ c, (block.textAfterTag line tokens).toList.head? = some c → Text.isBlank c = true := by
  intro c hc
  rcases Block.textAfterTag_head? hc with hhead | rfl
  · have hends := h.token_ends
    rw [hhead] at hends
    exact hends
  · decide

/-- Writing another name in the token of the tag changes the text of the comment. -/
theorem RenameReport.renderLines_ne_source
    (h : RenameReport rule block context report tag index line tokens) {preferred : String}
    (hne : preferred ≠ tag.name) :
    renderLines (block.lines.set line { tokens with tag := "@" ++ preferred }) ≠ block.source := by
  intro hsame
  rw [h.source_around_tag, ← Block.renderLines_set_tag h.tokens_at] at hsame
  have hnames := Block.renderLines_set_tag_injective h.tokens_at hsame
  rw [← String.toList_inj, String.toList_append, String.toList_append] at hnames
  exact hne (String.toList_inj.mp (List.append_cancel_left hnames))

end

/-! ## Sample Comments -/

/-- The line of the tag in a sample comment. -/
def sampleTokens (name : String) : Tokens :=
  { start := " ", delimiter := "*", postDelimiter := " ", tag := "@" ++ name, postTag := " ", name := "foo" }

/-- The tag of a sample comment. -/
def sampleTag (name : String) : Tag := { name, path := some "foo", lines := [2] }

/-- A comment of a line of description and a line with a tag. -/
def sampleComment (description name : String) : Block :=
  let lines : List Tokens :=
    [{ delimiter := "/**" }, { start := " ", delimiter := "*", postDelimiter := " ", description },
      sampleTokens name, { start := " ", close := "*/" }]
  { source := renderLines lines, description, tags := [sampleTag name], lines }

/-- The rule of a single preference, which steers a name to another. -/
def sampleRule (name preferred : String) : Rule :=
  Rule.ofConfig {} { tagNamePreference := [(name, .text preferred)] }

/-- The report of a better name for the tag of a sample comment. -/
def sampleReport (name preferred : String) : Report :=
  { issue := .preferredName
    message := Rule.preferredMessage name preferred
    tagIndex := some 0
    span := some ⟨Position.first, Position.first⟩
    fix := some (.rename name preferred) }

/-- The tag of a sample comment is the only one of its name, whatever the description. -/
theorem renameReport_sampleComment {description name preferred : String}
    (h : sampleReport name preferred ∈
      ((sampleRule name preferred).check (sampleComment description name) {} {}).2.reports) :
    RenameReport (sampleRule name preferred) (sampleComment description name) {}
      (sampleReport name preferred) (sampleTag name) 0 2 (sampleTokens name) where
  source_eq := rfl
  reported := h
  issue_eq := rfl
  index_eq := rfl
  tag_at := rfl
  first_line := rfl
  tokens_at := rfl
  token_eq := rfl
  token_ends := by
    have hblank : Text.isBlank ' ' = true := by decide
    simpa [sampleTokens, Tokens.afterTag] using hblank
  only_token := by simp [sampleComment, sampleTokens, sampleTag]
  only_tag := by simp [sampleComment, sampleTag]

/-! ## Rewriting the Tag Only -/

/-- **A fix that renames a tag rewrites the tag only**, if the name of the tag ends in a word
character and is not mentioned before the tag. -/
theorem rename_fix_rewrites_tag (rule : Rule) (block : Block) (context : Context) (report : Report)
    (tag : Tag) (index line : Nat) (tokens : Tokens)
    (hreport : RenameReport rule block context report tag index line tokens)
    (hname : EndsInWord tag.name.toList) (hbefore : NotMentionedBefore block tag.name line tokens) :
    RewritesTagOnly rule block context report tag line tokens := by
  obtain ⟨decision, preferred, message, hdecide, hpreferred, hresolve, hfix⟩ :=
    Rule.fix_of_outcome hreport.outcome_eq hreport.tag_at hreport.issue_eq
  -- No name is steered to itself, so writing the preferred one is a change.
  have hne : preferred ≠ tag.name := (Policy.steered_cases hresolve).1
  have htext : replaceTagName block.source tag.name preferred =
      renderLines (block.lines.set line { tokens with tag := "@" ++ preferred }) := by
    unfold NotMentionedBefore at hbefore
    rw [hreport.source_around_tag] at hbefore ⊢
    rw [replaceTagName_of_first hname hreport.blank_after_tag hbefore,
      Block.renderLines_set_tag hreport.tokens_at]
  refine ⟨decision, preferred, _, hdecide, hpreferred, hfix, htext, ?_⟩
  intro hsame
  exact hreport.renderLines_ne_source hne (htext.symm.trans hsame)

/-- Longer names and names in other letters do not count as mentions. -/
theorem rename_fix_passes_longer_name :
    RewritesTagOnly (sampleRule "arg" "param") (sampleComment "No @argument, no @Arg." "arg") {}
      (sampleReport "arg" "param") (sampleTag "arg") 2 (sampleTokens "arg") := by
  have hreport : sampleReport "arg" "param" ∈ ((sampleRule "arg" "param").check
      (sampleComment "No @argument, no @Arg." "arg") {} {}).2.reports := by decide +kernel
  exact rename_fix_rewrites_tag _ _ _ _ _ 0 2 _ (renameReport_sampleComment hreport) (by decide +kernel)
    (by decide +kernel)

/-- An earlier mention is rewritten in the place of the tag, and a name that does not end in a word
character is not found at all. -/
theorem rename_fix_may_miss_tag :
    (¬ ∀ (rule : Rule) (block : Block) (context : Context) (report : Report) (tag : Tag)
        (index line : Nat) (tokens : Tokens),
      RenameReport rule block context report tag index line tokens → EndsInWord tag.name.toList →
      RewritesTagOnly rule block context report tag line tokens) ∧
    (¬ ∀ (rule : Rule) (block : Block) (context : Context) (report : Report) (tag : Tag)
        (index line : Nat) (tokens : Tokens),
      RenameReport rule block context report tag index line tokens →
      NotMentionedBefore block tag.name line tokens →
      RewritesTagOnly rule block context report tag line tokens) := by
  refine ⟨?_, ?_⟩
  · intro h
    have hreport : sampleReport "arg" "param" ∈ ((sampleRule "arg" "param").check
        (sampleComment "Write @arg here." "arg") {} {}).2.reports := by decide +kernel
    obtain ⟨decision, preferred, fix, hdecide, hpreferred, hfix, htext, -⟩ :=
      h _ _ _ _ _ _ _ _ (renameReport_sampleComment hreport) (by decide +kernel)
    have hsteered : (sampleRule "arg" "param").decide (sampleTag "arg") {} = .ok ⟨.reportAndReplace,
        some .preferredName, Rule.preferredMessage "arg" "param", some "param"⟩ := by rfl
    rw [hsteered] at hdecide
    cases hdecide
    cases hpreferred
    cases hfix
    -- The description now says `@param`, and the tag still says `@arg`.
    revert htext
    decide +kernel
  · intro h
    have hreport : sampleReport "memberof!" "memberof" ∈ ((sampleRule "memberof!" "memberof").check
        (sampleComment "Name the parent." "memberof!") {} {}).2.reports := by decide +kernel
    obtain ⟨decision, preferred, fix, -, -, hfix, -, hchanged⟩ :=
      h _ _ _ _ _ _ _ _ (renameReport_sampleComment hreport) (by decide +kernel)
    cases hfix
    -- Between `!` and white space no word ends, so the text stays as it is.
    revert hchanged
    decide +kernel

end DocLint
