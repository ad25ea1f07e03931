import Mathlib.Algebra.Order.BigOperators.Group.List
import Mathlib.Algebra.Order.Ring.Nat
import DocLint.Proofs.CheckReports
import DocLint.Proofs.Rendering
import DocLint.Proofs.RewrittenLines

/-!
# Redundancy Fixes Shrink a Comment

The fix for a redundant tag takes the tag off its line, and only a line that opens and closes the comment can
get anything in return, a blank. So each fix leaves a shorter text, and a host that checks a comment, applies
one such fix and checks the outcome again comes to an end. Main statements: `sum_space_lt`, by which a rewrite
that takes the tag off its line saves space, `length_fix_lt`, and `redundancy_fixes_end`.
-/

namespace DocLint

/-! ## The Length of a Line -/

namespace Tokens

theorem length_render (t : Tokens) : t.render.length = (t.toList.map String.length).sum := by
  simp [render, toList, String.length_append, Nat.add_assoc]

theorem Thins.length_render_le {t other : Tokens} (h : t.Thins other) :
    t.render.length ≤ other.render.length := by
  rw [length_render, length_render]
  apply List.Forall₂.sum_le_sum
  rw [List.forall₂_map_left_iff, List.forall₂_map_right_iff]
  apply h.emptied.imp
  intro token old htoken
  rcases htoken with rfl | rfl
  · exact le_refl _
  · simp

theorem length_tag_le (t : Tokens) : t.tag.length ≤ t.render.length := by
  rw [render_eq, String.length_append, String.length_append]
  omega

/-- A line without its tag is shorter by that at least. -/
theorem length_withoutTag (t : Tokens) : t.withoutTag.render.length + t.tag.length ≤ t.render.length := by
  unfold withoutTag
  split
  · simp only [length_render, toList, List.map_cons, List.map_nil, List.sum_cons, List.sum_nil,
      String.length_empty]
    omega
  next htag =>
    have hempty : t.tag = "" := by simpa using htag
    simp [hempty]

/-- Stripping a line takes its tag off and puts nothing in its place. -/
theorem length_stripped (t : Tokens) : (t.stripped true).render.length + t.tag.length ≤ t.render.length := by
  have htag : t.withoutType.tag = t.tag := by
    unfold withoutType
    split <;> rfl
  -- Of the three steps only the second counts; the others make the line no longer.
  have htidy := (tidy_thins t.withoutType.withoutTag).length_render_le
  have hdropped := t.withoutType.length_withoutTag
  have htype := t.withoutType_thins.length_render_le
  rw [htag] at hdropped
  show t.withoutType.withoutTag.tidy.render.length + _ ≤ _
  omega

/-- The characters that a line may get when its content goes: a blank if it opens the comment. -/
def gain (t : Tokens) : Nat := if t.delimiter = "/**" then 1 else 0

/-- What is left of a line whose content goes is shorter by the tag, the blank apart. -/
theorem length_frame (t : Tokens) : t.frame.render.length + t.tag.length ≤ t.render.length + t.gain := by
  have hblank : " ".length = 1 := rfl
  -- The blank is put between what opens the comment and what closes it on the same line.
  by_cases hopens : t.delimiter = "/**"
  · by_cases hcloses : t.close = "" <;>
      simp [length_render, toList, frame, gain, opensComment, hopens, hcloses, hblank] <;> omega
  · simp [length_render, toList, frame, gain, opensComment, hopens]
    omega

end Tokens

/-! ## The Space of Lines -/

/-- The space that what is left of a line takes up in a text, with a line feed. -/
def space : Option Tokens → Nat
  | none => 0
  | some t => t.render.length + 1

/-- A text takes up the space of its lines, without the line feed after the last one. -/
theorem length_renderLines {lines : List Tokens} (hne : lines ≠ []) :
    (renderLines lines).length + 1 = (lines.map fun t => space (some t)).sum := by
  induction lines with
  | nil => exact absurd rfl hne
  | cons t rest ih =>
    cases rest with
    | nil => simp [renderLines, joinLines, space]
    | cons next rest =>
      have hrest := ih (List.cons_ne_nil next rest)
      have htext : renderLines (t :: next :: rest) = t.render ++ "\n" ++ renderLines (next :: rest) := rfl
      have hfeed : "\n".length = 1 := rfl
      rw [List.map_cons, List.sum_cons, ← hrest, htext, String.length_append, String.length_append, hfeed]
      simp only [space]
      omega

/-- What does not look at the numbers of lines may be asked of the lines. -/
theorem map_zipIdx_fst {α : Type} (lines : List Tokens) (f : Tokens → α) :
    (lines.zipIdx.map fun line => f line.1) = lines.map f := by
  conv_rhs => rw [← List.zipIdx_map_fst 0 lines, List.map_map]
  rfl

/-- Lines that go take up no space. -/
theorem sum_space_filterMap (left : Tokens × Nat → Option Tokens) (lines : List (Tokens × Nat)) :
    ((lines.filterMap left).map fun t => space (some t)).sum =
      (lines.map fun line => space (left line)).sum := by
  induction lines with
  | nil => rfl
  | cons line lines ih =>
    cases hleft : left line with
    | none =>
      rw [List.filterMap_cons_none hleft, ih, List.map_cons, List.sum_cons, hleft]
      exact (Nat.zero_add _).symm
    | some t => simp [hleft, ih]

/-! ## Taking a Tag off Its Line -/

/-- The length of the tag on a numbered line that a tag takes up. -/
def Tag.loss (tag : Tag) (line : Tokens × Nat) : Nat := if tag.covers line.2 then line.1.tag.length else 0

/-- Whether what is left of numbered lines lacks the tags of the lines that a tag takes up, and has
a blank more at most, where the comment is opened. -/
def TakesOff (tag : Tag) (left : Tokens × Nat → Option Tokens) : Prop :=
  ∀ line, space (left line) + tag.loss line ≤ space (some line.1) + line.1.gain

namespace Block

/-- Stripping a tag takes it off its lines and gains nothing. -/
theorem leftByStrip_takesOff (tag : Tag) : TakesOff tag (leftByStrip tag true) := by
  intro line
  unfold leftByStrip Tag.loss
  split
  · have hlength := line.1.length_stripped
    simp only [space]
    omega
  · omega

/-- Removing a tag takes it off its lines, whether they go or stay in their frame. -/
theorem leftByRemoval_takesOff (tag : Tag) : TakesOff tag (leftByRemoval tag) := by
  intro line
  unfold leftByRemoval Tag.loss
  split
  · rw [Tokens.frame?_eq]
    split
    · have hlength := line.1.length_frame
      simp only [space]
      omega
    · -- The line goes, and its tag with it.
      have hlength := line.1.length_tag_le
      simp only [space]
      omega
  · omega

/-- Whether a comment is laid out as it was read, for one of its tags: the text is that of the
lines, only the first line may open the comment, and the tag has a name, which stands on a line that
the tag takes up. -/
structure IsLaidOut (block : Block) (tag : Tag) : Prop where
  source_eq : block.source = block.render
  /-- No later line looks like the start of another comment. -/
  opens_first : ∀ t ∈ block.lines.tail, t.delimiter ≠ "/**"
  name_ne_empty : tag.name ≠ ""
  /-- So the tag takes up two characters at least, its mark and its name. -/
  on_line : ∃ line ∈ block.lines.zipIdx, (line.2 : Int) ∈ tag.lines ∧ line.1.tag = "@" ++ tag.name

section

variable {block : Block} {tag : Tag} (h : block.IsLaidOut tag)

include h

/-- The line of a tag holds an at sign and a name. -/
theorem IsLaidOut.two_le_length_tag :
    ∃ line ∈ block.lines.zipIdx, tag.covers line.2 = true ∧ 2 ≤ line.1.tag.length := by
  obtain ⟨line, hline, hcovers, htag⟩ := h.on_line
  refine ⟨line, hline, by simpa [Tag.covers] using hcovers, ?_⟩
  have hname : tag.name.length ≠ 0 := by simpa using h.name_ne_empty
  have hat : "@".length = 1 := rfl
  rw [htag, String.length_append, hat]
  omega

theorem IsLaidOut.two_le_sum_loss : 2 ≤ (block.lines.zipIdx.map tag.loss).sum := by
  obtain ⟨line, hline, hcovers, hlength⟩ := h.two_le_length_tag
  have hloss : tag.loss line = line.1.tag.length := by simp [Tag.loss, hcovers]
  have hsum := List.le_sum_of_mem (List.mem_map.mpr ⟨line, hline, hloss⟩)
  omega

/-- One line opens the comment at most, so one blank is gained at most. -/
theorem IsLaidOut.sum_gain_le : (block.lines.zipIdx.map fun line => line.1.gain).sum ≤ 1 := by
  rw [map_zipIdx_fst block.lines Tokens.gain]
  have hopens := h.opens_first
  cases hblock : block.lines with
  | nil => simp
  | cons first rest =>
    rw [hblock, List.tail_cons] at hopens
    -- Lines after the first do not open the comment, so they gain nothing.
    have hrest : (rest.map Tokens.gain).sum = 0 := by
      rw [List.sum_eq_zero_iff]
      intro n hn
      obtain ⟨t, ht, rfl⟩ := List.mem_map.mp hn
      exact if_neg (hopens t ht)
    have hfirst : first.gain ≤ 1 := by
      unfold Tokens.gain
      split <;> omega
    rw [List.map_cons, List.sum_cons, hrest]
    exact hfirst

/-- The text of a comment takes up the space of its lines. -/
theorem IsLaidOut.length_source :
    block.source.length + 1 = (block.lines.zipIdx.map fun line => space (some line.1)).sum := by
  have hne : block.lines ≠ [] := by
    obtain ⟨line, hline, -⟩ := h.on_line
    intro hempty
    simp [hempty] at hline
  rw [h.source_eq, map_zipIdx_fst block.lines fun t => space (some t)]
  exact length_renderLines hne

theorem IsLaidOut.length_source_pos : 0 < block.source.length := by
  obtain ⟨line, hline, -, hlength⟩ := h.two_le_length_tag
  have hspace : space (some line.1) ≤ block.source.length + 1 := by
    rw [h.length_source]
    exact List.le_sum_of_mem (List.mem_map.mpr ⟨line, hline, rfl⟩)
  have htag := line.1.length_tag_le
  simp only [space] at hspace
  omega

/-- A rewrite that takes the tag off its line saves space: at least two characters go and one
comes. -/
theorem IsLaidOut.sum_space_lt {left : Tokens × Nat → Option Tokens} (hleft : TakesOff tag left) :
    (block.lines.zipIdx.map fun line => space (left line)).sum <
      (block.lines.zipIdx.map fun line => space (some line.1)).sum := by
  have hsums : (block.lines.zipIdx.map fun line => space (left line)).sum +
        (block.lines.zipIdx.map tag.loss).sum ≤
      (block.lines.zipIdx.map fun line => space (some line.1)).sum +
        (block.lines.zipIdx.map fun line => line.1.gain).sum := by
    -- Line by line, since that is how a rewrite takes the tag off.
    rw [← List.sum_map_add, ← List.sum_map_add]
    apply List.sum_le_sum
    intro line _
    exact hleft line
  have hloss := h.two_le_sum_loss
  have hgain := h.sum_gain_le
  omega

/-- What is left of the lines makes up a shorter text. -/
theorem IsLaidOut.length_filterMap_lt {left : Tokens × Nat → Option Tokens} (hleft : TakesOff tag left) :
    (renderLines (block.lines.zipIdx.filterMap left)).length < block.source.length := by
  -- Without lines there is no text, and no last line feed to leave out either.
  by_cases hnone : block.lines.zipIdx.filterMap left = []
  · rw [hnone]
    exact h.length_source_pos
  · have hlength := length_renderLines hnone
    have hlt := h.sum_space_lt hleft
    rw [sum_space_filterMap] at hlength
    rw [← h.length_source] at hlt
    omega

/-- The fix for a redundant tag leads to a shorter text, whatever text it is applied to. -/
theorem IsLaidOut.length_fix_lt {index : Int} (htag : block.tag? index = some tag) {fix : Fix}
    (hfix : block.redundancyFix? index = some fix) (text : String) :
    (fix.apply text).length < block.source.length := by
  rw [redundancyFix?_eq htag, Option.some.injEq] at hfix
  subst hfix
  split
  · show (if block.isEmptyWithoutTag then "" else renderLines (block.linesWithoutTag tag)).length < _
    split
    · -- The whole comment goes.
      exact h.length_source_pos
    · exact h.length_filterMap_lt (leftByRemoval_takesOff tag)
  · show (renderLines (block.linesWithoutType tag true)).length < _
    rw [linesWithoutType_eq]
    exact h.length_filterMap_lt (leftByStrip_takesOff tag)

end

end Block

/-! ## Passes of a Host -/

/-- A pass of a host over a comment: a check reports a redundant tag, the fix of the report is
applied, and the next comment is read from the text, whatever the reader makes of it. -/
def RedundancyPass (block next : Block) : Prop :=
  ∃ (rule : Rule) (context : Context) (report : Report) (fix : Fix),
    report ∈ (rule.check block context {}).2.reports ∧ report.issue = .typedRedundant ∧
      report.fix = some fix ∧ next.source = fix.apply block.source

/-- A report of a redundant tag is about a named tag of the comment, and has the fix for it. -/
theorem redundancyFix?_of_report {rule : Rule} {block : Block} {context : Context} {report : Report}
    {fix : Fix} (hreport : report ∈ (rule.check block context {}).2.reports)
    (hissue : report.issue = .typedRedundant) (hfix : report.fix = some fix) :
    ∃ (index : Nat) (tag : Tag), block.tag? index = some tag ∧ tag.name ≠ "" ∧
      block.redundancyFix? index = some fix := by
  rcases Rule.mem_reports_check hreport with hbefore | ⟨tag, index, htag, houtcome⟩
  · cases hbefore
  · have hname : tag.name ≠ "" := by
      intro hname
      simp [Rule.outcome, hname] at houtcome
    obtain ⟨decision, hdecide, hmade⟩ := Rule.decide_of_outcome houtcome
    obtain ⟨-, found, -, hdecision, -, -, -, hfixFor⟩ := reportFor_eq_some hmade
    refine ⟨index, tag, by rw [Block.tag?_natCast, htag], hname, ?_⟩
    rw [hissue] at hdecision
    -- Only a tag that is redundant is decided about with this issue.
    cases Rule.decide_eq_ok_iff.mp hdecide with
    | redundant redundancy =>
      rw [hissue, hfix] at hfixFor
      exact Except.ok.inj hfixFor
    | _ => cases hdecision

/-- Passes of a host, counted, over comments whose named tags are laid out. -/
inductive RedundancyPasses : Nat → Block → Block → Prop where
  | refl (block : Block) : RedundancyPasses 0 block block
  /-- In a pass one fix is applied, and the result is read anew, with its named tags laid out
  again. -/
  | step {passes : Nat} {block next last : Block} :
      (∀ tag ∈ block.tags, tag.name ≠ "" → block.IsLaidOut tag) → RedundancyPass block next →
      RedundancyPasses passes next last → RedundancyPasses (passes + 1) block last

theorem RedundancyPass.length_lt {block next : Block} (h : RedundancyPass block next)
    (hblock : ∀ tag ∈ block.tags, tag.name ≠ "" → block.IsLaidOut tag) :
    next.source.length < block.source.length := by
  obtain ⟨rule, context, report, fix, hreport, hissue, hfix, hsource⟩ := h
  obtain ⟨index, tag, htag, hname, hredundancy⟩ := redundancyFix?_of_report hreport hissue hfix
  have hmem : tag ∈ block.tags := by
    rw [Block.tag?_natCast] at htag
    exact List.mem_of_getElem? htag
  rw [hsource]
  exact (hblock tag hmem hname).length_fix_lt htag hredundancy block.source

/-- Each pass costs the text a character at least. The length of the text is the measure that bounds
the passes. -/
theorem RedundancyPasses.add_length_le {passes : Nat} {block last : Block}
    (h : RedundancyPasses passes block last) :
    passes + last.source.length ≤ block.source.length := by
  induction h with
  | refl block => omega
  | step hblock hpass _ ih =>
    have hlt := hpass.length_lt hblock
    omega

/-! ## Progress -/

/-- **Redundancy fixes come to an end.** The fix for a tag of a comment that is laid out for it
leads to a shorter text. So a host that applies one fix for a redundant tag in each pass, and reads
and checks the text anew, makes no more passes than the text has characters. -/
theorem redundancy_fixes_end :
    (∀ (block : Block) (index : Int) (tag : Tag), block.tag? index = some tag → block.IsLaidOut tag →
      ∃ fix, block.redundancyFix? index = some fix ∧
        (fix.apply block.source).length < block.source.length) ∧
    ∀ (passes : Nat) (block last : Block), RedundancyPasses passes block last →
      passes + last.source.length ≤ block.source.length := by
  constructor
  · intro block index tag htag hlaid
    have hfix := Block.redundancyFix?_eq htag
    exact ⟨_, hfix, hlaid.length_fix_lt htag hfix block.source⟩
  · intro passes block last hpasses
    exact hpasses.add_length_le

/-- A redundant tag on the line that opens the comment goes in one pass, and the delimiter stays. -/
theorem redundancy_fixes_end_on_first_line :
    let tag : Tag := { name := "type", lines := [0] }
    let other : Tag := { name := "param", path := some "x", lines := [1] }
    let block : Block :=
      { source := "/** @type \x7bnumber\x7d\n * @param x */"
        tags := [tag, other]
        lines :=
          [{ delimiter := "/**", postDelimiter := " ", tag := "@type", postTag := " ",
              type := "\x7bnumber\x7d" },
            { start := " ", delimiter := "*", postDelimiter := " ", tag := "@param", postTag := " ",
              name := "x", postName := " ", close := "*/" }] }
    let next : Block := { source := "/**\n * @param x */" }
    block.tag? 0 = some tag ∧ block.IsLaidOut tag ∧
      (∃ fix, block.redundancyFix? 0 = some fix ∧
        (fix.apply block.source).length < block.source.length) ∧
      RedundancyPasses 1 block next ∧ 1 + next.source.length ≤ block.source.length := by
  intro tag other block next
  have hlaid : block.IsLaidOut tag :=
    ⟨by decide, by decide, by decide, (block.lines[0], 0), by decide, by decide, rfl⟩
  have hother : block.IsLaidOut other :=
    ⟨by decide, by decide, by decide, (block.lines[1], 1), by decide, by decide, rfl⟩
  have hblock : ∀ found ∈ block.tags, found.name ≠ "" → block.IsLaidOut found := by
    intro found hfound _
    rcases List.mem_pair.mp hfound with rfl | rfl
    · exact hlaid
    · exact hother
  have hpass : RedundancyPass block next :=
    ⟨⟨{}, true⟩, {}, ⟨.typedRedundant, RedundancyRule.always.message "type", some 0, some tag.span,
      some (.remove "type" next.source)⟩, _, by decide +kernel, rfl, rfl, rfl⟩
  have hpasses : RedundancyPasses 1 block next := .step hblock hpass (.refl next)
  exact ⟨rfl, hlaid, redundancy_fixes_end.1 block 0 tag rfl hlaid, hpasses,
    redundancy_fixes_end.2 1 block next hpasses⟩

end DocLint
