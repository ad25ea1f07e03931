import DocLint.Proofs.Rendering
import DocLint.Proofs.RewrittenLines

/-!
# Rewritten Comments Are Comments

The first line of a comment opens it and the last one closes it. Both stay when a tag is taken out, whichever
lines the tag takes up, so the text of a rewrite is a comment again unless the comment goes as a whole. Main
statements: `isCommentText_filterMap`, by which a rewrite that keeps what opens and closes the comment leads
to a comment, and `rewrites_are_comments`.
-/

namespace DocLint

/-! ## Comment Texts -/

/-- Whether a text is a comment after some text in front: `/**`, anything, `*/`. -/
def IsCommentText (front text : String) : Prop := ∃ body, text = front ++ "/**" ++ body ++ "*/"

theorem IsCommentText.ne_empty {front text : String} (h : IsCommentText front text) : text ≠ "" := by
  obtain ⟨body, rfl⟩ := h
  simp

/-- A line starts with its delimiter, after what it starts with, and ends in what closes the
comment. -/
theorem Tokens.exists_render_eq (t : Tokens) :
    ∃ body, t.render = t.start ++ t.delimiter ++ body ++ t.close := by
  refine ⟨t.postDelimiter ++ t.tag ++ t.postTag ++ t.type ++ t.postType ++ t.name ++ t.postName ++
    t.description ++ t.lineEnd, ?_⟩
  simp only [render_eq, beforeTag, afterTag, String.append_assoc]

/-- The text of lines starts as the first line does and ends as the last one does. -/
theorem exists_renderLines_eq {first last : Tokens} {lines : List Tokens}
    (hfirst : lines.head? = some first) (hlast : lines.getLast? = some last) :
    ∃ body, renderLines lines = first.start ++ first.delimiter ++ body ++ last.close := by
  induction lines generalizing first with
  | nil => cases hfirst
  | cons tokens rest ih =>
    obtain rfl : tokens = first := by simpa using hfirst
    obtain ⟨body, hbody⟩ := tokens.exists_render_eq
    cases rest with
    | nil =>
      -- The only line both opens and closes.
      obtain rfl : tokens = last := by simpa using hlast
      exact ⟨body, hbody⟩
    | cons next rest =>
      obtain ⟨behind, hbehind⟩ := ih rfl hlast
      refine ⟨body ++ tokens.close ++ "\n" ++ next.start ++ next.delimiter ++ behind, ?_⟩
      show tokens.render ++ "\n" ++ renderLines (next :: rest) = _
      rw [hbody, hbehind]
      simp only [String.append_assoc]

/-! ## Keeping the Delimiters -/

/-- Whether what is left of numbered lines keeps what opens and what closes the comment. Nothing is
asked about any other line, so a rewrite may drop or thin those as it likes. -/
structure KeepsDelimiters (left : Tokens × Nat → Option Tokens) : Prop where
  /-- A line that opens a comment is left with all that stands before its text. -/
  opening : ∀ line, line.1.opensComment = true →
    ∃ t, left line = some t ∧ t.start = line.1.start ∧ t.delimiter = line.1.delimiter
  /-- A line with a closing mark is left with this mark. -/
  closing : ∀ line, line.1.close ≠ "" → ∃ t, left line = some t ∧ t.close = line.1.close

namespace Block

/-- Whether the first line of a comment opens it, and the last one, which may be the same, closes
it. -/
structure IsDelimited (block : Block) (first : Tokens) : Prop where
  first_eq : block.lines.head? = some first
  opens : first.delimiter = "/**"
  closes : ∃ last, block.lines.getLast? = some last ∧ last.close = "*/"

/-- Stripping a type drops no line, and thins none at either end. -/
theorem leftByStrip_keepsDelimiters (tag : Tag) (dropName : Bool) :
    KeepsDelimiters (leftByStrip tag dropName) := by
  constructor
  · intro line _
    obtain ⟨t, ht, hthins⟩ := leftByStrip_thins tag dropName line
    exact ⟨t, ht, hthins.start_eq, hthins.delimiter_eq⟩
  · intro line _
    obtain ⟨t, ht, hthins⟩ := leftByStrip_thins tag dropName line
    exact ⟨t, ht, hthins.close_eq⟩

/-- Removal drops neither the line that opens the comment nor the one that closes it. -/
theorem leftByRemoval_keepsDelimiters (tag : Tag) : KeepsDelimiters (leftByRemoval tag) := by
  -- A line of the tag that opens or closes the comment is emptied instead of being dropped.
  have hframe : ∀ t : Tokens, t.opensComment = true ∨ t.close ≠ "" → t.frame? = some t.frame := by
    intro t hends
    rw [Tokens.frame?_eq, if_pos (by simpa [Tokens.opensComment] using hends)]
  constructor
  · intro line hopens
    unfold leftByRemoval
    split
    · exact ⟨_, hframe line.1 (Or.inl hopens), rfl, Tokens.frame_delimiter hopens⟩
    · exact ⟨_, rfl, rfl, rfl⟩
  · intro line hcloses
    unfold leftByRemoval
    split
    · exact ⟨_, hframe line.1 (Or.inr hcloses), rfl⟩
    · exact ⟨_, rfl, rfl⟩

/-- What is left of a comment is a comment if the delimiters are kept: it starts as the comment did
and closes as the comment did, also where both are on one line. -/
theorem isCommentText_filterMap {block : Block} {first : Tokens} {left : Tokens × Nat → Option Tokens}
    (hblock : block.IsDelimited first) (hleft : KeepsDelimiters left) :
    IsCommentText first.start (renderLines (block.lines.zipIdx.filterMap left)) := by
  obtain ⟨last, hlast, hcloses⟩ := hblock.closes
  -- The first line stays in front of all that is left.
  have hopens : first.opensComment = true := by simp [Tokens.opensComment, hblock.opens]
  obtain ⟨head, hhead, hstart, hdelimiter⟩ := hleft.opening (first, 0) hopens
  have hfront : (block.lines.zipIdx.filterMap left).head? = some head := by
    obtain ⟨rest, hrest⟩ := List.head?_eq_some_iff.mp hblock.first_eq
    rw [hrest, List.zipIdx_cons, List.filterMap_cons_some hhead, List.head?_cons]
  -- The last line stays behind all that is left.
  have hbehind : ∃ t, (block.lines.zipIdx.filterMap left).getLast? = some t ∧ t.close = "*/" := by
    obtain ⟨rest, hrest⟩ := List.getLast?_eq_some_iff.mp hlast
    have hclose : last.close ≠ "" := by simp [hcloses]
    obtain ⟨t, ht, htclose⟩ := hleft.closing (last, rest.length) hclose
    refine ⟨t, ?_, htclose.trans hcloses⟩
    rw [hrest, List.zipIdx_append, List.filterMap_append]
    simp [ht]
  obtain ⟨t, ht, htclose⟩ := hbehind
  obtain ⟨body, hbody⟩ := exists_renderLines_eq hfront ht
  refine ⟨body, ?_⟩
  rw [hbody, hstart, hdelimiter, htclose, hblock.opens]

theorem isCommentText_linesWithoutType {block : Block} {first : Tokens} (hblock : block.IsDelimited first)
    (tag : Tag) (dropName : Bool) :
    IsCommentText first.start (renderLines (block.linesWithoutType tag dropName)) := by
  rw [linesWithoutType_eq]
  exact isCommentText_filterMap hblock (leftByStrip_keepsDelimiters tag dropName)

/-- A comment without the lines of a tag is a comment, though one that may hold nothing. -/
theorem isCommentText_linesWithoutTag {block : Block} {first : Tokens} (hblock : block.IsDelimited first)
    (tag : Tag) : IsCommentText first.start (renderLines (block.linesWithoutTag tag)) := by
  rw [linesWithoutTag_eq]
  exact isCommentText_filterMap hblock (leftByRemoval_keepsDelimiters tag)

end Block

/-! ## Rewritten Comments -/

/-- **A rewritten comment is still a comment.** If the first line opens the comment and the last one
closes it, every tag can be taken out in every way, and each text is a comment that starts as the
first line did, or is empty. It is empty exactly if the tag is removed with the comment: an empty
comment is to be dropped, the tag is the only one, and the comment has no description; the fix for a
redundant tag asks for that if the tag has no description either. -/
theorem rewrites_are_comments (block : Block) (index : Int) (first : Tokens)
    (hindex : block.CountsTag index) (hblock : block.IsDelimited first) :
    ∃ tag, block.tag? index = some tag ∧
      (∀ dropName, ∃ text, block.stripTag? index dropName = some text ∧
        IsCommentText first.start text) ∧
      (∀ dropEmpty, ∃ text, block.removeTag? index dropEmpty = some text ∧
        (text ≠ "" → IsCommentText first.start text) ∧
        (text = "" ↔ dropEmpty = true ∧ block.tags.length = 1 ∧
          Text.isBlankText block.description = true)) ∧
      ∃ fix, block.redundancyFix? index = some fix ∧ ∀ source,
        (fix.apply source ≠ "" → IsCommentText first.start (fix.apply source)) ∧
        (fix.apply source = "" ↔ Text.isBlankText tag.description = true ∧ block.tags.length = 1 ∧
          Text.isBlankText block.description = true) := by
  obtain ⟨tag, htag⟩ := Block.exists_tag?_iff.mpr hindex
  have hstripped := Block.isCommentText_linesWithoutType hblock tag
  have hremoved := Block.isCommentText_linesWithoutTag hblock tag
  refine ⟨tag, htag, ?_, ?_, ?_⟩
  · intro dropName
    exact ⟨_, Block.stripTag?_eq htag dropName, hstripped dropName⟩
  · intro dropEmpty
    refine ⟨_, Block.removeTag?_eq htag dropEmpty, ?_⟩
    rw [← Block.isEmptyWithoutTag_iff, ← Bool.and_eq_true]
    -- The text is empty where the comment goes, and only there, since a comment text is not.
    by_cases hempty : (dropEmpty && block.isEmptyWithoutTag) = true
    · simp [hempty]
    · simp [hempty, hremoved, hremoved.ne_empty]
  · refine ⟨_, Block.redundancyFix?_eq htag, ?_⟩
    intro source
    rw [← Block.isEmptyWithoutTag_iff]
    -- The fix removes a tag without a description, and strips the type of any other.
    by_cases hblank : Text.isBlankText tag.description = true
    · by_cases hempty : block.isEmptyWithoutTag = true
      · simp [hblank, hempty, Fix.apply]
      · simp [hblank, hempty, Fix.apply, hremoved, hremoved.ne_empty]
    · simp [hblank, Fix.apply, hstripped, (hstripped true).ne_empty]

/-- A tag that takes up both the line that opens the comment and the one that closes it leaves a
comment behind, unless the comment goes with it. -/
theorem rewrites_are_comments_of_all_lines :
    let tag : Tag := { name := "type", lines := [1, 0, 7] }
    let first : Tokens :=
      { start := "  ", delimiter := "/**", postDelimiter := " ", tag := "@type", postTag := " ",
        type := "\x7bnumber\x7d" }
    let block : Block := { tags := [tag], lines := [first, { start := "   ", close := "*/" }] }
    block.CountsTag (-1) ∧ block.IsDelimited first ∧
      (∃ text, block.removeTag? (-1) false = some text ∧ IsCommentText "  " text) ∧
      ∃ fix, block.redundancyFix? (-1) = some fix ∧ fix.apply block.source = "" := by
  intro tag first block
  have hindex : block.CountsTag (-1) := by decide
  have hblock : block.IsDelimited first := ⟨rfl, rfl, _, rfl, rfl⟩
  obtain ⟨found, hfound, -, hremoved, fix, hfix, htext⟩ :=
    rewrites_are_comments block (-1) first hindex hblock
  refine ⟨hindex, hblock, ?_, fix, hfix, ?_⟩
  · obtain ⟨text, htext, hcomment, hempty⟩ := hremoved false
    -- The comment is not to go here.
    exact ⟨text, htext, hcomment (mt hempty.mp (by simp))⟩
  · obtain rfl : tag = found := Option.some.inj hfound
    exact (htext block.source).2.mpr ⟨by decide, rfl, by decide⟩

end DocLint
