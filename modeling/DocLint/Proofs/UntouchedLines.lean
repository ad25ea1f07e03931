import DocLint.Proofs.RewrittenLines

/-!
# Lines That Rewrites Leave Alone

The text of a rewrite is put together from tokens, and split at its line feeds it shows the lines again: those
that the tag does not take up stay as they were, character by character. Main statements:
`splitLines_renderLines`, by which a text has the lines that it was put together from,
`map_render_linesWithoutTag`, which says what removing a tag leaves of them, and `rewrites_keep_other_lines`.
-/

namespace DocLint

/-! ## Splitting a Text into Lines -/

/-- The lines of a text: what stands before its first line feed, between two of them and after the
last. -/
def splitLines (text : String) : List String := (text.toList.splitOn '\n').map String.ofList

theorem toList_joinLines (lines : List String) :
    (joinLines lines).toList = List.intercalate ['\n'] (lines.map String.toList) := by
  induction lines with
  | nil => rfl
  | cons line rest ih =>
    cases rest with
    | nil => simp [joinLines]
    | cons next rest =>
      rw [List.map_cons, List.map_cons, List.intercalate_cons_cons, ← List.map_cons, ← ih]
      simp [joinLines]

/-- Joined lines are found again where they were joined, if they hold no line feeds themselves. -/
theorem splitLines_joinLines {lines : List String} (hne : lines ≠ [])
    (hlines : ∀ line ∈ lines, '\n' ∉ line.toList) : splitLines (joinLines lines) = lines := by
  have hsplit : (joinLines lines).toList.splitOn '\n' = lines.map String.toList := by
    rw [toList_joinLines]
    apply List.splitOn_intercalate
    · simpa using hlines
    · simpa using hne
  unfold splitLines
  rw [hsplit, List.map_map]
  simp [Function.comp_def]

/-! ## Lines Without Line Feeds -/

namespace Tokens

/-- Whether no token of a line holds a line feed. -/
def IsUnbroken (t : Tokens) : Prop := ∀ token ∈ t.toList, '\n' ∉ token.toList

instance (t : Tokens) : Decidable t.IsUnbroken :=
  inferInstanceAs (Decidable (∀ token ∈ t.toList, '\n' ∉ token.toList))

theorem mem_render_iff {t : Tokens} {c : Char} :
    c ∈ t.render.toList ↔ ∃ token ∈ t.toList, c ∈ token.toList := by
  simp [render, toList]

theorem IsUnbroken.newline_not_mem_render {t : Tokens} (h : t.IsUnbroken) : '\n' ∉ t.render.toList := by
  rw [mem_render_iff]
  intro hmem
  obtain ⟨token, htoken, hnewline⟩ := hmem
  exact h token htoken hnewline

theorem mem_or_eq_empty {tokens olds : List String} {token : String}
    (h : List.Forall₂ KeptOrEmpty tokens olds) (htoken : token ∈ tokens) :
    token ∈ olds ∨ token = "" := by
  induction h with
  | nil => cases htoken
  | cons hhead _ ih =>
    rcases List.mem_cons.mp htoken with rfl | hrest
    · rcases hhead with rfl | hempty
      · exact Or.inl List.mem_cons_self
      · exact Or.inr hempty
    · exact (ih hrest).imp_left (List.mem_cons_of_mem _)

theorem Thins.isUnbroken {t other : Tokens} (h : t.Thins other) (hother : other.IsUnbroken) :
    t.IsUnbroken := by
  intro token htoken
  rcases mem_or_eq_empty h.emptied htoken with hold | rfl
  · exact hother token hold
  · simp

/-- What opens and closes the comment, with a blank between, has no line feed if the line has
none. -/
theorem IsUnbroken.frame {t : Tokens} (h : t.IsUnbroken) : t.frame.IsUnbroken := by
  have hstart : '\n' ∉ t.start.toList := h _ (by simp [toList])
  have hdelimiter : '\n' ∉ t.delimiter.toList := h _ (by simp [toList])
  have hclose : '\n' ∉ t.close.toList := h _ (by simp [toList])
  by_cases hopens : t.opensComment = true
  · by_cases hcloses : t.close = "" <;>
      simp [IsUnbroken, toList, Tokens.frame, hopens, hcloses, hstart, hdelimiter, hclose]
  · simp [IsUnbroken, toList, Tokens.frame, hopens, hstart, hclose]

end Tokens

/-- The text of unbroken lines splits into the texts of these lines. -/
theorem splitLines_renderLines {lines : List Tokens} (hne : lines ≠ [])
    (hlines : ∀ t ∈ lines, t.IsUnbroken) :
    splitLines (renderLines lines) = lines.map Tokens.render := by
  apply splitLines_joinLines
  · simpa using hne
  · intro line hline
    obtain ⟨t, ht, rfl⟩ := List.mem_map.mp hline
    exact (hlines t ht).newline_not_mem_render

/-! ## Lines After a Rewrite -/

/-- What stays of a line that a removed tag takes up: what it starts with, its delimiter if that
opens the comment, a blank if it also closes the comment, and what closes it. -/
def Tokens.outline (t : Tokens) : String :=
  t.start ++ (if t.delimiter = "/**" then "/**" else "") ++
    (if t.delimiter = "/**" ∧ t.close ≠ "" then " " else "") ++ t.close

theorem Tokens.frame_render (t : Tokens) : t.frame.render = t.outline := by
  by_cases hopens : t.delimiter = "/**"
  · by_cases hcloses : t.close = "" <;> simp [render, toList, frame, outline, opensComment, hopens, hcloses]
  · simp [render, toList, frame, outline, opensComment, hopens]

namespace Block

/-- The lines of a comment after removal of a tag that takes up lines of given numbers: other lines
stay, those that open or close the comment are reduced, the rest go. -/
def linesBeside (block : Block) (numbers : List Int) : List String :=
  block.lines.zipIdx.filterMap fun line =>
    if (line.2 : Int) ∉ numbers then some line.1.render
    else if line.1.delimiter = "/**" ∨ line.1.close ≠ "" then some line.1.outline
    else none

/-- The lines that removing a tag leaves, as texts. -/
theorem map_render_linesWithoutTag (block : Block) (tag : Tag) :
    (block.linesWithoutTag tag).map Tokens.render = block.linesBeside tag.lines := by
  rw [linesWithoutTag_eq, List.map_filterMap]
  unfold linesBeside
  apply List.filterMap_congr
  intro line _
  -- The line is not the tag's, or it opens or closes the comment, or it goes.
  by_cases hcovers : (line.2 : Int) ∈ tag.lines
  · by_cases hends : line.1.delimiter = "/**" ∨ line.1.close ≠ ""
    · simp [leftByRemoval, Tag.covers, hcovers, Tokens.frame?_eq, hends, Tokens.frame_render]
    · simp [leftByRemoval, Tag.covers, hcovers, Tokens.frame?_eq, hends]
  · simp [leftByRemoval, Tag.covers, hcovers]

variable {block other : Block} {index : Int} {tag renumbered : Tag}

/-- What is left of the lines of a comment has no line feeds in its tokens if the lines have
none. -/
theorem linesWithoutType_isUnbroken (hblock : ∀ t ∈ block.lines, t.IsUnbroken) (tag : Tag)
    (dropName : Bool) : ∀ t ∈ block.linesWithoutType tag dropName, t.IsUnbroken := by
  rw [linesWithoutType_eq]
  intro t ht
  obtain ⟨line, hline, hleft⟩ := List.mem_filterMap.mp ht
  obtain ⟨found, hfound, hthins⟩ := leftByStrip_thins tag dropName line
  obtain rfl : found = t := by simpa [hleft] using hfound.symm
  exact hthins.isUnbroken (hblock _ (List.fst_mem_of_mem_zipIdx hline))

/-- Nor do the lines that removing a tag leaves, whether they stay whole or in their frame. -/
theorem linesWithoutTag_isUnbroken (hblock : ∀ t ∈ block.lines, t.IsUnbroken) (tag : Tag) :
    ∀ t ∈ block.linesWithoutTag tag, t.IsUnbroken := by
  rw [linesWithoutTag_eq]
  intro t ht
  obtain ⟨line, hline, hleft⟩ := List.mem_filterMap.mp ht
  have hunbroken := hblock _ (List.fst_mem_of_mem_zipIdx hline)
  unfold leftByRemoval Tokens.frame? at hleft
  split at hleft
  · split at hleft
    · obtain rfl := Option.some.inj hleft
      exact hunbroken.frame
    · cases hleft
  · obtain rfl := Option.some.inj hleft
    exact hunbroken

/-- Whether two comments have the same lines and description and as many tags, and their tags of a
number take up the same lines, whatever else the tags name as lines. -/
structure SameLinesAt (block other : Block) (index : Int) (tag renumbered : Tag) : Prop where
  lines_eq : other.lines = block.lines
  description_eq : other.description = block.description
  /-- So numbers of tags count the same from either end. -/
  tags_length : other.tags.length = block.tags.length
  tag?_eq : other.tag? index = some renumbered
  /-- Only numbers of lines that there are count. -/
  mem_lines_iff : ∀ line < block.lines.length, (line : Int) ∈ renumbered.lines ↔ (line : Int) ∈ tag.lines

theorem SameLinesAt.covers_eq (h : block.SameLinesAt other index tag renumbered) {line : Tokens × Nat}
    (hline : line ∈ block.lines.zipIdx) : renumbered.covers line.2 = tag.covers line.2 := by
  have hlength : line.2 < block.lines.length := by
    obtain ⟨hlength, -⟩ := List.getElem?_eq_some_iff.mp (List.mem_zipIdx_iff_getElem?.mp hline)
    exact hlength
  simp [Tag.covers, h.mem_lines_iff line.2 hlength]

/-- Comments with the same lines at a tag are stripped and rid of it alike. -/
theorem SameLinesAt.rewrites_eq (h : block.SameLinesAt other index tag renumbered)
    (htag : block.tag? index = some tag) :
    (∀ dropName, other.stripTag? index dropName = block.stripTag? index dropName) ∧
      ∀ dropEmpty, other.removeTag? index dropEmpty = block.removeTag? index dropEmpty := by
  -- What is left of a line depends on the line and on whether the tag covers it.
  constructor
  · intro dropName
    rw [stripTag?_eq htag, stripTag?_eq h.tag?_eq, linesWithoutType_eq, linesWithoutType_eq, h.lines_eq]
    congr 2
    apply List.filterMap_congr
    intro line hline
    simp only [leftByStrip, h.covers_eq hline]
  · -- For removal it counts too whether the comment goes as a whole.
    intro dropEmpty
    have hempty : other.isEmptyWithoutTag = block.isEmptyWithoutTag := by
      simp [isEmptyWithoutTag, h.tags_length, h.description_eq]
    have hlines : other.linesWithoutTag renumbered = block.linesWithoutTag tag := by
      rw [linesWithoutTag_eq, linesWithoutTag_eq, h.lines_eq]
      apply List.filterMap_congr
      intro line hline
      simp only [leftByRemoval, h.covers_eq hline]
    rw [removeTag?_eq htag, removeTag?_eq h.tag?_eq, hempty, hlines]

end Block

/-! ## Untouched Lines -/

/-- **Rewrites leave other lines alone.** If no token holds a line feed, stripping a tag leads to as
many lines as before, and those that the tag does not take up are as before. Removing a tag leads to
the lines beside it, unless the comment goes as a whole or no line is left. In either case the tag
may name its lines in any order and more than once, and numbers that name no line of the comment
make no difference. -/
theorem rewrites_keep_other_lines (block : Block) (index : Int) (tag : Tag)
    (htag : block.tag? index = some tag) (hlines : block.lines ≠ [])
    (hunbroken : ∀ t ∈ block.lines, t.IsUnbroken) :
    (∀ dropName, ∃ text, block.stripTag? index dropName = some text ∧
      (splitLines text).length = block.lines.length ∧
      ∀ (line : Nat) (tokens : Tokens), block.lines[line]? = some tokens → (line : Int) ∉ tag.lines →
        (splitLines text)[line]? = some tokens.render) ∧
    (∀ dropEmpty, ∃ text, block.removeTag? index dropEmpty = some text ∧
      ((dropEmpty && block.isEmptyWithoutTag) = false → block.linesBeside tag.lines ≠ [] →
        splitLines text = block.linesBeside tag.lines)) ∧
    ∀ other renumbered, block.SameLinesAt other index tag renumbered →
      (∀ dropName, other.stripTag? index dropName = block.stripTag? index dropName) ∧
        ∀ dropEmpty, other.removeTag? index dropEmpty = block.removeTag? index dropEmpty := by
  refine ⟨?_, ?_, ?_⟩
  · intro dropName
    refine ⟨_, Block.stripTag?_eq htag dropName, ?_⟩
    -- Stripping goes through the lines one by one and drops none.
    have hne : block.linesWithoutType tag dropName ≠ [] := by
      simpa [Block.linesWithoutType] using hlines
    rw [splitLines_renderLines hne (Block.linesWithoutType_isUnbroken hunbroken tag dropName)]
    constructor
    · simp [Block.linesWithoutType]
    · intro line tokens htokens hother
      simp [Block.linesWithoutType, htokens, Tag.covers, hother]
  · intro dropEmpty
    refine ⟨_, Block.removeTag?_eq htag dropEmpty, ?_⟩
    intro hkept hleft
    -- A text without lines would be split into one empty line, so some line has to be left.
    rw [← block.map_render_linesWithoutTag tag] at hleft ⊢
    have hne : block.linesWithoutTag tag ≠ [] := by simpa using hleft
    simp only [hkept, Bool.false_eq_true, if_false]
    exact splitLines_renderLines hne (Block.linesWithoutTag_isUnbroken hunbroken tag)
  · intro other renumbered hsame
    exact hsame.rewrites_eq htag

/-- A tag that names its line twice, and two lines that are not there, is stripped and removed as if
it named its line once. -/
theorem rewrites_keep_other_lines_of_sample :
    let tag : Tag := { name := "type", lines := [2, 9, -1, 2] }
    let other : Tag := { name := "param", lines := [3] }
    let block : Block :=
      { description := "Sums up."
        tags := [tag, other]
        lines :=
          [{ delimiter := "/**" },
            { start := " ", delimiter := "*", postDelimiter := " ", description := "Sums up." },
            { start := " ", delimiter := "*", postDelimiter := " ", tag := "@type", postTag := " ",
              type := "\x7bnumber\x7d" },
            { start := " ", delimiter := "*", postDelimiter := " ", tag := "@param", postTag := " ",
              name := "x", postName := " ", close := "*/" }] }
    let plain : Block := { block with tags := [{ tag with lines := [2] }, other] }
    block.tag? 0 = some tag ∧ block.lines ≠ [] ∧ (∀ t ∈ block.lines, t.IsUnbroken) ∧
      (∃ text, block.stripTag? 0 true = some text ∧
        (splitLines text)[3]? = some " * @param x */") ∧
      (∃ text, block.removeTag? 0 true = some text ∧
        splitLines text = ["/**", " * Sums up.", " * @param x */"]) ∧
      plain.removeTag? 0 true = block.removeTag? 0 true := by
  intro tag other block plain
  have htag : block.tag? 0 = some tag := rfl
  have hunbroken : ∀ t ∈ block.lines, t.IsUnbroken := by decide
  have hsame : block.SameLinesAt plain 0 tag { tag with lines := [2] } :=
    ⟨rfl, rfl, rfl, rfl, by decide⟩
  obtain ⟨hstripped, hremoved, hnumbers⟩ :=
    rewrites_keep_other_lines block 0 tag htag (by decide) hunbroken
  refine ⟨htag, by decide, hunbroken, ?_, ?_, (hnumbers plain _ hsame).2 true⟩
  · obtain ⟨text, htext, -, hlines⟩ := hstripped true
    exact ⟨text, htext, hlines 3 _ rfl (by decide)⟩
  · obtain ⟨text, htext, hlines⟩ := hremoved true
    have hleft : block.linesBeside tag.lines = ["/**", " * Sums up.", " * @param x */"] := by
      decide +kernel
    rw [hleft] at hlines
    exact ⟨text, htext, hlines (by decide) (by decide)⟩

end DocLint
