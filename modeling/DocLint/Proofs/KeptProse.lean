import DocLint.Comment.Fix
import DocLint.Proofs.Rendering

/-!
# What Redundancy Fixes Keep

The fix for a redundant tag strips the tag, drops its lines or drops the whole comment. Which of them it is
follows from the descriptions that the parser gives of the tag and the comment, while the prose stands in the
tokens of the lines. Where the two agree no prose is lost. Main statements: `renderLines_filterMap`, by which
the text of lines keeps what each line keeps, and `redundancy_fix_keeps_prose`.
-/

namespace DocLint

/-! ## Parts of a Text -/

/-- Whether parts stand in a text one after the other, in the order given and without overlap. -/
def StandInOrder : List String → String → Prop
  | [], _ => True
  | part :: parts, text =>
    ∃ before after, text = before ++ part ++ after ∧ StandInOrder parts after

namespace StandInOrder

variable {parts fewer first second : List String} {text rest : String}

theorem prepend (h : StandInOrder parts text) (front : String) : StandInOrder parts (front ++ text) := by
  cases parts with
  | nil => trivial
  | cons part parts =>
    obtain ⟨before, after, rfl, hparts⟩ := h
    exact ⟨front ++ before, after, by simp only [String.append_assoc], hparts⟩

theorem append (hfirst : StandInOrder first text) (hsecond : StandInOrder second rest) :
    StandInOrder (first ++ second) (text ++ rest) := by
  induction first generalizing text with
  | nil => exact hsecond.prepend text
  | cons part first ih =>
    obtain ⟨before, after, rfl, hparts⟩ := hfirst
    exact ⟨before, after ++ rest, by simp only [String.append_assoc], ih hparts⟩

theorem of_sublist (h : StandInOrder parts text) (hfewer : fewer.Sublist parts) :
    StandInOrder fewer text := by
  -- A part that is left out becomes text in front of the next one.
  induction hfewer generalizing text with
  | slnil => trivial
  | cons part _ ih =>
    obtain ⟨before, after, rfl, hparts⟩ := h
    exact (ih hparts).prepend _
  | cons_cons part _ ih =>
    obtain ⟨before, after, htext, hparts⟩ := h
    exact ⟨before, after, htext, ih hparts⟩

end StandInOrder

/-! ## Lines -/

theorem Tokens.name_description_render (t : Tokens) : StandInOrder [t.name, t.description] t.render := by
  refine ⟨t.beforeTag ++ t.tag ++ t.postTag ++ t.type ++ t.postType,
    t.postName ++ t.description ++ t.lineEnd ++ t.close, ?_,
    t.postName, t.lineEnd ++ t.close, String.append_assoc .., trivial⟩
  simp only [render_eq, afterTag, String.append_assoc]

/-- The parts of a line stand in front of those of the lines below it. -/
theorem StandInOrder.renderLines_cons {first second : List String} {tokens : Tokens} {lines : List Tokens}
    (hfirst : StandInOrder first tokens.render) (hsecond : StandInOrder second (renderLines lines)) :
    StandInOrder (first ++ second) (renderLines (tokens :: lines)) := by
  cases lines with
  | nil =>
    -- There is no line feed after the last line.
    have happend := hfirst.append hsecond
    simpa [renderLines, joinLines] using happend
  | cons next lines =>
    have happend := hfirst.append (hsecond.prepend "\n")
    rw [← String.append_assoc] at happend
    exact happend

/-- Whether parts of a line stand in what is left of it; where nothing is left there have to be
none. -/
def KeepsParts (parts : List String) : Option Tokens → Prop
  | none => parts = []
  | some tokens => StandInOrder parts tokens.render

/-- If each line keeps its parts, the text of all that is left keeps the parts of all lines. -/
theorem renderLines_filterMap {α : Type} {entries : List α} {parts : α → List String}
    {left : α → Option Tokens} (h : ∀ entry ∈ entries, KeepsParts (parts entry) (left entry)) :
    StandInOrder (entries.flatMap parts) (renderLines (entries.filterMap left)) := by
  induction entries with
  | nil => trivial
  | cons entry entries ih =>
    have hentry := h entry (List.mem_cons_self ..)
    have hrest := ih fun other hother => h other (List.mem_cons_of_mem _ hother)
    rw [List.flatMap_cons]
    cases hleft : left entry with
    | none =>
      -- A line that goes had no parts to keep.
      rw [hleft] at hentry
      rw [List.filterMap_cons_none hleft, show parts entry = [] from hentry]
      exact hrest
    | some tokens =>
      rw [hleft] at hentry
      rw [List.filterMap_cons_some hleft]
      exact StandInOrder.renderLines_cons hentry hrest

/-! ## Prose -/

/-- What a line says in prose: its description, unless that is blank. -/
def Tokens.prose (t : Tokens) : List String :=
  if Text.isBlankText t.description then [] else [t.description]

theorem Tokens.prose_sublist (t : Tokens) : t.prose.Sublist [t.description] := by
  unfold prose
  split <;> simp

theorem Tokens.prose_of_blank {t : Tokens} (h : Text.isBlankText t.description = true) : t.prose = [] := by
  unfold prose
  rw [if_pos h]

namespace Block

/-- The prose of a comment: the descriptions of its lines, in order, the blank ones apart. -/
def prose (block : Block) : List String := block.lines.flatMap Tokens.prose

/-- The prose of a comment, and with it the names that stand in the lines of a tag. -/
def proseWithNames (block : Block) (tag : Tag) : List String :=
  block.lines.zipIdx.flatMap fun line =>
    if tag.covers line.2 then line.1.name :: line.1.prose else line.1.prose

/-- The numbers of the lines do not matter for the prose. -/
theorem prose_eq (block : Block) : block.prose = block.lines.zipIdx.flatMap fun line => line.1.prose := by
  calc block.lines.flatMap Tokens.prose
      = (block.lines.zipIdx.map Prod.fst).flatMap Tokens.prose := by rw [List.zipIdx_map_fst]
    _ = block.lines.zipIdx.flatMap fun line => line.1.prose := List.flatMap_map ..

end Block

/-! ## Stripping a Tag -/

namespace Tokens

@[simp] theorem tidy_name (t : Tokens) : t.tidy.name = t.name := by
  unfold tidy
  split <;> rfl

@[simp] theorem tidy_description (t : Tokens) : t.tidy.description = t.description := by
  unfold tidy
  split <;> rfl

@[simp] theorem withoutType_name (t : Tokens) : t.withoutType.name = t.name := by
  unfold withoutType
  split <;> rfl

@[simp] theorem withoutType_description (t : Tokens) : t.withoutType.description = t.description := by
  unfold withoutType
  split <;> rfl

@[simp] theorem withoutTag_name (t : Tokens) : t.withoutTag.name = t.name := by
  unfold withoutTag
  split <;> rfl

@[simp] theorem withoutTag_description (t : Tokens) : t.withoutTag.description = t.description := by
  unfold withoutTag
  split <;> rfl

theorem stripped_keeps (t : Tokens) (dropName : Bool) :
    (t.stripped dropName).name = t.name ∧ (t.stripped dropName).description = t.description := by
  unfold stripped
  cases dropName <;> simp

end Tokens

namespace Block

/-- Stripping a tag keeps whatever is taken of the names and descriptions of the lines. What is
taken may differ from line to line, so this serves the prose alone and the prose with names. -/
theorem linesWithoutType_keep (block : Block) (tag : Tag) (dropName : Bool)
    {parts : Tokens × Nat → List String}
    (hparts : ∀ line, (parts line).Sublist [line.1.name, line.1.description]) :
    StandInOrder (block.lines.zipIdx.flatMap parts)
      (renderLines (block.linesWithoutType tag dropName)) := by
  unfold linesWithoutType
  rw [List.mapIdx_eq_zipIdx_map, ← List.filterMap_eq_map]
  apply renderLines_filterMap
  intro line _
  obtain ⟨tokens, index⟩ := line
  show StandInOrder _ (Tokens.render (if tag.covers index then tokens.stripped dropName else tokens))
  split
  · -- A line of the tag loses its type, which is no part of what is kept.
    obtain ⟨hname, hdescription⟩ := tokens.stripped_keeps dropName
    have hstand := (tokens.stripped dropName).name_description_render
    rw [hname, hdescription] at hstand
    exact hstand.of_sublist (hparts _)
  · exact tokens.name_description_render.of_sublist (hparts _)

/-- Stripping a tag keeps the prose of all lines. -/
theorem strip_keeps_prose (block : Block) (tag : Tag) (dropName : Bool) :
    StandInOrder block.prose (renderLines (block.linesWithoutType tag dropName)) := by
  rw [prose_eq]
  apply block.linesWithoutType_keep
  intro line
  exact line.1.prose_sublist.cons line.1.name

/-- Stripping a tag keeps the names in its lines, too. -/
theorem strip_keeps_names (block : Block) (tag : Tag) (dropName : Bool) :
    StandInOrder (block.proseWithNames tag) (renderLines (block.linesWithoutType tag dropName)) := by
  unfold proseWithNames
  apply block.linesWithoutType_keep
  intro line
  split
  · exact line.1.prose_sublist.cons_cons line.1.name
  · exact line.1.prose_sublist.cons line.1.name

/-! ## Removing a Tag -/

/-- Removing a tag keeps all prose if there is none in the lines of the tag. -/
theorem linesWithoutTag_keep {block : Block} {tag : Tag}
    (hblank : ∀ line ∈ block.lines.zipIdx, tag.covers line.2 = true →
      Text.isBlankText line.1.description = true) :
    StandInOrder block.prose (renderLines (block.linesWithoutTag tag)) := by
  unfold linesWithoutTag
  rw [prose_eq]
  apply renderLines_filterMap
  intro line hline
  obtain ⟨tokens, index⟩ := line
  by_cases hcovers : tag.covers index = true
  · -- The line goes, or is left with what opens and closes the comment.
    rw [Tokens.prose_of_blank (hblank _ hline hcovers)]
    simp only [if_pos hcovers]
    cases tokens.frame? with
    | none => rfl
    | some frame => trivial
  · simp only [if_neg hcovers]
    exact tokens.name_description_render.of_sublist (tokens.prose_sublist.cons tokens.name)

/-- A tag that is found, from either end, is one of the comment. -/
theorem mem_tags_of_tag? {block : Block} {index : Int} {tag : Tag} (h : block.tag? index = some tag) :
    tag ∈ block.tags := by
  unfold tag? at h
  split at h
  · exact List.mem_of_getElem? h
  · split at h
    · exact List.mem_of_getElem? h
    · cases h

/-! ## Descriptions of Tags and Comments -/

/-- Whether a parser describes a tag and a comment as their lines do: the description of the tag is
blank exactly if the descriptions in its lines are, and that of the comment exactly if the
descriptions in the lines of no tag are. -/
structure DescriptionsAgree (block : Block) (tag : Tag) : Prop where
  /-- The lines of a tag are those that it takes up. -/
  tag_blank_iff : Text.isBlankText tag.description = true ↔
    ∀ line ∈ block.lines.zipIdx, tag.covers line.2 = true → Text.isBlankText line.1.description = true
  /-- The lines of no tag are the comment's own. -/
  comment_blank_iff : Text.isBlankText block.description = true ↔
    ∀ line ∈ block.lines.zipIdx, (∀ other ∈ block.tags, other.covers line.2 = false) →
      Text.isBlankText line.1.description = true

/-- There is no prose in a comment that is blank beside a blank tag, so a fix that drops the whole
comment drops no prose. -/
theorem DescriptionsAgree.prose_eq_nil {block : Block} {tag : Tag} (h : block.DescriptionsAgree tag)
    (hmem : tag ∈ block.tags) (hempty : block.isEmptyWithoutTag = true)
    (htag : Text.isBlankText tag.description = true) : block.prose = [] := by
  unfold isEmptyWithoutTag at hempty
  -- The comment would be empty without the tag since it has no other one.
  rw [Bool.and_eq_true, beq_iff_eq, List.length_eq_one_iff] at hempty
  obtain ⟨⟨only, honly⟩, hcomment⟩ := hempty
  rw [honly, List.mem_singleton] at hmem
  subst hmem
  rw [prose_eq, List.flatMap_eq_nil_iff]
  intro line hline
  apply Tokens.prose_of_blank
  -- A line belongs to the only tag of the comment or to none.
  cases hcovers : tag.covers line.2 with
  | true => exact h.tag_blank_iff.mp htag line hline hcovers
  | false =>
    refine h.comment_blank_iff.mp hcomment line hline ?_
    intro other hother
    rw [honly, List.mem_singleton] at hother
    rw [hother, hcovers]

end Block

/-! ## Redundancy Fixes -/

/-- **A redundancy fix keeps all prose.** Where the descriptions of the tag and of the comment agree
with the lines, every description in the lines that is not blank stands in the text of the fix, in
order and without overlap; if the tag has a description, so do the names in the lines of the tag. -/
theorem redundancy_fix_keeps_prose (block : Block) (index : Int) (tag : Tag)
    (htag : block.tag? index = some tag) (hagree : block.DescriptionsAgree tag) :
    ∃ fix, block.redundancyFix? index = some fix ∧ ∀ source,
      StandInOrder block.prose (fix.apply source) ∧
        (Text.isBlankText tag.description = false →
          StandInOrder (block.proseWithNames tag) (fix.apply source)) := by
  unfold Block.redundancyFix?
  rw [htag]
  -- One case for each of the three things that the fix can do.
  cases hdescription : Text.isBlankText tag.description with
  | false =>
    -- The tag is stripped in place.
    refine ⟨.strip tag.name (renderLines (block.linesWithoutType tag true)), ?_, ?_⟩
    · simp [hdescription, Block.stripTag?, htag]
    · intro source
      exact ⟨block.strip_keeps_prose tag true, fun _ => block.strip_keeps_names tag true⟩
  | true =>
    cases hempty : block.isEmptyWithoutTag with
    | true =>
      -- The whole comment goes.
      refine ⟨.remove tag.name "", ?_, ?_⟩
      · simp [hdescription, Block.removeTag?, hempty]
      · intro source
        rw [hagree.prose_eq_nil (Block.mem_tags_of_tag? htag) hempty hdescription]
        exact ⟨trivial, fun h => by cases h⟩
    | false =>
      -- The lines of the tag go.
      refine ⟨.remove tag.name (renderLines (block.linesWithoutTag tag)), ?_, ?_⟩
      · simp [hdescription, Block.removeTag?, hempty, htag]
      · intro source
        exact ⟨Block.linesWithoutTag_keep (hagree.tag_blank_iff.mp hdescription), fun h => by cases h⟩

/-- A type tag with a name and two lines of description is stripped, and all of it stays but the tag
and the type; here the tag is counted from the end. -/
theorem redundancy_fix_keeps_description :
    let tag : Tag := { name := "type", description := "the sum\nof all parts", lines := [1, 2] }
    let block : Block :=
      { description := "Sums up."
        tags := [tag, { name := "param", path := some "x", lines := [3] }]
        lines :=
          [{ delimiter := "/**", postDelimiter := " ", description := "Sums up." },
            { start := " ", delimiter := "*", postDelimiter := " ", tag := "@type", postTag := " ",
              type := "\x7bnumber\x7d", postType := " ", name := "total", postName := " ",
              description := "the sum" },
            { start := " ", delimiter := "*", postDelimiter := " ", description := "of all parts" },
            { start := " ", delimiter := "*", postDelimiter := " ", tag := "@param", postTag := " ",
              name := "x", postName := " ", close := "*/" }] }
    block.tag? (-2) = some tag ∧ block.DescriptionsAgree tag ∧
      ∃ fix, block.redundancyFix? (-2) = some fix ∧
        StandInOrder ["Sums up.", "total", "the sum", "of all parts"] (fix.apply block.source) := by
  intro tag block
  have htag : block.tag? (-2) = some tag := by rfl
  have hagree : block.DescriptionsAgree tag := ⟨by decide +kernel, by decide +kernel⟩
  -- The second line of the tag has an empty name, which says nothing.
  have hnames : ["Sums up.", "total", "the sum", "of all parts"].Sublist (block.proseWithNames tag) := by
    decide +kernel
  obtain ⟨fix, hfix, hkept⟩ := redundancy_fix_keeps_prose block (-2) tag htag hagree
  have hkeptNames := (hkept block.source).2 (by decide +kernel)
  exact ⟨htag, hagree, fix, hfix, hkeptNames.of_sublist hnames⟩

end DocLint
