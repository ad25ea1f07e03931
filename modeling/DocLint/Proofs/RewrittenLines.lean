import Mathlib.Data.List.Forall2
import DocLint.Comment.Fix

/-!
# Rewritten Lines

A tag is taken out of a comment line by line: what is left of a line follows from the line and from whether
the tag takes it up. Main statements: `linesWithoutType_eq` and `linesWithoutTag_eq`, by which both ways to
take a tag out are of this kind, and `redundancyFix?_eq`, by which the fix for a redundant tag is one of the
two.
-/

namespace DocLint

/-! ## What Is Left of a Line -/

/-- Whether a token is as it was or empty. -/
def KeptOrEmpty (token old : String) : Prop := token = old ∨ token = ""

/-- Emptying tokens twice is emptying tokens. -/
theorem keptOrEmpty_trans {first second third : List String}
    (h : List.Forall₂ KeptOrEmpty first second) (hsecond : List.Forall₂ KeptOrEmpty second third) :
    List.Forall₂ KeptOrEmpty first third := by
  induction h generalizing third with
  | nil => exact hsecond
  | cons hhead _ ih =>
    cases hsecond with
    | cons hmiddle hrest =>
      refine .cons ?_ (ih hrest)
      rcases hhead with rfl | hempty
      · exact hmiddle
      · exact Or.inr hempty

/-- Whether a line is another one with some of its tokens emptied, but none at its ends. So it still
opens and closes the comment where the other one did, and it is no longer than that. -/
structure Tokens.Thins (t other : Tokens) : Prop where
  start_eq : t.start = other.start
  delimiter_eq : t.delimiter = other.delimiter
  close_eq : t.close = other.close
  emptied : List.Forall₂ KeptOrEmpty t.toList other.toList

namespace Tokens

theorem Thins.trans {t other third : Tokens} (h : t.Thins other) (hother : other.Thins third) :
    t.Thins third :=
  ⟨h.start_eq.trans hother.start_eq, h.delimiter_eq.trans hother.delimiter_eq,
    h.close_eq.trans hother.close_eq, keptOrEmpty_trans h.emptied hother.emptied⟩

theorem Thins.refl (t : Tokens) : t.Thins t :=
  ⟨rfl, rfl, rfl, List.forall₂_same.mpr fun _ _ => Or.inl rfl⟩

theorem tidy_thins (t : Tokens) : t.tidy.Thins t := by
  unfold tidy
  split
  · exact Thins.refl t
  · exact ⟨rfl, rfl, rfl, by simp [toList, KeptOrEmpty]⟩

theorem withoutType_thins (t : Tokens) : t.withoutType.Thins t := by
  unfold withoutType
  split
  · exact ⟨rfl, rfl, rfl, by simp [toList, KeptOrEmpty]⟩
  · exact Thins.refl t

theorem withoutTag_thins (t : Tokens) : t.withoutTag.Thins t := by
  unfold withoutTag
  split
  · exact ⟨rfl, rfl, rfl, by simp [toList, KeptOrEmpty]⟩
  · exact Thins.refl t

theorem stripped_thins (t : Tokens) (dropName : Bool) : (t.stripped dropName).Thins t := by
  cases dropName with
  | true =>
    show t.withoutType.withoutTag.tidy.Thins t
    apply (tidy_thins _).trans
    exact (withoutTag_thins _).trans t.withoutType_thins
  | false =>
    show t.withoutType.tidy.Thins t
    exact (tidy_thins _).trans t.withoutType_thins

theorem frame_delimiter {t : Tokens} (h : t.opensComment = true) : t.frame.delimiter = t.delimiter := by
  simp [frame, h]

/-- A line that goes stays in its frame exactly if it opens or closes the comment. -/
theorem frame?_eq (t : Tokens) :
    t.frame? = if t.delimiter = "/**" ∨ t.close ≠ "" then some t.frame else none := by
  simp [frame?, opensComment]

end Tokens

namespace Block

variable {block : Block} {index : Int} {tag : Tag}

/-- What stripping a tag leaves of a numbered line. -/
def leftByStrip (tag : Tag) (dropName : Bool) (line : Tokens × Nat) : Option Tokens :=
  some (if tag.covers line.2 then line.1.stripped dropName else line.1)

theorem leftByStrip_thins (tag : Tag) (dropName : Bool) (line : Tokens × Nat) :
    ∃ t, leftByStrip tag dropName line = some t ∧ t.Thins line.1 := by
  refine ⟨_, rfl, ?_⟩
  split
  · exact line.1.stripped_thins dropName
  · exact .refl line.1

/-- What removing a tag leaves of a numbered line. -/
def leftByRemoval (tag : Tag) (line : Tokens × Nat) : Option Tokens :=
  if tag.covers line.2 then line.1.frame? else some line.1

/-- Stripping a tag goes through the lines one by one. -/
theorem linesWithoutType_eq (block : Block) (tag : Tag) (dropName : Bool) :
    block.linesWithoutType tag dropName = block.lines.zipIdx.filterMap (leftByStrip tag dropName) := by
  unfold linesWithoutType
  rw [List.mapIdx_eq_zipIdx_map, ← List.filterMap_eq_map]
  rfl

theorem linesWithoutTag_eq (block : Block) (tag : Tag) :
    block.linesWithoutTag tag = block.lines.zipIdx.filterMap (leftByRemoval tag) := rfl

/-! ## Tags by Their Numbers -/

/-- Whether a number counts a tag of a comment, from the first tag on or from the last tag back. -/
def CountsTag (block : Block) (index : Int) : Prop :=
  -(block.tags.length : Int) ≤ index ∧ index < block.tags.length

instance (block : Block) (index : Int) : Decidable (block.CountsTag index) :=
  inferInstanceAs (Decidable (_ ∧ _))

/-- There is a tag of a number exactly if the number counts one. -/
theorem exists_tag?_iff : (∃ tag, block.tag? index = some tag) ↔ block.CountsTag index := by
  rw [← Option.isSome_iff_exists]
  unfold tag? CountsTag
  -- A number that is not negative counts from the first tag on, any other from the last one back.
  by_cases hfront : 0 ≤ index
  · rw [if_pos hfront, isSome_getElem?]
    omega
  · rw [if_neg hfront]
    by_cases hback : -(block.tags.length : Int) ≤ index
    · rw [if_pos hback, isSome_getElem?]
      omega
    · simp [hback]

/-! ## The Texts of Rewrites -/

theorem stripTag?_eq (htag : block.tag? index = some tag) (dropName : Bool) :
    block.stripTag? index dropName = some (renderLines (block.linesWithoutType tag dropName)) := by
  simp [stripTag?, htag]

/-- The text of a comment whose tag is removed, which may be none at all. -/
theorem removeTag?_eq (htag : block.tag? index = some tag) (dropEmpty : Bool) :
    block.removeTag? index dropEmpty =
      some (if dropEmpty && block.isEmptyWithoutTag then ""
        else renderLines (block.linesWithoutTag tag)) := by
  unfold removeTag?
  rw [htag]
  split <;> rfl

/-- A redundant tag with a description is stripped; one without is removed, and the comment with it
if nothing else is in there. -/
theorem redundancyFix?_eq (htag : block.tag? index = some tag) :
    block.redundancyFix? index =
      some (if Text.isBlankText tag.description then
        .remove tag.name (if block.isEmptyWithoutTag then "" else renderLines (block.linesWithoutTag tag))
      else .strip tag.name (renderLines (block.linesWithoutType tag true))) := by
  unfold redundancyFix?
  rw [htag]
  by_cases hblank : Text.isBlankText tag.description = true
  · simp [hblank, removeTag?_eq htag]
  · simp [hblank, stripTag?_eq htag]

/-- A comment holds nothing beside a tag if that is its only one and nothing is described. -/
theorem isEmptyWithoutTag_iff :
    block.isEmptyWithoutTag = true ↔
      block.tags.length = 1 ∧ Text.isBlankText block.description = true := by
  simp [isEmptyWithoutTag]

end Block

end DocLint
