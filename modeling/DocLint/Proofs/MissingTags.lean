import DocLint.Proofs.RewrittenLines

/-!
# Numbers of No Tag

A tag is taken out of a comment by its number. A number that counts no tag is refused by stripping and by the
fix for a redundant tag. Removal asks first whether the comment goes as a whole, and if it does, no number
matters. Main statements: `tag?_add_length`, by which a number that counts back stands for one that counts
from the first tag on, and `missing_tags_refused`.
-/

namespace DocLint

namespace Block

variable {block : Block} {index other : Int}

/-! ## Tags That Are Not There -/

/-- There is no tag of a number exactly if the number is before the first tag or past the last, from
either end. -/
theorem tag?_eq_none_iff :
    block.tag? index = none ↔
      index < -(block.tags.length : Int) ∨ (block.tags.length : Int) ≤ index := by
  -- These are the numbers that count no tag, and a number that counts one finds it.
  have hcounts : ¬ block.CountsTag index ↔
      index < -(block.tags.length : Int) ∨ (block.tags.length : Int) ≤ index := by
    unfold CountsTag
    omega
  rw [← hcounts, ← exists_tag?_iff, ← Option.isSome_iff_exists, Option.not_isSome_iff_eq_none]

/-- A number that counts back from the last tag stands for the one that counts the same tag from the
first on. -/
theorem tag?_add_length (hcounts : -(block.tags.length : Int) ≤ index) (hback : index < 0) :
    block.tag? (index + block.tags.length) = block.tag? index := by
  have hfront : 0 ≤ index + block.tags.length := by omega
  unfold tag?
  rw [if_pos hfront, if_neg (Int.not_le.mpr hback), if_pos hcounts, Int.add_comm]

/-! ## Rewrites by Number -/

/-- Of its number, a rewrite sees only the tag: two numbers for one tag lead to the same text or the
same fix, and so do two numbers for none. -/
theorem rewrites_congr (h : block.tag? index = block.tag? other) :
    (∀ dropName, block.stripTag? index dropName = block.stripTag? other dropName) ∧
      (∀ dropEmpty, block.removeTag? index dropEmpty = block.removeTag? other dropEmpty) ∧
      block.redundancyFix? index = block.redundancyFix? other := by
  have hstrip : ∀ dropName, block.stripTag? index dropName = block.stripTag? other dropName := by
    intro dropName
    rw [stripTag?, stripTag?, h]
  have hremove : ∀ dropEmpty, block.removeTag? index dropEmpty = block.removeTag? other dropEmpty := by
    intro dropEmpty
    rw [removeTag?, removeTag?, h]
  refine ⟨hstrip, hremove, ?_⟩
  rw [redundancyFix?, redundancyFix?, h]
  simp only [hstrip, hremove]

/-- Stripping refuses a tag that is not there, and nothing else. -/
theorem stripTag?_eq_none_iff {dropName : Bool} :
    block.stripTag? index dropName = none ↔ block.tag? index = none :=
  Option.map_eq_none_iff

/-- Removal refuses a missing tag unless the comment goes as a whole. -/
theorem removeTag?_eq_none_iff {dropEmpty : Bool} :
    block.removeTag? index dropEmpty = none ↔
      block.tag? index = none ∧ ¬ (dropEmpty = true ∧ block.isEmptyWithoutTag = true) := by
  unfold removeTag?
  rw [← Bool.and_eq_true]
  -- The question whether the comment goes as a whole comes before the look-up.
  by_cases hwhole : (dropEmpty && block.isEmptyWithoutTag) = true
  · simp [hwhole]
  · rw [if_neg hwhole, Option.map_eq_none_iff]
    exact (and_iff_left hwhole).symm

/-- The fix for a redundant tag looks the tag up before all else. -/
theorem redundancyFix?_eq_none_iff :
    block.redundancyFix? index = none ↔ block.tag? index = none := by
  cases htag : block.tag? index with
  | none =>
    unfold redundancyFix?
    rw [htag]
    simp
  | some tag =>
    rw [redundancyFix?_eq htag]
    simp

end Block

/-- **Missing tags are refused, but for a comment that goes as a whole.** Stripping a tag and fixing
a redundant one fail exactly if the number counts no tag from either end. So does removal, unless an
empty comment is to be dropped and its one tag leaves it empty: then the text is empty whatever the
number. A number that counts back gives what the number of the same tag from the first on gives. -/
theorem missing_tags_refused (block : Block) (index : Int) :
    let count : Int := block.tags.length
    let missing := index < -count ∨ count ≤ index
    (∀ dropName, block.stripTag? index dropName = none ↔ missing) ∧
      (block.redundancyFix? index = none ↔ missing) ∧
      (∀ dropEmpty,
        let whole := dropEmpty = true ∧ block.tags.length = 1 ∧ Text.isBlankText block.description = true
        (block.removeTag? index dropEmpty = none ↔ missing ∧ ¬ whole) ∧
          (whole → block.removeTag? index dropEmpty = some "")) ∧
      (-count ≤ index → index < 0 →
        (∀ dropName, block.stripTag? index dropName = block.stripTag? (index + count) dropName) ∧
          (∀ dropEmpty, block.removeTag? index dropEmpty = block.removeTag? (index + count) dropEmpty) ∧
          block.redundancyFix? index = block.redundancyFix? (index + count)) := by
  intro count missing
  have hmissing : block.tag? index = none ↔ missing := Block.tag?_eq_none_iff
  refine ⟨?_, ?_, ?_, ?_⟩
  · intro dropName
    rw [Block.stripTag?_eq_none_iff, hmissing]
  · rw [Block.redundancyFix?_eq_none_iff, hmissing]
  · -- Removal looks whether the comment goes as a whole before it looks for the tag.
    intro dropEmpty whole
    have hwhole : (dropEmpty = true ∧ block.isEmptyWithoutTag = true) ↔ whole := by
      rw [Block.isEmptyWithoutTag_iff]
    refine ⟨?_, ?_⟩
    · rw [Block.removeTag?_eq_none_iff, hmissing, hwhole]
    · intro h
      obtain ⟨hdrop, hempty⟩ := hwhole.mpr h
      simp [Block.removeTag?, hdrop, hempty]
  · intro hcounts hback
    exact Block.rewrites_congr (Block.tag?_add_length hcounts hback).symm

/-- Of two tags, the number minus two counts the first and minus three none; the number two is
refused also by removal, since the comment does not go with one of two tags. -/
theorem missing_tags_refused_of_two :
    let block : Block :=
      { tags := [{ name := "type", lines := [1] }, { name := "class", lines := [2] }]
        lines := [{ delimiter := "/**" }, { delimiter := "*", tag := "@type" },
          { delimiter := "*", tag := "@class" }, { close := "*/" }] }
    block.stripTag? (-2) true = block.stripTag? 0 true ∧
      block.removeTag? (-2) true = some "/**\n*@class\n*/" ∧ block.redundancyFix? (-3) = none ∧
      block.removeTag? 2 true = none := by
  intro block
  have hback := (missing_tags_refused block (-2)).2.2.2 (by decide) (by decide)
  refine ⟨hback.1 true, (hback.2.1 true).trans (by decide), ?_, ?_⟩
  · exact (missing_tags_refused block (-3)).2.1.mpr (Or.inl (by decide))
  · exact ((missing_tags_refused block 2).2.2.1 true).1.mpr ⟨Or.inr (by decide), by decide⟩

/-- The only tag of a comment without a description is removed under any number. -/
theorem missing_tag_may_be_removed :
    ¬ ∀ (block : Block) (index : Int) (dropEmpty : Bool),
      block.removeTag? index dropEmpty = none ↔
        index < -(block.tags.length : Int) ∨ (block.tags.length : Int) ≤ index := by
  intro h
  have hrefused := (h { tags := [{ name := "type" }] } 1 true).mpr (Or.inr (by decide))
  exact absurd hrefused (by decide)

end DocLint
