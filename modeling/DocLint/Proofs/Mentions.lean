import DocLint.Comment.Mention
import DocLint.Text.Blank

/-!
# First Mentions

Renaming looks for a mention of the name from the start of the text on and rewrites the first one. Main
statements: `renameMention_first`, by which a text stays as it is before and after its first mention,
`renameMention_eq_self`, by which a text without a mention stays as it is, and `startsWithMention_append`, by
which white space ends a name that ends in a word character.
-/

namespace DocLint

/-! ## White Space and Words -/

namespace Text

/-- No run of white space meets a run of word characters. -/
theorem blankRanges_apart_wordRanges :
    ∀ blank ∈ blankRanges, ∀ word ∈ wordRanges, blank.2 < word.1 ∨ word.2 < blank.1 := by
  decide +kernel

/-- White space is no part of a word. This is checked on the runs of either table, not on their
characters. -/
theorem isWord_of_isBlank {c : Char} (h : isBlank c = true) : isWord c = false := by
  unfold isBlank inRanges at h
  obtain ⟨blank, hblank, hin⟩ := List.any_eq_true.mp h
  rw [Bool.eq_false_iff]
  intro hword
  unfold isWord inRanges at hword
  obtain ⟨word, hmem, hword⟩ := List.any_eq_true.mp hword
  simp only [Bool.and_eq_true, decide_eq_true_eq] at hin hword
  -- The character would lie in two ranges that do not meet.
  rcases blankRanges_apart_wordRanges blank hblank word hmem with hlow | hhigh <;> omega

end Text

/-! ## Mentions by Their Position -/

/-- Whether a name is mentioned at a position of a text, as reading from that position on tells. -/
def IsMentionAt (name text : List Char) (position : Nat) : Prop :=
  startsWithMention name (text.drop position) = true

instance (name text : List Char) (position : Nat) : Decidable (IsMentionAt name text position) :=
  inferInstanceAs (Decidable (_ = true))

/-- Whether a name ends in a word character; the empty one does not. -/
def EndsInWord (name : List Char) : Prop := Text.isWord (name.getLastD '@') = true

instance (name : List Char) : Decidable (EndsInWord name) := inferInstanceAs (Decidable (_ = true))

theorem startsWithMention_nil (name : List Char) : startsWithMention name [] = false := by
  simp [startsWithMention, mentionOf]

/-- A name that ends in a word character is mentioned where it stands, unless it goes on. -/
theorem startsWithMention_append {name rest : List Char} (hname : EndsInWord name)
    (hrest : rest.head?.any Text.isWord = false) :
    startsWithMention name (mentionOf name ++ rest) = true := by
  unfold EndsInWord at hname
  unfold startsWithMention isWordEdge
  rw [List.drop_left, hname, hrest]
  simp

theorem renameMention_of_startsWithMention {name other text : List Char}
    (h : startsWithMention name text = true) :
    renameMention name other text = mentionOf other ++ text.drop (mentionOf name).length := by
  cases text with
  | nil =>
    rw [startsWithMention_nil] at h
    cases h
  | cons c rest => simp only [renameMention, h, if_true]

/-- Renaming leaves a text alone up to the first mention. The text behind may start with a mention
or hold none; nothing is said of it. -/
theorem renameMention_append {name other before text : List Char}
    (hbefore : ∀ position < before.length, ¬ IsMentionAt name (before ++ text) position) :
    renameMention name other (before ++ text) = before ++ renameMention name other text := by
  induction before with
  | nil => rfl
  | cons c before ih =>
    -- The head is copied since no mention starts there; the positions behind it move up by one.
    have hstart : ¬ startsWithMention name (c :: (before ++ text)) = true :=
      hbefore 0 (by simp)
    have hrest : ∀ position < before.length, ¬ IsMentionAt name (before ++ text) position := by
      intro position hposition
      exact hbefore (position + 1) (by simpa using hposition)
    rw [List.cons_append, renameMention, if_neg hstart, ih hrest, List.cons_append]

/-! ## Renaming the First Mention -/

theorem renameMention_eq_self {name text : List Char} (other : List Char)
    (h : ∀ position, ¬ IsMentionAt name text position) : renameMention name other text = text := by
  -- All of the text stands in front of the empty one, which has nothing to rename.
  have hnone : ∀ position < text.length, ¬ IsMentionAt name (text ++ []) position := by
    intro position _
    simpa using h position
  have happend : renameMention name other (text ++ []) = text ++ renameMention name other [] :=
    renameMention_append hnone
  simpa [renameMention] using happend

/-- Renaming writes the other name in the place of the first mention. -/
theorem renameMention_first {name before after : List Char} (other : List Char)
    (hmention : IsMentionAt name (before ++ mentionOf name ++ after) before.length)
    (hfirst : ∀ earlier < before.length, ¬ IsMentionAt name (before ++ mentionOf name ++ after) earlier) :
    renameMention name other (before ++ mentionOf name ++ after) =
      before ++ mentionOf other ++ after := by
  rw [List.append_assoc] at hmention hfirst
  unfold IsMentionAt at hmention
  rw [List.drop_left] at hmention
  rw [List.append_assoc, renameMention_append hfirst, renameMention_of_startsWithMention hmention,
    List.drop_left, List.append_assoc]

theorem toList_mention (name : String) : ("@" ++ name).toList = mentionOf name.toList := by
  rw [String.toList_append]
  rfl

end DocLint
