import Mathlib.Data.Nat.Find
import Mathlib.Order.Bounds.Defs
import DocLint.Proofs.Mentions

/-!
# The Leftmost Mention

Where a tag name is mentioned in a text, said of the text as a whole and not by reading it from the start: a
text falls into what stands before the mention, the mention itself and what stands after it. Main
statements: `isMentionAt_iff`, by which reading finds a mention exactly at such a place,
`exists_first_mention`, and `replaceTagName_leftmost`, by which renaming rewrites the leftmost mention and
nothing else.
-/

namespace DocLint

/-! ## Mentions and What Stands around Them -/

/-- Exactly one side of a word edge is a word character; behind the last character of a text there
is none. -/
theorem isWordEdge_iff {last : Char} {next : Option Char} :
    isWordEdge last next = true ↔
      Xor (Text.isWord last = true) (∃ c, next = some c ∧ Text.isWord c = true) := by
  have hnext : next.any Text.isWord = true ↔ ∃ c, next = some c ∧ Text.isWord c = true := by
    cases next <;> simp
  rw [← hnext]
  unfold isWordEdge
  cases Text.isWord last <;> cases next.any Text.isWord <;> simp [Xor]

/-- A text starts with a mention exactly if the mention is followed by a text that ends the name. -/
theorem startsWithMention_iff {name text : List Char} :
    startsWithMention name text = true ↔
      ∃ after, text = mentionOf name ++ after ∧ isWordEdge (name.getLastD '@') after.head? = true := by
  unfold startsWithMention
  rw [Bool.and_eq_true, List.isPrefixOf_iff_prefix]
  -- What follows the mention is what dropping it leaves.
  constructor
  · intro h
    obtain ⟨⟨after, rfl⟩, hedge⟩ := h
    rw [List.drop_left] at hedge
    exact ⟨after, rfl, hedge⟩
  · intro h
    obtain ⟨after, rfl, hedge⟩ := h
    rw [List.drop_left]
    exact ⟨List.prefix_append _ _, hedge⟩

/-- A name is mentioned at a position exactly if the text falls into a text of that length, the
mention and a text that ends the name. -/
theorem isMentionAt_iff {name text : List Char} {position : Nat} :
    IsMentionAt name text position ↔
      ∃ before after, text = before ++ mentionOf name ++ after ∧ before.length = position ∧
        isWordEdge (name.getLastD '@') after.head? = true := by
  unfold IsMentionAt
  rw [startsWithMention_iff]
  constructor
  · intro h
    obtain ⟨after, hdrop, hedge⟩ := h
    -- What is left at the position is not empty, so the text reaches that far.
    have hposition : position ≤ text.length := by
      have hlength := congrArg List.length hdrop
      simp only [List.length_drop, mentionOf, List.length_append, List.length_cons] at hlength
      omega
    refine ⟨text.take position, after, ?_, ?_, hedge⟩
    · rw [List.append_assoc, ← hdrop, List.take_append_drop]
    · simp [hposition]
  · intro h
    obtain ⟨before, after, rfl, rfl, hedge⟩ := h
    refine ⟨after, ?_, hedge⟩
    rw [List.append_assoc, List.drop_left]

/-- A text has no mention of a name, or it has a first one. Positions are natural numbers, so there
is a least one among those of the mentions. -/
theorem exists_first_mention (name text : List Char) :
    (∀ position, ¬ IsMentionAt name text position) ∨
      ∃ before after, text = before ++ mentionOf name ++ after ∧
        IsMentionAt name text before.length ∧
        ∀ earlier < before.length, ¬ IsMentionAt name text earlier := by
  by_cases h : ∃ position, IsMentionAt name text position
  · right
    have hfirst := Nat.find_spec h
    obtain ⟨before, after, htext, hlength, -⟩ := isMentionAt_iff.mp hfirst
    rw [← hlength] at hfirst
    refine ⟨before, after, htext, hfirst, ?_⟩
    intro earlier hearlier
    rw [hlength] at hearlier
    exact Nat.find_min h hearlier
  · left
    exact not_exists.mp h

/-! ## Whole-Word Occurrences in Texts -/

/-- Whether the last character of a text is a word character. -/
def EndsWithWordChar (s : String) : Prop := ∃ c, s.toList.getLast? = some c ∧ Text.isWord c = true

/-- Whether a text has a first character and it is a word character. -/
def StartsWithWordChar (s : String) : Prop := ∃ c, s.toList.head? = some c ∧ Text.isWord c = true

/-- Whether a tag name occurs in a text at a position as a whole word: an at sign and the name stand
there, and exactly one of these holds: their last character is a word character; there is a next
character and it is a word character. -/
def IsOccurrence (name text : String) (position : Nat) : Prop :=
  ∃ before after : String, text = before ++ ("@" ++ name) ++ after ∧ before.length = position ∧
    Xor (EndsWithWordChar ("@" ++ name)) (StartsWithWordChar after)

/-- A mention ends in the last character of the name, or in the at sign if the name is empty. -/
theorem endsWithWordChar_mention_iff (name : String) :
    EndsWithWordChar ("@" ++ name) ↔ Text.isWord (name.toList.getLastD '@') = true := by
  unfold EndsWithWordChar
  rw [toList_mention, mentionOf, List.getLast?_cons, ← List.getLastD_eq_getLast?]
  simp

theorem ofList_around_mention (before after : List Char) (word : String) :
    String.ofList (before ++ mentionOf word.toList ++ after) =
      String.ofList before ++ ("@" ++ word) ++ String.ofList after := by
  rw [String.ofList_append, String.ofList_append, ← toList_mention, String.ofList_toList]

/-- The whole-word occurrences of a name are the mentions that reading the text finds. The former
are said of texts and the latter of lists of characters; the edges are the same. -/
theorem isOccurrence_iff {name text : String} {position : Nat} :
    IsOccurrence name text position ↔ IsMentionAt name.toList text.toList position := by
  unfold IsOccurrence
  rw [isMentionAt_iff]
  constructor
  · intro h
    obtain ⟨before, after, rfl, hlength, hedge⟩ := h
    rw [endsWithWordChar_mention_iff] at hedge
    refine ⟨before.toList, after.toList, ?_, ?_, isWordEdge_iff.mpr hedge⟩
    · rw [String.toList_append, String.toList_append, toList_mention]
    · rw [String.length_toList, hlength]
  · intro h
    obtain ⟨before, after, htext, hlength, hedge⟩ := h
    refine ⟨String.ofList before, String.ofList after, ?_, ?_, ?_⟩
    · rw [← ofList_around_mention, ← htext, String.ofList_toList]
    · rw [String.length_ofList, hlength]
    · rw [endsWithWordChar_mention_iff]
      unfold StartsWithWordChar
      rw [String.toList_ofList]
      exact isWordEdge_iff.mp hedge

/-! ## Rewriting the Leftmost Occurrence -/

/-- **Renaming rewrites the leftmost whole-word occurrence and nothing else.** A text in which the
name does not occur stays as it is; else the text is the same before and after the leftmost
occurrence, in whose place stand an at sign and the other name, taken literally. -/
theorem replaceTagName_leftmost (text name other : String) :
    (∀ position, ¬ IsOccurrence name text position) ∧ replaceTagName text name other = text ∨
      ∃ before after, text = before ++ ("@" ++ name) ++ after ∧
        IsLeast {position | IsOccurrence name text position} before.length ∧
        replaceTagName text name other = before ++ ("@" ++ other) ++ after := by
  unfold replaceTagName
  -- The same on lists of characters; what is left is to say it of texts.
  rcases exists_first_mention name.toList text.toList with hnone | ⟨before, after, htext, hmention, hfirst⟩
  · left
    refine ⟨fun position h => hnone position (isOccurrence_iff.mp h), ?_⟩
    rw [renameMention_eq_self _ hnone, String.ofList_toList]
  · right
    refine ⟨String.ofList before, String.ofList after, ?_, ⟨?_, ?_⟩, ?_⟩
    · rw [← ofList_around_mention, ← htext, String.ofList_toList]
    · show IsOccurrence name text _
      rw [isOccurrence_iff, String.length_ofList]
      exact hmention
    · -- An occurrence further left would have been found first.
      intro position hposition
      rw [String.length_ofList]
      apply Nat.le_of_not_lt
      intro hearlier
      exact hfirst position hearlier (isOccurrence_iff.mp hposition)
    · -- Reading stops at the first mention and leaves what is behind it alone.
      rw [htext] at hmention hfirst ⊢
      rw [renameMention_first _ hmention hfirst, ofList_around_mention]

end DocLint
