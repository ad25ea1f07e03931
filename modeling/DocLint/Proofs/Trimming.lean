import Mathlib.Data.List.DropRight
import DocLint.Text.Blank

/-!
# What Trimming Leaves

Trimming takes white space off the ends of a text and nothing else. Main statements:
`startsBlank_trim` and `endsBlank_trim`, by which no white space is left at either end,
`exists_blank_around`, by which only white space goes, `trim_between`, by which a text without white space
at its ends is what is left of it between white space, and `trimEnd_append`, by which trimming does not
reach past a character that is no white space.
-/

namespace DocLint.Text

/-- Whether a text starts with white space. -/
def startsBlank (cs : List Char) : Bool := cs.head?.any isBlank

/-- Whether a text ends in white space. -/
def endsBlank (cs : List Char) : Bool := cs.getLast?.any isBlank

/-! ## At the Start -/

theorem startsBlank_append {front : List Char} (rest : List Char) (h : front ≠ []) :
    startsBlank (front ++ rest) = startsBlank front := by
  unfold startsBlank
  rw [List.head?_append_of_ne_nil front h]

theorem startsBlank_trimStart (cs : List Char) : startsBlank (trimStart cs) = false := by
  have hhead := List.head?_dropWhile_not isBlank cs
  unfold startsBlank trimStart
  cases h : (cs.dropWhile isBlank).head? with
  | none => rfl
  | some c =>
    rw [h] at hhead
    exact hhead

theorem trimStart_eq_self {cs : List Char} (h : startsBlank cs = false) : trimStart cs = cs := by
  cases cs with
  | nil => rfl
  | cons c rest =>
    have hc : ¬ isBlank c = true := by simpa [startsBlank] using h
    exact List.dropWhile_cons_of_neg hc

theorem trimStart_cons_blank {c : Char} (rest : List Char) (h : isBlank c = true) :
    trimStart (c :: rest) = trimStart rest := List.dropWhile_cons_of_pos h

/-! ## At the End -/

/-- Trimming at the end is trimming at the start of the text read backwards. -/
theorem trimEnd_eq (cs : List Char) : trimEnd cs = (trimStart cs.reverse).reverse := rfl

theorem endsBlank_eq (cs : List Char) : endsBlank cs = startsBlank cs.reverse := by
  unfold endsBlank startsBlank
  rw [List.head?_reverse]

theorem endsBlank_append (front : List Char) {rest : List Char} (h : rest ≠ []) :
    endsBlank (front ++ rest) = endsBlank rest := by
  rw [endsBlank_eq, endsBlank_eq, List.reverse_append,
    startsBlank_append _ (mt List.reverse_eq_nil_iff.mp h)]

theorem endsBlank_trimEnd (cs : List Char) : endsBlank (trimEnd cs) = false := by
  rw [endsBlank_eq, trimEnd_eq, List.reverse_reverse, startsBlank_trimStart]

theorem trimEnd_eq_self {cs : List Char} (h : endsBlank cs = false) : trimEnd cs = cs := by
  rw [trimEnd_eq, trimStart_eq_self (by rw [← endsBlank_eq, h]), List.reverse_reverse]

/-- Trimming at the end leaves exactly the texts alone that end in no white space. -/
theorem trimEnd_eq_self_iff {cs : List Char} : trimEnd cs = cs ↔ endsBlank cs = false :=
  ⟨fun h => h ▸ endsBlank_trimEnd cs, trimEnd_eq_self⟩

/-- Trimming at the end takes nothing off a text in front that ends in no white space. -/
theorem trimEnd_append {front : List Char} (rest : List Char) (h : endsBlank front = false) :
    trimEnd (front ++ rest) = front ++ trimEnd rest := by
  have hfront : trimStart front.reverse = front.reverse :=
    trimStart_eq_self (by rw [← endsBlank_eq, h])
  rw [trimEnd_eq, trimEnd_eq, List.reverse_append]
  unfold trimStart at hfront ⊢
  rw [List.dropWhile_append, hfront]
  by_cases hrest : (rest.reverse.dropWhile isBlank).isEmpty = true
  · -- What follows is white space throughout and goes as a whole.
    rw [if_pos hrest, List.isEmpty_iff.mp hrest]
    simp
  · rw [if_neg hrest, List.reverse_append, List.reverse_reverse]

theorem trimEnd_isPrefix (cs : List Char) : trimEnd cs <+: cs := List.rdropWhile_prefix isBlank cs

/-- A character goes with the text behind it if it is white space and none of that text is left. -/
theorem trimEnd_cons (c : Char) (rest : List Char) :
    trimEnd (c :: rest) = if trimEnd rest = [] ∧ isBlank c = true then [] else c :: trimEnd rest := by
  -- Read backwards the character comes last, after all that can be dropped before it.
  simp only [trimEnd, List.reverse_cons, List.dropWhile_append, List.reverse_eq_nil_iff,
    List.isEmpty_iff]
  by_cases hrest : rest.reverse.dropWhile isBlank = []
  · by_cases hc : isBlank c = true <;> simp [hrest, hc]
  · simp [hrest]

/-! ## At Both Ends -/

theorem startsBlank_trim (cs : List Char) : startsBlank (trim cs) = false := by
  by_cases hempty : trim cs = []
  · rw [hempty]
    rfl
  · -- What is left starts as the text that was trimmed at its start does.
    obtain ⟨rest, hrest⟩ := trimEnd_isPrefix (trimStart cs)
    rw [← startsBlank_append rest hempty, trim, hrest, startsBlank_trimStart]

theorem endsBlank_trim (cs : List Char) : endsBlank (trim cs) = false := endsBlank_trimEnd _

/-! ## What Is Taken Off -/

theorem trimStart_append {front : List Char} (rest : List Char) (h : front.all isBlank = true) :
    trimStart (front ++ rest) = trimStart rest :=
  List.dropWhile_append_of_pos (List.all_eq_true.mp h)

theorem trimStart_of_blank {cs : List Char} (h : cs.all isBlank = true) : trimStart cs = [] :=
  List.dropWhile_eq_nil_iff.mpr (List.all_eq_true.mp h)

theorem trimEnd_of_blank {cs : List Char} (h : cs.all isBlank = true) : trimEnd cs = [] := by
  rw [trimEnd_eq, trimStart_of_blank (by rw [List.all_reverse, h])]
  rfl

theorem exists_blank_behind (cs : List Char) :
    ∃ back, back.all isBlank = true ∧ cs = trimEnd cs ++ back := by
  refine ⟨(cs.reverse.takeWhile isBlank).reverse, ?_, ?_⟩
  · rw [List.all_reverse]
    exact List.all_takeWhile
  · rw [trimEnd, ← List.reverse_append, List.takeWhile_append_dropWhile, List.reverse_reverse]

/-- What is taken off at the ends is white space. -/
theorem exists_blank_around (cs : List Char) :
    ∃ front back, front.all isBlank = true ∧ back.all isBlank = true ∧
      cs = front ++ trim cs ++ back := by
  obtain ⟨back, hback, hrest⟩ := exists_blank_behind (trimStart cs)
  refine ⟨cs.takeWhile isBlank, back, List.all_takeWhile, hback, ?_⟩
  rw [List.append_assoc, trim, ← hrest, trimStart, List.takeWhile_append_dropWhile]

theorem mem_of_mem_trim {c : Char} {cs : List Char} (h : c ∈ trim cs) : c ∈ cs := by
  obtain ⟨front, back, -, -, haround⟩ := exists_blank_around cs
  rw [haround]
  exact List.mem_append_left _ (List.mem_append_right _ h)

theorem trim_eq_nil_iff {cs : List Char} : trim cs = [] ↔ cs.all isBlank = true := by
  constructor
  · intro h
    obtain ⟨front, back, hfront, hback, hcs⟩ := exists_blank_around cs
    rw [hcs, h, List.append_nil, List.all_append, hfront, hback]
    rfl
  · intro h
    rw [trim, trimStart_of_blank h]
    rfl

/-- A text between white space is what is left, if it has none at its own ends. -/
theorem trim_between {front middle back : List Char} (hfront : front.all isBlank = true)
    (hback : back.all isBlank = true) (hne : middle ≠ []) (hstart : startsBlank middle = false)
    (hend : endsBlank middle = false) : trim (front ++ middle ++ back) = middle := by
  have hmiddle : trimStart (middle ++ back) = middle ++ back :=
    trimStart_eq_self (by rw [startsBlank_append back hne, hstart])
  rw [List.append_assoc, trim, trimStart_append _ hfront, hmiddle, trimEnd_append back hend,
    trimEnd_of_blank hback, List.append_nil]

/-! ## Behind a Text -/

/-- A text that ends in no white space ends in none either without a part in front. -/
theorem endsBlank_of_append {front rest : List Char} (h : endsBlank (front ++ rest) = false) :
    endsBlank rest = false := by
  by_cases hrest : rest = []
  · rw [hrest]
    rfl
  · rw [← endsBlank_append front hrest, h]

theorem trim_eq_trimStart {cs : List Char} (h : endsBlank cs = false) : trim cs = trimStart cs := by
  obtain ⟨blanks, hblanks⟩ : trimStart cs <:+ cs := List.dropWhile_suffix isBlank
  rw [← hblanks] at h
  exact trimEnd_eq_self (endsBlank_of_append h)

theorem eq_nil_of_trim_eq_nil {cs : List Char} (h : endsBlank cs = false) (htrim : trim cs = []) :
    cs = [] := by
  rw [← trimEnd_eq_self h, trimEnd_of_blank (trim_eq_nil_iff.mp htrim)]

end DocLint.Text
