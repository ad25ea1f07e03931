import Mathlib.Logic.Function.Iterate
import DocLint.Proofs.LeftmostMention

/-!
# Renaming Again and Again

A host that renames one mention at a time and looks again comes to an end, and to the text that renaming
all mentions at once gives, as long as both names are made of word characters: then no mention overlaps
another, and writing the other name makes no new mention and unmakes none. Main statements:
`mentionCount_renameMention`, by which each renaming leaves one mention less,
`renameAll_renameMention`, by which it does not change what renaming all mentions gives, and
`repeated_renames_converge`.
-/

namespace DocLint

/-! ## Names Made of Word Characters -/

/-- Whether a name is not empty and all its characters are word characters. -/
structure IsWordName (name : List Char) : Prop where
  ne_nil : name ≠ []
  isWord : ∀ c ∈ name, Text.isWord c = true

theorem isWord_at : Text.isWord '@' = false := by decide +kernel

namespace IsWordName

variable {name : List Char} (h : IsWordName name)

include h

theorem at_not_mem : '@' ∉ name := by
  intro hmem
  have hword := h.isWord '@' hmem
  rw [isWord_at] at hword
  cases hword

theorem endsInWord : EndsInWord name := by
  unfold EndsInWord
  rw [List.getLastD_eq_getLast?, List.getLast?_eq_some_getLast h.ne_nil]
  exact h.isWord _ (List.getLast_mem h.ne_nil)

theorem startsWithMention_iff {text : List Char} :
    startsWithMention name text = true ↔
      ∃ after, text = mentionOf name ++ after ∧ after.head?.any Text.isWord = false := by
  have hends := h.endsInWord
  unfold EndsInWord at hends
  simp only [DocLint.startsWithMention_iff, isWordEdge, hends, Bool.true_bne, Bool.not_eq_true']

/-- Where a name made of word characters stands and no word character follows, reading word
characters gives the name. -/
theorem takeWhile_append {rest : List Char} (hrest : rest.head?.any Text.isWord = false) :
    (name ++ rest).takeWhile Text.isWord = name := by
  rw [List.takeWhile_append_of_pos h.isWord]
  cases rest with
  | nil => simp
  | cons c rest =>
    have hc : Text.isWord c = false := by simpa using hrest
    simp [hc]

end IsWordName

/-! ## Counting Mentions -/

/-- The number of positions at which a name is mentioned in a text. Mentions could overlap as far as
this goes; for names made of word characters they do not. -/
def mentionCount (name text : List Char) : Nat :=
  (List.range text.length).countP fun position => decide (IsMentionAt name text position)

/-- A text has the mentions of what is behind its first character, and the one that starts there. -/
theorem mentionCount_cons (name : List Char) (c : Char) (rest : List Char) :
    mentionCount name (c :: rest) =
      mentionCount name rest + if startsWithMention name (c :: rest) then 1 else 0 := by
  unfold mentionCount
  rw [List.length_cons, List.range_succ_eq_map, List.countP_cons, List.countP_map]
  simp only [IsMentionAt, List.drop_zero, Bool.decide_eq_true]
  rfl

/-- Without mentions at any position there are none to count. -/
theorem mentionCount_eq_zero_iff {name text : List Char} :
    mentionCount name text = 0 ↔ ∀ position, ¬ IsMentionAt name text position := by
  unfold mentionCount
  rw [List.countP_eq_zero]
  simp only [List.mem_range, decide_eq_true_eq]
  constructor
  · intro h position
    rcases Nat.lt_or_ge position text.length with hlt | hge
    · exact h position hlt
    · -- Nothing stands behind the end of the text.
      unfold IsMentionAt
      rw [List.drop_eq_nil_of_le hge, startsWithMention_nil]
      exact Bool.false_ne_true
  · intro h position _
    exact h position

/-! ## Renaming All Mentions at Once -/

/-- Writes another name in all mentions of a name, where the first characters of the text belong to
a mention that has been rewritten. Whether a mention starts is asked of the text as it was. -/
def renameAllAfter (name other : List Char) : Nat → List Char → List Char
  | _, [] => []
  | passed + 1, _ :: rest => renameAllAfter name other passed rest
  | 0, c :: rest =>
    if startsWithMention name (c :: rest) then
      mentionOf other ++ renameAllAfter name other name.length rest
    else c :: renameAllAfter name other 0 rest

/-- Writes another name in all mentions of a name at once. -/
def renameAll (name other text : List Char) : List Char := renameAllAfter name other 0 text

theorem renameAll_cons_of_not {name : List Char} (other : List Char) {c : Char} {rest : List Char}
    (h : ¬ startsWithMention name (c :: rest) = true) :
    renameAll name other (c :: rest) = c :: renameAll name other rest := by
  simp only [renameAll, renameAllAfter, if_neg h]

/-- The rest of a mention that has been rewritten is passed over as a whole. -/
theorem renameAllAfter_length (name other passed rest : List Char) :
    renameAllAfter name other passed.length (passed ++ rest) = renameAll name other rest := by
  induction passed with
  | nil => rfl
  | cons c passed ih => simpa [renameAllAfter] using ih

/-- A mention is rewritten, and renaming goes on behind it. -/
theorem renameAll_mention {name : List Char} (other : List Char) {after : List Char}
    (h : startsWithMention name (mentionOf name ++ after) = true) :
    renameAll name other (mentionOf name ++ after) = mentionOf other ++ renameAll name other after := by
  have hpassed := renameAllAfter_length name other name after
  unfold mentionOf at h ⊢
  simp only [List.cons_append] at h ⊢
  simp only [renameAll, renameAllAfter, if_pos h, hpassed, mentionOf, List.cons_append]

/-! ## Parts without a Mention -/

/-- Whether no mention of a name starts in the front part of a text. A mention may end in the rest,
so the rest has a say. -/
def NoMentionWithin (name front rest : List Char) : Prop :=
  ∀ position < front.length, ¬ IsMentionAt name (front ++ rest) position

section

variable {name front rest : List Char}

theorem noMentionWithin_nil : NoMentionWithin name [] rest := by
  intro position hposition
  cases hposition

theorem noMentionWithin_cons_iff {c : Char} :
    NoMentionWithin name (c :: front) rest ↔
      ¬ startsWithMention name (c :: (front ++ rest)) = true ∧ NoMentionWithin name front rest := by
  unfold NoMentionWithin
  rw [List.length_cons, Nat.forall_lt_succ_left]
  rfl

theorem NoMentionWithin.append {back : List Char} (hfront : NoMentionWithin name front (back ++ rest))
    (hback : NoMentionWithin name back rest) : NoMentionWithin name (front ++ back) rest := by
  induction front with
  | nil => exact hback
  | cons c front ih =>
    rw [noMentionWithin_cons_iff] at hfront
    rw [List.cons_append, noMentionWithin_cons_iff, List.append_assoc]
    exact ⟨hfront.1, ih hfront.2⟩

theorem startsWithMention_cons_of_ne (name : List Char) {c : Char} (rest : List Char) (h : c ≠ '@') :
    ¬ startsWithMention name (c :: rest) = true := by
  intro hstart
  obtain ⟨after, heq, -⟩ := startsWithMention_iff.mp hstart
  exact h (List.cons.inj heq).1

theorem noMentionWithin_of_at_not_mem (h : '@' ∉ front) : NoMentionWithin name front rest := by
  induction front with
  | nil => exact noMentionWithin_nil
  | cons c front ih =>
    rw [List.mem_cons, not_or] at h
    rw [noMentionWithin_cons_iff]
    exact ⟨startsWithMention_cons_of_ne name _ (Ne.symm h.1), ih h.2⟩

/-- The mentions of a text are those of its rest if none starts in its front part. -/
theorem NoMentionWithin.mentionCount_eq (h : NoMentionWithin name front rest) :
    mentionCount name (front ++ rest) = mentionCount name rest := by
  induction front with
  | nil => rfl
  | cons c front ih =>
    rw [noMentionWithin_cons_iff] at h
    rw [List.cons_append, mentionCount_cons, if_neg h.1, ih h.2, Nat.add_zero]

/-- Renaming all mentions copies a front part in which no mention starts. -/
theorem NoMentionWithin.renameAll_eq (h : NoMentionWithin name front rest) (other : List Char) :
    renameAll name other (front ++ rest) = front ++ renameAll name other rest := by
  induction front with
  | nil => rfl
  | cons c front ih =>
    rw [noMentionWithin_cons_iff] at h
    rw [List.cons_append, renameAll_cons_of_not other h.1, ih h.2, List.cons_append]

end

/-! ## The Two Sides of a Rewritten Mention -/

/-- Whether a name without an at sign stands at the start of a text and ends there does not depend
on what follows an at sign of the text. -/
theorem endsName_before_at {name : List Char} (h : '@' ∉ name) (last : Char)
    (front first second : List Char) :
    (name.isPrefixOf (front ++ '@' :: first) &&
        isWordEdge last ((front ++ '@' :: first).drop name.length).head?) =
      (name.isPrefixOf (front ++ '@' :: second) &&
        isWordEdge last ((front ++ '@' :: second).drop name.length).head?) := by
  induction name generalizing front with
  | nil => cases front <;> rfl
  | cons c name ih =>
    rw [List.mem_cons, not_or] at h
    cases front with
    | nil =>
      -- The name would have to go on with the at sign.
      have hc : (c == '@') = false := beq_eq_false_iff_ne.mpr (Ne.symm h.1)
      simp [List.isPrefixOf, hc]
    | cons d front =>
      have hrest := ih h.2 front
      simp only [List.cons_append, List.isPrefixOf, List.length_cons, List.drop_succ_cons,
        Bool.and_assoc, hrest]

/-- Whether a mention starts in front of an at sign does not depend on what follows the at sign. -/
theorem noMentionWithin_before_at {name : List Char} (hname : '@' ∉ name) {front first : List Char}
    (h : NoMentionWithin name front ('@' :: first)) (second : List Char) :
    NoMentionWithin name front ('@' :: second) := by
  -- Position by position: a mention that started there would end before the at sign, or go over it.
  induction front with
  | nil => exact noMentionWithin_nil
  | cons c front ih =>
    rw [noMentionWithin_cons_iff] at h ⊢
    refine ⟨?_, ih h.2⟩
    have hsame := endsName_before_at hname (name.getLastD '@') front first second
    have hstart := h.1
    simp only [startsWithMention, mentionOf, List.isPrefixOf, List.length_cons, List.drop_succ_cons,
      Bool.and_assoc, hsame] at hstart ⊢
    exact hstart

/-- A name is not mentioned where another one stands that no word character follows. -/
theorem not_startsWithMention_other {name other after : List Char} (hname : IsWordName name)
    (hother : IsWordName other) (hne : name ≠ other) (hafter : after.head?.any Text.isWord = false) :
    ¬ startsWithMention name (mentionOf other ++ after) = true := by
  intro hstart
  obtain ⟨rest, heq, hrest⟩ := hname.startsWithMention_iff.mp hstart
  have hsame : other ++ after = name ++ rest := (List.cons.inj heq).2
  -- Both names are what reading word characters gives behind the at sign.
  apply hne
  calc name = (name ++ rest).takeWhile Text.isWord := (hname.takeWhile_append hrest).symm
    _ = (other ++ after).takeWhile Text.isWord := by rw [hsame]
    _ = other := hother.takeWhile_append hafter

/-! ## One Renaming -/

section

variable {name other text : List Char} (hname : IsWordName name) (hother : IsWordName other)
  (hne : name ≠ other)

include hname hother hne

/-- A text with a mention falls apart at the first one. Renaming writes the other name there, and no
mention starts up to its end. -/
theorem exists_rewritten (h : 0 < mentionCount name text) :
    ∃ before after, text = before ++ (mentionOf name ++ after) ∧
      NoMentionWithin name before (mentionOf name ++ after) ∧
      startsWithMention name (mentionOf name ++ after) = true ∧
      renameMention name other text = before ++ mentionOf other ++ after ∧
      NoMentionWithin name (before ++ mentionOf other) after := by
  rcases exists_first_mention name text with hnone | ⟨before, after, rfl, hmention, hfirst⟩
  · rw [mentionCount_eq_zero_iff.mpr hnone] at h
    cases h
  · have hrename := renameMention_first other hmention hfirst
    unfold IsMentionAt at hmention
    rw [List.append_assoc] at hfirst hmention
    rw [List.drop_left] at hmention
    refine ⟨before, after, List.append_assoc .., hfirst, hmention, hrename, ?_⟩
    -- The name ends before what follows, which therefore starts with no word character.
    have hafter : after.head?.any Text.isWord = false := by
      obtain ⟨rest, heq, hrest⟩ := hname.startsWithMention_iff.mp hmention
      rw [List.append_cancel_left heq]
      exact hrest
    -- What is written there is the other name, which is no mention and holds no at sign.
    have hwritten : NoMentionWithin name (mentionOf other) after :=
      noMentionWithin_cons_iff.mpr ⟨not_startsWithMention_other hname hother hne hafter,
        noMentionWithin_of_at_not_mem hother.at_not_mem⟩
    exact (noMentionWithin_before_at hname.at_not_mem hfirst _).append hwritten

/-- Each renaming leaves one mention less. -/
theorem mentionCount_renameMention (h : 0 < mentionCount name text) :
    mentionCount name (renameMention name other text) + 1 = mentionCount name text := by
  obtain ⟨before, after, htext, hbefore, hmention, hrename, hwritten⟩ :=
    exists_rewritten hname hother hne h
  -- Behind its at sign the mention itself holds no other one.
  have hinside : NoMentionWithin name name after := noMentionWithin_of_at_not_mem hname.at_not_mem
  calc mentionCount name (renameMention name other text) + 1
      = mentionCount name after + 1 := by rw [hrename, hwritten.mentionCount_eq]
    _ = mentionCount name (mentionOf name ++ after) := by
        rw [← hinside.mentionCount_eq]
        simp only [mentionOf, List.cons_append] at hmention ⊢
        rw [mentionCount_cons, if_pos hmention]
    _ = mentionCount name text := by rw [htext, hbefore.mentionCount_eq]

/-- Renaming one mention does not change what renaming all mentions gives. -/
theorem renameAll_renameMention (h : 0 < mentionCount name text) :
    renameAll name other (renameMention name other text) = renameAll name other text := by
  obtain ⟨before, after, htext, hbefore, hmention, hrename, hwritten⟩ :=
    exists_rewritten hname hother hne h
  rw [hrename, hwritten.renameAll_eq, htext, hbefore.renameAll_eq, renameAll_mention other hmention,
    List.append_assoc]

end

/-! ## Many Renamings -/

/-- Renaming leaves a text alone in which the name is not mentioned, and so does renaming all
mentions. -/
theorem renamed_eq_self_of_mentionCount {name text : List Char} (other : List Char)
    (h : mentionCount name text = 0) :
    renameMention name other text = text ∧ renameAll name other text = text := by
  have hnone := mentionCount_eq_zero_iff.mp h
  refine ⟨renameMention_eq_self other hnone, ?_⟩
  have hwithin : NoMentionWithin name text [] := by
    intro position _
    rw [List.append_nil]
    exact hnone position
  simpa [renameAll, renameAllAfter] using hwithin.renameAll_eq other

/-- Renaming as many times as the name is mentioned renames all mentions, and none is left. -/
theorem iterate_renameMention {name other : List Char} (hname : IsWordName name)
    (hother : IsWordName other) (hne : name ≠ other) (text : List Char) :
    (renameMention name other)^[mentionCount name text] text = renameAll name other text ∧
      mentionCount name (renameAll name other text) = 0 := by
  -- The number of mentions is a variable for the induction, since it belongs to a changing text.
  generalize hcount : mentionCount name text = count
  induction count generalizing text with
  | zero =>
    rw [(renamed_eq_self_of_mentionCount other hcount).2]
    exact ⟨rfl, hcount⟩
  | succ count ih =>
    -- One renaming leaves one mention less, and a text that all renamings lead to the same.
    have hpos : 0 < mentionCount name text := by omega
    have hstep := mentionCount_renameMention hname hother hne hpos
    rw [Function.iterate_succ_apply, ← renameAll_renameMention hname hother hne hpos]
    exact ih (renameMention name other text) (by omega)

/-! ## Texts -/

instance (name text : String) (position : Nat) : Decidable (IsOccurrence name text position) :=
  decidable_of_iff _ isOccurrence_iff.symm

/-- The number of whole-word occurrences of a tag name in a text. -/
def occurrenceCount (text name : String) : Nat :=
  (List.range text.length).countP fun position => decide (IsOccurrence name text position)

/-- Writes another tag name in all mentions of a tag name in a text at once. -/
def replaceEverywhere (text name other : String) : String :=
  String.ofList (renameAll name.toList other.toList text.toList)

theorem occurrenceCount_eq (text name : String) :
    occurrenceCount text name = mentionCount name.toList text.toList := by
  unfold occurrenceCount mentionCount
  rw [String.length_toList]
  apply List.countP_congr
  intro position _
  simp only [decide_eq_true_eq]
  exact isOccurrence_iff

theorem toList_iterate_replaceTagName (name other text : String) (count : Nat) :
    ((fun text => replaceTagName text name other)^[count] text).toList =
      (renameMention name.toList other.toList)^[count] text.toList := by
  have hstep : Function.Semiconj String.toList (fun text => replaceTagName text name other)
      (renameMention name.toList other.toList) := by
    intro text
    exact String.toList_ofList
  exact hstep.iterate_right count text

/-- **Renaming again and again comes to renaming everywhere**, for two names made of word
characters: each renaming leaves one occurrence less; after as many as there are occurrences, every
occurrence of the original text is rewritten and none is left; and from then on nothing changes. -/
theorem repeated_renames_converge (name other : String) (hname : IsWordName name.toList)
    (hother : IsWordName other.toList) (hne : name ≠ other) (text : String) :
    let rename := fun text => replaceTagName text name other
    (0 < occurrenceCount text name → occurrenceCount (rename text) name + 1 = occurrenceCount text name) ∧
      rename^[occurrenceCount text name] text = replaceEverywhere text name other ∧
      occurrenceCount (replaceEverywhere text name other) name = 0 ∧
      ∀ further, rename^[further] (replaceEverywhere text name other) = replaceEverywhere text name other := by
  intro rename
  have hlists : name.toList ≠ other.toList := mt String.toList_inj.mp hne
  obtain ⟨hall, hnone⟩ := iterate_renameMention hname hother hlists text.toList
  refine ⟨?_, ?_, ?_, ?_⟩
  · -- One renaming takes one mention away and makes none.
    intro h
    rw [occurrenceCount_eq] at h ⊢
    rw [occurrenceCount_eq]
    have hstep := mentionCount_renameMention hname hother hlists h
    simpa [rename, replaceTagName] using hstep
  · rw [← String.toList_inj, toList_iterate_replaceTagName, occurrenceCount_eq, hall]
    simp [replaceEverywhere]
  · rw [occurrenceCount_eq, replaceEverywhere, String.toList_ofList, hnone]
  · -- Where no mention is left, the text is a fixed point.
    intro further
    apply Function.iterate_fixed
    have hfixed := (renamed_eq_self_of_mentionCount other.toList hnone).1
    simp only [rename, replaceTagName, replaceEverywhere, String.toList_ofList, hfixed]

/-- Adjacent mentions are renamed one after the other, also where the other name starts with the
name and the text has that one already. -/
theorem repeated_renames_longer_name :
    let text := "@arg@arg or @args, x@arg"
    let renamed := "@args@args or @args, x@args"
    IsWordName "arg".toList ∧ IsWordName "args".toList ∧ "arg" ≠ "args" ∧ occurrenceCount text "arg" = 3 ∧
      (fun text => replaceTagName text "arg" "args")^[3] text = renamed ∧
      occurrenceCount renamed "arg" = 0 := by
  intro text renamed
  have hname : IsWordName "arg".toList := ⟨by decide, List.all_eq_true.mp (by decide +kernel)⟩
  have hother : IsWordName "args".toList := ⟨by decide, List.all_eq_true.mp (by decide +kernel)⟩
  have hne : "arg" ≠ "args" := by decide
  have hcount : occurrenceCount text "arg" = 3 := by decide +kernel
  have hrenamed : replaceEverywhere text "arg" "args" = renamed := by decide +kernel
  obtain ⟨-, hall, hnone, -⟩ := repeated_renames_converge "arg" "args" hname hother hne text
  rw [hcount, hrenamed] at hall
  rw [hrenamed] at hnone
  exact ⟨hname, hother, hne, hcount, hall, hnone⟩

end DocLint
