import DocLint.Proofs.LintGrammar

/-!
# Lint Lines Written Again

A line that was read can be written again from the finding that it states. The numbers then lose their leading
zeros and their script, and the white space around the parts shrinks to one blank. Main statements:
`HasEarlierPlace.of_other_digits`, by which the digits of a place have no say in whether a path seems to end
earlier, and `written_again_reads_back`, by which the line can be written and states the same finding. No number
gets longer on the way, so limits that allow the first reading allow the writing and the second reading too.
-/

namespace DocLint

open Text Lint

/-! ## Places with Other Digits -/

/-- A text up to its first colon either fits into what stands before another colon, or is all of
it. -/
theorem append_colon_isPrefix_cases {digits rest front behind : List Char} (hdigits : ':' ∉ digits)
    (h : digits ++ ':' :: rest <+: front ++ ':' :: behind) :
    front = digits ∧ rest <+: behind ∨
      ∃ middle, front = digits ++ ':' :: middle ∧ rest <+: middle ++ ':' :: behind := by
  -- Character by character: neither text is past its colon before the other has begun.
  induction digits generalizing front with
  | nil =>
    cases front with
    | nil => exact Or.inl ⟨rfl, (List.cons_prefix_cons.mp h).2⟩
    | cons c middle =>
      obtain ⟨rfl, hrest⟩ := List.cons_prefix_cons.mp h
      exact Or.inr ⟨middle, rfl, hrest⟩
  | cons d digits ih =>
    rw [List.mem_cons, not_or] at hdigits
    cases front with
    | nil => exact absurd (List.cons_prefix_cons.mp h).1.symm hdigits.1
    | cons c front =>
      obtain ⟨rfl, hfront⟩ := List.cons_prefix_cons.mp h
      rcases ih hdigits.2 hfront with ⟨rfl, hrest⟩ | ⟨middle, rfl, hrest⟩
      · exact Or.inl ⟨rfl, hrest⟩
      · exact Or.inr ⟨middle, rfl, hrest⟩

/-- An earlier place stays if the digits of the path's own place change: it takes in one number of
that place at most, and any number will do. -/
theorem HasEarlierPlace.of_other_digits {path line column otherLine otherColumn : List Char}
    (h : HasEarlierPlace path (placeText line column)) (hotherLine : IsDigits otherLine) :
    HasEarlierPlace path (placeText otherLine otherColumn) := by
  obtain ⟨earlier, first, second, hne, ⟨extra, rfl⟩, hproper, hfirst, hsecond, hplace⟩ := h
  rw [List.append_assoc, List.prefix_append_right_inj] at hplace
  cases extra with
  | nil => exact absurd (List.append_nil earlier).symm hproper
  | cons c middle =>
    simp only [placeText, List.cons_append, List.append_assoc, List.cons_prefix_cons] at hplace
    obtain ⟨rfl, hplace⟩ := hplace
    rcases append_colon_isPrefix_cases (hfirst.not_mem isDigit_colon) hplace with
      ⟨rfl, -⟩ | ⟨middle, rfl, hsecondIn⟩
    · -- The path ends behind the first number, so its own line is the second one.
      refine ⟨earlier, middle, otherLine, hne, List.prefix_append _ _, hproper, hfirst, hotherLine, ?_⟩
      rw [List.append_assoc, List.prefix_append_right_inj]
      exact ⟨otherColumn ++ [':'], by simp [placeText]⟩
    · -- The first number lies inside of the path, and so does the second or its end is that of the
      -- path.
      refine ⟨earlier, first, second, hne, List.prefix_append _ _, hproper, hfirst, hsecond, ?_⟩
      rw [List.append_assoc, List.prefix_append_right_inj]
      rcases append_colon_isPrefix_cases (hsecond.not_mem isDigit_colon) hsecondIn with
        ⟨rfl, -⟩ | ⟨last, rfl, -⟩
      · exact ⟨otherLine ++ ':' :: otherColumn ++ [':'], by simp [placeText]⟩
      · exact ⟨last ++ placeText otherLine otherColumn, by simp [placeText]⟩

/-- In a text on one line the shortest path stays the shortest if its place is written with other
digits and the text behind it changes. -/
theorem Lint.IsShortestPath.of_other_digits {path line column rest otherLine otherColumn other : List Char}
    {found otherFound : (List Char × List Char) × List Char}
    (h : IsShortestPath (path ++ placeText line column ++ rest) path found) (hline : IsDigits line)
    (hcolumn : IsDigits column) (hotherLine : IsDigits otherLine) (hotherColumn : IsDigits otherColumn)
    (honeLine : '\n' ∉ path ++ placeText line column ++ rest)
    (hotherOneLine : '\n' ∉ path ++ placeText otherLine otherColumn ++ other)
    (hread : readPlace? (placeText otherLine otherColumn ++ other) = some otherFound) :
    IsShortestPath (path ++ placeText otherLine otherColumn ++ other) path otherFound := by
  -- That no shorter path does is a matter of the path and the colons of its place alone.
  have hcut : ¬ HasEarlierPlace path (placeText line column) :=
    (shorter_reads_none_iff_of_one_line hline hcolumn honeLine).mp h.shorter_reads_none
  refine ⟨h.path_ne_nil, h.path_one_line, ⟨_, List.append_assoc _ _ _, hread⟩, ?_⟩
  rw [shorter_reads_none_iff_of_one_line hotherLine hotherColumn hotherOneLine]
  exact fun hearlier => hcut (hearlier.of_other_digits hline)

/-! ## Code and Message Written Again -/

/-- The code and the message, with a blank between them, are the text that they were split from,
apart from a blank at the end. -/
theorem trimEnd_splitCode {content : List Char} (h : endsBlank content = false) :
    trimEnd ((splitCode content).1 ++ ' ' :: (splitCode content).2) = content := by
  obtain ⟨-, hcontent | ⟨hcode, hmessage⟩⟩ := isCodeAndMessage_splitCode content
  · rw [← hcontent, trimEnd_eq_self h]
  · -- All of the text is code, and the blank behind it goes again.
    rw [← hcode, hmessage, trimEnd_append _ h]
    exact List.append_nil content

/-! ## Findings and Their Parts -/

/-- Whether a finding is what a text states that has a given place and a given content behind it.
How long the numbers of the place are is left out, so nothing here depends on the host. -/
structure Lint.IsFoundIn (finding : Finding) (cs line column content : List Char) : Prop where
  shortest : IsShortestPath cs finding.path.toList ((line, column), content)
  content_ne_nil : content ≠ []
  line_eq : finding.line = digitsValue line
  column_eq : finding.column = digitsValue column
  splitCode_eq : splitCode content = (finding.code.toList, finding.message.toList)
  severity_eq : finding.severity = .warning

/-- A line states a finding exactly if the finding is found in it and the host reads its numbers. -/
theorem Lint.readFinding_eq_ok_some_iff_isFoundIn {limits : Limits} {text : String} {finding : Finding} :
    readFinding limits text = .ok (some finding) ↔
      ∃ line column content, IsFoundIn finding (trim text.toList) line column content ∧
        line.length ≤ limits.digits ∧ column.length ≤ limits.digits := by
  rw [readFinding_eq_ok_some_iff]
  constructor
  · rintro ⟨path, line, column, content, hshortest, hcontent, hshort, rfl⟩
    refine ⟨line, column, content, ⟨?_, hcontent, rfl, rfl, ?_, rfl⟩, hshort⟩
    · simpa only [findingOf, String.toList_ofList] using hshortest
    · simp only [findingOf, String.toList_ofList]
  · rintro ⟨line, column, content, h, hshort⟩
    refine ⟨_, line, column, content, h.shortest, h.content_ne_nil, hshort, ?_⟩
    simp only [findingOf, h.splitCode_eq, String.ofList_toList, ← h.line_eq, ← h.column_eq, ← h.severity_eq]

/-! ## The Line Written Again -/

namespace Lint.IsFoundIn

variable {finding : Finding} {cs line column content : List Char}
  (h : IsFoundIn finding cs line column content)

include h

theorem line_nonneg : 0 ≤ finding.line := by
  rw [h.line_eq]
  exact Int.natCast_nonneg _

theorem column_nonneg : 0 ≤ finding.column := by
  rw [h.column_eq]
  exact Int.natCast_nonneg _

theorem isDigits_line : IsDigits line := by
  obtain ⟨_, -, hread⟩ := h.shortest.reads
  obtain ⟨_, hline, -⟩ := readPlace?_eq_some_iff.mp hread
  exact hline

theorem isDigits_column : IsDigits column := by
  obtain ⟨_, -, hread⟩ := h.shortest.reads
  obtain ⟨_, -, hcolumn, -⟩ := readPlace?_eq_some_iff.mp hread
  exact hcolumn

/-- A line written from what was read is trimmed at most behind its code, where a blank is written
even if no message follows. -/
theorem trim_text (hstart : startsBlank finding.path.toList = false)
    (hend : endsBlank content = false) :
    trim finding.text.toList = finding.path.toList ++ finding.placeChars ++ ' ' :: content := by
  have hpath := h.shortest.path_ne_nil
  have hplace : endsBlank (finding.path.toList ++ finding.placeChars) = false := by
    rw [Finding.placeChars, placeText, ← List.append_assoc, endsBlank_append _ (List.cons_ne_nil _ _)]
    decide
  have hwritten : trimEnd (finding.code.toList ++ ' ' :: finding.message.toList) = content := by
    rw [← trimEnd_splitCode hend, h.splitCode_eq]
  rw [trim, trimStart_eq_self, Finding.toList_text, trimEnd_append _ hplace, trimEnd_cons, hwritten,
    if_neg]
  · exact fun hempty => h.content_ne_nil hempty.1
  · rw [Finding.toList_text, List.append_assoc, startsBlank_append _ hpath, hstart]

/-- Behind the path of a line written from what was read, the numbers as they are written and the
same content are read. -/
theorem readPlace?_placeChars (hstart : startsBlank content = false) (honeLine : '\n' ∉ content) :
    readPlace? (finding.placeChars ++ ' ' :: content) =
      some (((integerText finding.line).toList, (integerText finding.column).toList), content) := by
  have hcontent : trimStart (' ' :: content) = content := by
    rw [trimStart_cons_blank _ (by decide), trimStart_eq_self hstart]
  rw [Finding.placeChars, readPlace?_placeText _ (isDigits_integerText h.line_nonneg)
    (isDigits_integerText h.column_nonneg), hcontent, if_neg honeLine]

/-- What was found in a trimmed text on one line is found in the line written from it. -/
theorem text (hstart : startsBlank cs = false) (hend : endsBlank cs = false) (honeLine : '\n' ∉ cs) :
    IsFoundIn finding (trim finding.text.toList) (integerText finding.line).toList
      (integerText finding.column).toList content := by
  obtain ⟨behind, hcs, hread⟩ := h.shortest.reads
  obtain ⟨rest, hline, hcolumn, rfl, rfl, hcontentLine⟩ := readPlace?_eq_some_iff.mp hread
  rw [← List.append_assoc] at hcs
  subst hcs
  -- White space is left at neither end, so the path starts and the content ends without any.
  have hpathStart : startsBlank finding.path.toList = false := by
    rw [← startsBlank_append _ h.shortest.path_ne_nil, ← List.append_assoc, hstart]
  have hcontentEnd : endsBlank (trimStart rest) = false := by
    rw [← trim_eq_trimStart (endsBlank_of_append hend), endsBlank_trim]
  have hwrittenLine := isDigits_integerText h.line_nonneg
  have hwrittenColumn := isDigits_integerText h.column_nonneg
  have hwrittenOneLine : '\n' ∉ finding.path.toList ++ finding.placeChars ++ ' ' :: trimStart rest := by
    have hplace := newline_not_mem_placeText hwrittenLine hwrittenColumn
    rw [List.mem_append, List.mem_append, List.mem_cons, not_or, not_or, not_or]
    exact ⟨⟨h.shortest.path_one_line, hplace⟩, by decide, hcontentLine⟩
  have hplace := h.readPlace?_placeChars (startsBlank_trimStart rest) hcontentLine
  refine ⟨?_, h.content_ne_nil, (digitsValue_integerText h.line_nonneg).symm,
    (digitsValue_integerText h.column_nonneg).symm, h.splitCode_eq, h.severity_eq⟩
  rw [h.trim_text hpathStart hcontentEnd]
  exact h.shortest.of_other_digits hline hcolumn hwrittenLine hwrittenColumn honeLine hwrittenOneLine hplace

/-- A host that reads the place of a finding also writes it: a number has no more digits written
than it had when it was read. -/
theorem allowsInteger {limits : Limits} (hline : line.length ≤ limits.digits)
    (hcolumn : column.length ≤ limits.digits) :
    limits.allowsInteger finding.line = true ∧ limits.allowsInteger finding.column = true := by
  rw [h.line_eq, h.column_eq]
  exact ⟨Limits.allowsInteger_digitsValue h.isDigits_line hline,
    Limits.allowsInteger_digitsValue h.isDigits_column hcolumn⟩

end Lint.IsFoundIn

/-- A finding is written as its text if the host writes its numbers. -/
theorem Finding.write_eq {limits : Limits} {finding : Finding}
    (hline : limits.allowsInteger finding.line = true) (hcolumn : limits.allowsInteger finding.column = true) :
    finding.write limits = .ok finding.text := by
  rw [write, Limits.writeInteger_eq_ok_iff.mpr ⟨hline, rfl⟩, Limits.writeInteger_eq_ok_iff.mpr ⟨hcolumn, rfl⟩]
  rfl

/-- **Lines that were read can be written again**: if a line, trimmed, is one line of text and
states a finding, then a line can be written from that finding, and it states the same finding. -/
theorem written_again_reads_back {limits : Limits} {text : String} {finding : Finding}
    (honeLine : '\n' ∉ trim text.toList) (hread : readFinding limits text = .ok (some finding)) :
    finding.write limits = .ok finding.text ∧ readFinding limits finding.text = .ok (some finding) := by
  obtain ⟨line, column, content, h, hlineShort, hcolumnShort⟩ :=
    readFinding_eq_ok_some_iff_isFoundIn.mp hread
  obtain ⟨hline, hcolumn⟩ := h.allowsInteger hlineShort hcolumnShort
  -- What was found in the line is found in the new one, whose numbers are short enough as well.
  have hwritten := h.text (startsBlank_trim text.toList) (endsBlank_trim text.toList) honeLine
  refine ⟨Finding.write_eq hline hcolumn, ?_⟩
  refine readFinding_eq_ok_some_iff_isFoundIn.mpr ⟨_, _, content, hwritten, ?_, ?_⟩
  · exact (Limits.allowsInteger_iff h.line_nonneg).mp hline
  · exact (Limits.allowsInteger_iff h.column_nonneg).mp hcolumn

/-- Digits of another script, leading zeros and the white space around go; of two blanks behind the
code the second belongs to the message. -/
theorem written_again_reads_back_other_script :
    let text := "\t a:1:b:٠٣:007:   E\tx  two words "
    let finding : Finding :=
      { path := "a:1:b", line := 3, column := 7, code := "E\tx", message := " two words" }
    '\n' ∉ trim text.toList ∧ readFinding .standard text = .ok (some finding) ∧
      finding.write .standard = .ok "a:1:b:3:7: E\tx  two words" ∧
      readFinding .standard "a:1:b:3:7: E\tx  two words" = .ok (some finding) := by
  intro text finding
  have honeLine : '\n' ∉ trim text.toList := by decide +kernel
  have hsplit : splitPlace? (trim text.toList) =
      some ("a:1:b".toList, (['٠', '٣'], ['0', '0', '7']), "E\tx  two words".toList) := by decide +kernel
  have hread : readFinding .standard text = .ok (some finding) := by
    rw [readFinding_of_isShortestPath (splitPlace?_eq_some_iff.mp hsplit) (by decide), if_pos (by decide)]
    rfl
  have htext : finding.text = "a:1:b:3:7: E\tx  two words" := by decide +kernel
  rw [← htext]
  exact ⟨honeLine, hread, written_again_reads_back honeLine hread⟩

end DocLint
