import DocLint.Proofs.PlaceReading

/-!
# Lint Lines Read Back

A lint line is written without quoting, so not every line reads back as the finding it was written from.
Main statement: `lines_readBack_iff`, by which the domain `ReadsBack` holds exactly the lines that do: the
path must not look as if it ended earlier or were trimmed, and the message must stand on one line and not
end in white space.
-/

namespace DocLint

open Text Lint

/-! ## The Domain -/

/-- Whether a place is written inside a path, or across its end, so that the path seems to end
there. The place of the path itself may give the last of the colons and digits. -/
def HasEarlierPlace (path place : List Char) : Prop :=
  ∃ earlier first second, earlier ≠ [] ∧ earlier <+: path ∧ earlier ≠ path ∧ IsDigits first ∧
    IsDigits second ∧ earlier ++ placeText first second <+: path ++ place

/-- The findings whose lines read back. Each condition excludes one way in which a line may be read
otherwise; the code needs none, since all codes are words. -/
structure ReadsBack (path : String) (line column : Int) (message : String) : Prop where
  /-- A line that starts with the colon of a place has no path to read. -/
  path_ne_nil : path.toList ≠ []
  /-- White space at the start of the line is taken off before it is read. -/
  path_start : startsBlank path.toList = false
  /-- A path is read up to the end of a line at most. -/
  path_one_line : '\n' ∉ path.toList
  /-- Else the path would be read as ending there, for the shortest path is taken. -/
  path_ends_first : ¬ HasEarlierPlace path.toList
    (placeText (integerText line).toList (integerText column).toList)
  /-- Else nothing would be read, or the message would lose a line feed at its end. -/
  message_one_line : '\n' ∉ message.toList
  /-- White space at the end of the line is taken off too. -/
  message_end : endsBlank message.toList = false

/-- A finding agrees with another in all but how grave it is, which a line does not say. -/
structure Finding.Agrees (found stated : Finding) : Prop where
  path : found.path = stated.path
  line : found.line = stated.line
  column : found.column = stated.column
  code : found.code = stated.code
  message : found.message = stated.message

/-! ## Colons -/

/-- Digits hold no colon, so a place holds the three that are written around them. -/
theorem count_colon_placeText {first second : List Char} (hfirst : IsDigits first)
    (hsecond : IsDigits second) : (placeText first second).count ':' = 3 := by
  have h₁ : first.count ':' = 0 := List.count_eq_zero.mpr (hfirst.not_mem isDigit_colon)
  have h₂ : second.count ':' = 0 := List.count_eq_zero.mpr (hsecond.not_mem isDigit_colon)
  simp [placeText, h₁, h₂]

/-- A place does not fit into a place with something in front, since it would hold four colons
then. -/
theorem not_append_placeText_isPrefix {extra line column first second : List Char}
    (hextra : extra ≠ []) (hline : IsDigits line) (hcolumn : IsDigits column)
    (hfirst : IsDigits first) (hsecond : IsDigits second) :
    ¬ extra ++ placeText line column <+: placeText first second := by
  intro h
  have hcount := h.sublist.count_le ':'
  obtain ⟨c, extra, rfl⟩ := List.exists_cons_of_ne_nil hextra
  obtain ⟨rest, hrest⟩ := h
  have hc : c = ':' := by
    simp only [placeText, List.cons_append, List.cons.injEq] at hrest
    exact hrest.1
  rw [List.count_append, count_colon_placeText hline hcolumn, count_colon_placeText hfirst hsecond,
    hc, List.count_cons_self] at hcount
  omega

/-- A place after a shorter text than the path lies inside the path and its own place, so what
stands behind that has no say. -/
theorem hasEarlierPlace_iff {path line column : List Char} (rest : List Char)
    (hline : IsDigits line) (hcolumn : IsDigits column) :
    HasEarlierPlace path (placeText line column) ↔
      ∃ shorter after, path ++ placeText line column ++ rest = shorter ++ after ∧ shorter ≠ [] ∧
        shorter.length < path.length ∧ StartsWithPlace after := by
  constructor
  · -- A place that is written there is read there, whatever follows it.
    rintro ⟨earlier, first, second, hne, hfront, hproper, hfirst, hsecond, behind, hbehind⟩
    refine ⟨earlier, placeText first second ++ (behind ++ rest), ?_, hne, ?_,
      first, second, hfirst, hsecond, List.prefix_append _ _⟩
    · rw [← hbehind]
      simp only [List.append_assoc]
    · exact lt_of_le_of_ne hfront.length_le fun heq => hproper (hfront.eq_of_length heq)
  · rintro ⟨shorter, after, hsplit, hne, hlength, first, second, hfirst, hsecond, behind, rfl⟩
    have hpath : path <+: shorter ++ (placeText first second ++ behind) :=
      ⟨placeText line column ++ rest, by rw [← hsplit, List.append_assoc]⟩
    obtain ⟨extra, rfl⟩ : shorter <+: path :=
      List.prefix_of_prefix_length_le (List.prefix_append _ _) hpath hlength.le
    have hextra : extra ≠ [] := by
      rintro rfl
      simp at hlength
    refine ⟨shorter, first, second, hne, List.prefix_append _ _, by simpa using hextra.symm,
      hfirst, hsecond, ?_⟩
    -- Both places start at or after `shorter`, and the one that is the path's own ends later.
    have hbehind : placeText first second <+: extra ++ placeText line column ++ rest :=
      ⟨behind, by simpa only [List.append_assoc, List.append_cancel_left_eq] using hsplit.symm⟩
    rcases List.prefix_or_prefix_of_prefix hbehind (List.prefix_append _ rest) with hin | hout
    · rw [List.append_assoc]
      exact (List.prefix_append_right_inj shorter).mpr hin
    · exact absurd hout (not_append_placeText_isPrefix hextra hline hcolumn hfirst hsecond)

/-- In a text on one line, no place is read after a shorter text than the path exactly if the path
does not seem to end earlier. -/
theorem shorter_reads_none_iff_of_one_line {path line column rest : List Char} (hline : IsDigits line)
    (hcolumn : IsDigits column) (honeLine : '\n' ∉ path ++ placeText line column ++ rest) :
    (∀ shorter after, path ++ placeText line column ++ rest = shorter ++ after → shorter ≠ [] →
      shorter.length < path.length → readPlace? after = none) ↔
      ¬ HasEarlierPlace path (placeText line column) := by
  rw [hasEarlierPlace_iff rest hline hcolumn]
  -- Nothing in the text is a line break, so a place is read wherever one is written.
  have hafter : ∀ {shorter after : List Char},
      path ++ placeText line column ++ rest = shorter ++ after → '\n' ∉ after := by
    intro shorter after hsplit hmem
    exact honeLine (hsplit ▸ List.mem_append_right shorter hmem)
  constructor
  · rintro hnone ⟨shorter, after, hsplit, hne, hlength, hplace⟩
    exact (readPlace?_eq_none_iff (hafter hsplit)).mp (hnone shorter after hsplit hne hlength) hplace
  · intro hcut shorter after hsplit hne hlength
    rw [readPlace?_eq_none_iff (hafter hsplit)]
    intro hplace
    exact hcut ⟨shorter, after, hsplit, hne, hlength, hplace⟩

/-- A path without a colon is not cut. -/
theorem not_hasEarlierPlace_of_not_mem {path place : List Char} (h : ':' ∉ path) :
    ¬ HasEarlierPlace path place := by
  rintro ⟨earlier, first, second, -, ⟨extra, rfl⟩, hproper, -, -, behind, hbehind⟩
  cases extra with
  | nil => exact hproper (List.append_nil earlier).symm
  | cons c extra =>
    -- The first character behind the earlier end is still of the path, and is a colon.
    apply h
    simp only [placeText, List.append_assoc, List.cons_append, List.append_cancel_left_eq,
      List.cons.injEq] at hbehind
    rw [← hbehind.1]
    exact List.mem_append_right _ List.mem_cons_self

/-! ## A Finding and Its Line -/

/-- A code is not empty and holds no white space. -/
structure IsCode (code : List Char) : Prop where
  ne_nil : code ≠ []
  no_blank : code.any isBlank = false

theorem isCode_code (issue : Issue) : IsCode issue.code.toList := by
  cases issue <;> exact ⟨by decide, by decide⟩

theorem IsCode.not_mem {code : List Char} (h : IsCode code) {c : Char} (hc : isBlank c = true) :
    c ∉ code := by
  intro hmem
  exact List.any_eq_false.mp h.no_blank c hmem hc

theorem IsCode.startsBlank {code : List Char} (h : IsCode code) : startsBlank code = false := by
  obtain ⟨c, rest, rfl⟩ := List.exists_cons_of_ne_nil h.ne_nil
  have hblank := h.no_blank
  rw [List.any_cons, Bool.or_eq_false_iff] at hblank
  exact hblank.1

/-- A code does not end in white space: backwards it is a code as well. -/
theorem IsCode.endsBlank {code : List Char} (h : IsCode code) : endsBlank code = false := by
  rw [endsBlank_eq]
  apply IsCode.startsBlank
  exact ⟨by simpa using h.ne_nil, by rw [List.any_reverse, h.no_blank]⟩

namespace Finding

/-- The place of a finding as it is written. -/
def placeChars (finding : Finding) : List Char :=
  placeText (integerText finding.line).toList (integerText finding.column).toList

/-- What trimming leaves of the code and the message. -/
def contentChars (finding : Finding) : List Char :=
  finding.code.toList ++ trimEnd (' ' :: finding.message.toList)

/-- A finding that can be written: its numbers are natural, and its code is one. -/
structure IsWritable (finding : Finding) : Prop where
  line : 0 ≤ finding.line
  column : 0 ≤ finding.column
  code : IsCode finding.code.toList

/-- A line as characters, cut where it is read: path, place, and what is said. -/
theorem toList_text (finding : Finding) :
    finding.text.toList = finding.path.toList ++ finding.placeChars ++
      ' ' :: (finding.code.toList ++ ' ' :: finding.message.toList) := by
  simp [text, lintLine, placeChars, placeText]

section Writable

variable {finding : Finding} (h : finding.IsWritable)

include h

theorem IsWritable.isDigits_line : IsDigits (integerText finding.line).toList :=
  isDigits_integerText h.line

theorem IsWritable.isDigits_column : IsDigits (integerText finding.column).toList :=
  isDigits_integerText h.column

/-- A line that starts with a path is trimmed in its message only. -/
theorem IsWritable.trim_text (hpath : finding.path.toList ≠ [])
    (hstart : startsBlank finding.path.toList = false) :
    trim finding.text.toList =
      finding.path.toList ++ finding.placeChars ++ ' ' :: finding.contentChars := by
  have hend : endsBlank (finding.path.toList ++ finding.placeChars ++
      ' ' :: finding.code.toList) = false := by
    rw [endsBlank_append _ (List.cons_ne_nil _ _), ← List.singleton_append,
      endsBlank_append _ h.code.ne_nil, h.code.endsBlank]
  have htext : finding.text.toList = finding.path.toList ++ finding.placeChars ++
      ' ' :: finding.code.toList ++ ' ' :: finding.message.toList := by
    rw [toList_text]
    simp
  rw [trim, trimStart_eq_self, htext, trimEnd_append _ hend]
  · simp [contentChars]
  · rw [toList_text, List.append_assoc, startsBlank_append _ hpath, hstart]

/-- Behind the path, the place and the content are read if the content stands on one line. -/
theorem IsWritable.readPlace?_eq :
    readPlace? (finding.placeChars ++ ' ' :: finding.contentChars) =
      if '\n' ∈ finding.contentChars then none
      else some (((integerText finding.line).toList, (integerText finding.column).toList),
        finding.contentChars) := by
  have hcontent : trimStart (' ' :: finding.contentChars) = finding.contentChars := by
    rw [trimStart_cons_blank _ (by decide), trimStart_eq_self]
    rw [contentChars, startsBlank_append _ h.code.ne_nil, h.code.startsBlank]
  rw [placeChars, readPlace?_placeText _ h.isDigits_line h.isDigits_column, hcontent]

/-- The message stands on one line if the content does and the message is not trimmed. -/
theorem IsWritable.newline_mem_contentChars_iff :
    '\n' ∈ finding.contentChars ↔ '\n' ∈ trimEnd finding.message.toList := by
  have hcode : '\n' ∉ finding.code.toList := h.code.not_mem (by decide)
  rw [contentChars, List.mem_append, trimEnd_cons]
  split
  next hempty => simp [hcode, hempty.1]
  next => simp [hcode]

/-- The code is read as it was written, and the message as far as it is not trimmed. -/
theorem IsWritable.splitCode_contentChars :
    splitCode finding.contentChars = (finding.code.toList, trimEnd finding.message.toList) := by
  have hcode : ' ' ∉ finding.code.toList := h.code.not_mem (by decide)
  rw [contentChars, trimEnd_cons]
  split
  next hempty => rw [List.append_nil, splitCode_of_not_mem hcode, hempty.1]
  next => rw [splitCode_append _ hcode]

/-- In a line that is trimmed in its message only, no place is read after a shorter text than the
path exactly if the path does not seem to end earlier. -/
theorem IsWritable.shorter_reads_none_iff (hpath : '\n' ∉ finding.path.toList)
    (hcontent : '\n' ∉ finding.contentChars) :
    (∀ shorter rest, finding.path.toList ++ finding.placeChars ++ ' ' :: finding.contentChars =
      shorter ++ rest → shorter ≠ [] → shorter.length < finding.path.toList.length →
        readPlace? rest = none) ↔
      ¬ HasEarlierPlace finding.path.toList finding.placeChars := by
  apply shorter_reads_none_iff_of_one_line h.isDigits_line h.isDigits_column
  have hplace := newline_not_mem_placeText h.isDigits_line h.isDigits_column
  rw [List.mem_append, List.mem_append, List.mem_cons, not_or, not_or, not_or]
  exact ⟨⟨hpath, hplace⟩, by decide, hcontent⟩

/-- The path of a line is read as it was written if it is not empty, not trimmed, on one line with
what follows, and not cut at an earlier place. -/
theorem IsWritable.isShortestPath_iff {found : (List Char × List Char) × List Char} :
    IsShortestPath (trim finding.text.toList) finding.path.toList found ↔
      finding.path.toList ≠ [] ∧ startsBlank finding.path.toList = false ∧
        '\n' ∉ finding.path.toList ∧ '\n' ∉ finding.contentChars ∧
        ¬ HasEarlierPlace finding.path.toList finding.placeChars ∧
        found = (((integerText finding.line).toList, (integerText finding.column).toList),
          finding.contentChars) := by
  constructor
  · -- The line, trimmed, starts with the path, so the path is not trimmed itself.
    intro hshortest
    have hpath := hshortest.path_ne_nil
    have hstart : startsBlank finding.path.toList = false := by
      obtain ⟨rest, hsplit, -⟩ := hshortest.reads
      rw [← startsBlank_append rest hpath, ← hsplit, startsBlank_trim]
    rw [h.trim_text hpath hstart] at hshortest
    obtain ⟨rest, hsplit, hread⟩ := hshortest.reads
    rw [List.append_assoc, List.append_cancel_left_eq] at hsplit
    rw [← hsplit, h.readPlace?_eq] at hread
    split at hread
    next => cases hread
    next hcontent =>
      have hline := hshortest.path_one_line
      exact ⟨hpath, hstart, hline, hcontent,
        (h.shorter_reads_none_iff hline hcontent).mp hshortest.shorter_reads_none,
        (Option.some.inj hread).symm⟩
  · -- Behind the path stands the place as it was written, and no shorter path has one behind it.
    rintro ⟨hpath, hstart, hline, hcontent, hcut, rfl⟩
    rw [h.trim_text hpath hstart]
    refine ⟨hpath, hline, ⟨finding.placeChars ++ ' ' :: finding.contentChars, ?_, ?_⟩,
      (h.shorter_reads_none_iff hline hcontent).mpr hcut⟩
    · apply List.append_assoc
    · rw [h.readPlace?_eq, if_neg hcontent]

/-- If its numbers are short enough for the host, a line reads back as the finding it was written
from exactly on the domain. -/
theorem IsWritable.readFinding_text_iff {limits : Limits} (hline : limits.allowsInteger finding.line = true)
    (hcolumn : limits.allowsInteger finding.column = true) :
    (∃ found, readFinding limits finding.text = .ok (some found) ∧ found.Agrees finding) ↔
      ReadsBack finding.path finding.line finding.column finding.message := by
  constructor
  · -- A finding with the same path and message was read up to the right place and to the end.
    rintro ⟨_, hread, hagrees⟩
    obtain ⟨path, line, column, content, hshortest, -, -, rfl⟩ := readFinding_eq_ok_some_iff.mp hread
    obtain rfl : path = finding.path.toList := by
      rw [← hagrees.path]
      exact String.toList_ofList.symm
    obtain ⟨hpath, hstart, honeLine, hcontent, hcut, hfound⟩ := h.isShortestPath_iff.mp hshortest
    obtain ⟨-, rfl⟩ := Prod.mk.inj hfound
    have hmessage : trimEnd finding.message.toList = finding.message.toList := by
      have htext : String.ofList (splitCode finding.contentChars).2 = finding.message :=
        hagrees.message
      rw [h.splitCode_contentChars] at htext
      exact String.toList_ofList.symm.trans (congrArg String.toList htext)
    rw [h.newline_mem_contentChars_iff, hmessage] at hcontent
    exact ⟨hpath, hstart, honeLine, hcut, hcontent, trimEnd_eq_self_iff.mp hmessage⟩
  · -- On the domain the path is the one that was written, so the rest is what was written behind it.
    intro hreads
    have hmessage := trimEnd_eq_self hreads.message_end
    have hcontent : '\n' ∉ finding.contentChars := by
      rw [h.newline_mem_contentChars_iff, hmessage]
      exact hreads.message_one_line
    have hshortest := h.isShortestPath_iff.mpr ⟨hreads.path_ne_nil, hreads.path_start,
      hreads.path_one_line, hcontent, hreads.path_ends_first, rfl⟩
    have hne : finding.contentChars ≠ [] := List.append_ne_nil_of_left_ne_nil h.code.ne_nil _
    have hfits := And.intro ((Limits.allowsInteger_iff h.line).mp hline)
      ((Limits.allowsInteger_iff h.column).mp hcolumn)
    refine ⟨_, readFinding_eq_ok_some_iff.mpr ⟨_, _, _, _, hshortest, hne, hfits, rfl⟩, ?_, ?_, ?_, ?_, ?_⟩
    · apply String.ofList_toList
    · exact digitsValue_integerText h.line
    · exact digitsValue_integerText h.column
    · show String.ofList (splitCode finding.contentChars).1 = finding.code
      rw [h.splitCode_contentChars, String.ofList_toList]
    · show String.ofList (splitCode finding.contentChars).2 = finding.message
      rw [h.splitCode_contentChars, hmessage, String.ofList_toList]

end Writable

end Finding

/-! ## The Lines of a Collector -/

/-- All spans that reports of a collector point to start at natural numbers. -/
def Collector.HasNaturalStarts (collector : Collector) : Prop :=
  ∀ report ∈ collector.reports, ∀ span ∈ report.span, 0 ≤ span.start.line ∧ 0 ≤ span.start.column

instance (collector : Collector) : Decidable collector.HasNaturalStarts :=
  inferInstanceAs (Decidable (∀ report ∈ collector.reports, ∀ span ∈ report.span, _))

theorem LintEntry.isWritable_ofSettingsMessage (path message : String) :
    (LintEntry.ofSettingsMessage path message).toFinding.IsWritable :=
  ⟨Int.zero_le_ofNat 1, Int.zero_le_ofNat 1, isCode_code .settings⟩

theorem LintEntry.isWritable_ofReport (path : String) {report : Report}
    (h : ∀ span ∈ report.span, 0 ≤ span.start.line ∧ 0 ≤ span.start.column) :
    (LintEntry.ofReport path report).toFinding.IsWritable := by
  have hposition : 0 ≤ report.position.line ∧ 0 ≤ report.position.column := by
    unfold Report.position
    cases hspan : report.span with
    | none => decide
    | some span => exact h span hspan
  exact ⟨hposition.1, hposition.2, isCode_code report.issue⟩

/-- Each entry holds the message that it stands for, in order. -/
theorem Collector.map_message_entries (collector : Collector) (path : String) :
    (collector.entries path).map (fun entry => entry.message) =
      collector.settingsMessages ++ collector.messages := by
  simp [entries, messages, Function.comp_def, LintEntry.ofSettingsMessage, LintEntry.ofReport]

theorem Collector.isWritable_of_mem_entries {collector : Collector} {path : String}
    (h : collector.HasNaturalStarts) {entry : LintEntry} (hentry : entry ∈ collector.entries path) :
    entry.path = path ∧ entry.toFinding.IsWritable := by
  rw [entries, List.mem_append, List.mem_map, List.mem_map] at hentry
  rcases hentry with ⟨message, -, rfl⟩ | ⟨report, hreport, rfl⟩
  · exact ⟨rfl, LintEntry.isWritable_ofSettingsMessage path message⟩
  · exact ⟨rfl, LintEntry.isWritable_ofReport path (h report hreport)⟩

/-- Whether the host can write the places that reports of a collector point to. -/
def Collector.HasShortPositions (limits : Limits) (collector : Collector) : Prop :=
  ∀ report ∈ collector.reports, limits.allowsInteger report.position.line = true ∧
    limits.allowsInteger report.position.column = true

instance (limits : Limits) (collector : Collector) : Decidable (collector.HasShortPositions limits) :=
  inferInstanceAs (Decidable (∀ report ∈ collector.reports, _))

theorem LintEntry.text_ofSettingsMessage (path message : String) :
    lintLine path "1" "1" Issue.settings.code message = (ofSettingsMessage path message).toFinding.text := by
  have hone : integerText 1 = "1" := by decide
  rw [Finding.text, ofSettingsMessage, hone]

/-- A report is written as its entry is, if the host can write its place. -/
theorem LintEntry.writeLine_ofReport_iff {limits : Limits} {path line : String} (report : Report) :
    (do
      let row ← limits.writeInteger report.position.line
      let column ← limits.writeInteger report.position.column
      return lintLine path row column report.issue.code report.message : Except Stop String) = .ok line ↔
      (limits.allowsInteger report.position.line = true ∧
        limits.allowsInteger report.position.column = true) ∧
        (ofReport path report).toFinding.text = line := by
  simp only [bind_eq_ok_iff, Limits.writeInteger_eq_ok_iff]
  constructor
  · rintro ⟨_, ⟨hline, rfl⟩, _, ⟨hcolumn, rfl⟩, htext⟩
    exact ⟨⟨hline, hcolumn⟩, Except.ok.inj htext⟩
  · rintro ⟨⟨hline, hcolumn⟩, rfl⟩
    exact ⟨_, ⟨hline, rfl⟩, _, ⟨hcolumn, rfl⟩, rfl⟩

/-- The lines and the entries are made in two loops each, and agree: a line is the text of its
entry. There are lines if all places can be written. -/
theorem Collector.lines_eq_ok_iff {limits : Limits} {collector : Collector} {path : String}
    {lines : List String} :
    collector.lines limits path = .ok lines ↔ collector.HasShortPositions limits ∧
      (collector.entries path).map (fun entry => entry.toFinding.text) = lines := by
  -- The first loop of either stops at nothing; the second stops at a place that is too long.
  have hsettings : (collector.settingsMessages.map fun message =>
      lintLine path "1" "1" Issue.settings.code message) =
        collector.settingsMessages.map
          ((fun entry => entry.toFinding.text) ∘ LintEntry.ofSettingsMessage path) :=
    List.map_congr_left fun message _ => LintEntry.text_ofSettingsMessage path message
  rw [Collector.lines, entries, List.map_append, List.map_map, List.map_map, bind_eq_ok_iff, hsettings]
  simp only [mapM_eq_ok_iff fun report _ _ => LintEntry.writeLine_ofReport_iff report]
  constructor
  · rintro ⟨rows, ⟨hpositions, rfl⟩, hlines⟩
    exact ⟨hpositions, Except.ok.inj hlines⟩
  · rintro ⟨hpositions, rfl⟩
    exact ⟨_, ⟨hpositions, rfl⟩, rfl⟩

/-- Only a place that is too long to be written stops the lines. -/
theorem Collector.eq_of_lines_eq_error {limits : Limits} {collector : Collector} {path : String} {stop : Stop}
    (h : collector.lines limits path = .error stop) : stop = .tooManyDigits := by
  rcases bind_eq_error_iff.mp h with hreports | ⟨_, -, ⟨⟩⟩
  obtain ⟨report, -, hstop⟩ := exists_of_mapM_eq_error hreports
  rcases bind_eq_error_iff.mp hstop with hline | ⟨_, -, hrest⟩
  · exact (Limits.writeInteger_eq_error_iff.mp hline).2
  · rcases bind_eq_error_iff.mp hrest with hcolumn | ⟨_, -, ⟨⟩⟩
    exact (Limits.writeInteger_eq_error_iff.mp hcolumn).2

theorem Collector.HasShortPositions.allowsInteger {limits : Limits} {collector : Collector}
    (h : collector.HasShortPositions limits) {path : String} {entry : LintEntry}
    (hentry : entry ∈ collector.entries path) :
    limits.allowsInteger entry.line = true ∧ limits.allowsInteger entry.column = true := by
  rw [entries, List.mem_append, List.mem_map, List.mem_map] at hentry
  rcases hentry with ⟨message, -, rfl⟩ | ⟨report, hreport, rfl⟩
  · -- Messages about settings stand at the start of a file.
    have hone : limits.allowsInteger 1 = true := decide_eq_true limits.digits_pos
    exact ⟨hone, hone⟩
  · exact h report hreport

/-- A message about settings, and a report on the third line. -/
def sampleCollector : Collector where
  settingsMessages := ["Preferred name is empty."]
  reports := [{ issue := .unknownTag, message := "Unknown tag.", span := some ⟨⟨3, 4⟩, ⟨3, 8⟩⟩ }]

end DocLint
