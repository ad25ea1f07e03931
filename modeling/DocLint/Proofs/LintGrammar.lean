import DocLint.Proofs.LintRoundTrip

/-!
# The Grammar of Lint Lines

A lint line is, white space around it apart, a path, two numbers between colons, and a text; of several ways
to read a line so, the one with the shortest path counts. Main statements: `exists_isShortestPath`, by which a
place is found wherever there is one, `IsShortestPath.content_ne_nil`, by which the shortest path never hides a
text that a longer one would leave, and `lint_line_grammar`. A line with such a reading may still come to no
finding, since the host reads only so many digits of a number: `long_number_stops_reading`.
-/

namespace DocLint.Lint

open Text

/-! ## Readings -/

/-- A way to read a text as a lint line: a path that is not empty and on one line, two runs of
digits between colons, and a rest that says something on one line, the white space around it
apart. -/
structure IsReading (cs path line column rest : List Char) : Prop where
  /-- The parts make up the text, with colons around the numbers. -/
  text_eq : cs = path ++ (placeText line column ++ rest)
  path_ne_nil : path ≠ []
  path_one_line : '\n' ∉ path
  /-- The digits may be of any script. -/
  line_digits : IsDigits line
  column_digits : IsDigits column
  content_ne_nil : trim rest ≠ []
  content_one_line : '\n' ∉ trim rest

/-- Whether a code and a message make up a text: the code ends at the first blank, which the message
follows; without a blank the text is all code. -/
structure IsCodeAndMessage (content code message : List Char) : Prop where
  /-- So the blank behind the code is the first one. -/
  no_blank : ' ' ∉ code
  /-- The blank between the two belongs to neither. -/
  content_eq : content = code ++ ' ' :: message ∨ content = code ∧ message = []

/-- Splitting at the first blank gives a code and a message, whatever the text is. -/
theorem isCodeAndMessage_splitCode (content : List Char) :
    IsCodeAndMessage content (splitCode content).1 (splitCode content).2 := by
  by_cases hblank : ' ' ∈ content
  · obtain ⟨code, message, rfl, hcode⟩ := List.eq_append_cons_of_mem hblank
    rw [splitCode_append message hcode]
    exact ⟨hcode, Or.inl rfl⟩
  · rw [splitCode_of_not_mem hblank]
    exact ⟨hblank, Or.inr ⟨rfl, rfl⟩⟩

section

variable {cs path line column rest : List Char} (hcs : endsBlank cs = false)

include hcs

/-- What is read as a place behind the path of a reading: its numbers and its rest, trimmed. That
the whole text was trimmed at its end makes trimming the rest a matter of its start. -/
theorem IsReading.readPlace?_eq (h : IsReading cs path line column rest) :
    readPlace? (placeText line column ++ rest) =
      some ((line, column), trim rest) := by
  have hrest : endsBlank (path ++ placeText line column ++ rest) = false := by
    rw [List.append_assoc, ← h.text_eq, hcs]
  replace hrest := endsBlank_of_append hrest
  rw [readPlace?_placeText rest h.line_digits h.column_digits, ← trim_eq_trimStart hrest,
    if_neg h.content_one_line]

/-- A path with a place and something to say behind it is that of a reading. -/
theorem exists_isReading {after content : List Char} (htext : cs = path ++ after) (hpath : path ≠ [])
    (honeLine : '\n' ∉ path) (hread : readPlace? after = some ((line, column), content))
    (hcontent : content ≠ []) :
    ∃ rest, IsReading cs path line column rest ∧ trim rest = content := by
  obtain ⟨rest, hline, hcolumn, rfl, rfl, hnewline⟩ := readPlace?_eq_some_iff.mp hread
  have hrest : endsBlank rest = false := by
    apply endsBlank_of_append
    rw [List.append_assoc, ← htext, hcs]
  have htrim := trim_eq_trimStart hrest
  refine ⟨rest, ⟨htext, hpath, honeLine, hline, hcolumn, ?_, ?_⟩, htrim⟩
  · rw [htrim]
    exact hcontent
  · rw [htrim]
    exact hnewline

end

/-! ## The Shortest Path -/

section

variable {cs path rest : List Char} {found : (List Char × List Char) × List Char}

/-- Of the paths with a place after them one is the shortest. A shorter path is a part of a longer
one that is on one line, so it is on one line, too. -/
theorem exists_isShortestPath (htext : cs = path ++ rest) (hpath : path ≠ []) (hline : '\n' ∉ path)
    (hread : readPlace? rest = some found) : ∃ shortest place, IsShortestPath cs shortest place := by
  -- The induction is on the length of the path: a shorter one with a place takes its part.
  induction hlength : path.length using Nat.strongRecOn generalizing path rest found with
  | ind length ih =>
    by_cases hshorter : ∃ shorter after place, cs = shorter ++ after ∧ shorter ≠ [] ∧
        shorter.length < path.length ∧ readPlace? after = some place
    · obtain ⟨shorter, after, place, hsplit, hne, hlt, hafter⟩ := hshorter
      have hstart : shorter <+: cs := ⟨after, hsplit.symm⟩
      have hin : shorter <+: path :=
        List.prefix_of_prefix_length_le hstart ⟨rest, htext.symm⟩ hlt.le
      have honeLine : '\n' ∉ shorter := fun hmem => hline (hin.mem hmem)
      exact ih shorter.length (hlength ▸ hlt) hsplit hne honeLine hafter rfl
    · refine ⟨path, found, hpath, hline, ⟨rest, htext, hread⟩, ?_⟩
      intro shorter after hsplit hne hlt
      cases hafter : readPlace? after with
      | none => rfl
      | some place => exact absurd ⟨shorter, after, place, hsplit, hne, hlt, hafter⟩ hshorter

variable {line column behind : List Char} {place : List Char × List Char} {content : List Char}

/-- The shortest path is no longer than that of any reading. -/
theorem IsShortestPath.length_le {shortest : List Char} (h : IsShortestPath cs shortest found)
    (hcs : endsBlank cs = false) (hreading : IsReading cs path line column behind) :
    shortest.length ≤ path.length := by
  by_contra hlonger
  -- The path of the reading would be a shorter one with a place behind it.
  have hnone := h.shorter_reads_none path _ hreading.text_eq hreading.path_ne_nil (by omega)
  rw [hreading.readPlace?_eq hcs] at hnone
  cases hnone

/-- If the shortest path leaves nothing to say, no longer path does: the text ends in the place
behind the shortest path, and a longer one would need a place of its own inside of that. -/
theorem IsShortestPath.content_ne_nil {shortest : List Char}
    (h : IsShortestPath cs shortest (place, content)) (hcs : endsBlank cs = false)
    (hreading : IsReading cs path line column behind) : content ≠ [] := by
  intro hempty
  obtain ⟨after, hafter, hread⟩ := h.reads
  obtain ⟨first, second⟩ := place
  obtain ⟨last, hfirst, hsecond, rfl, hlast, -⟩ := readPlace?_eq_some_iff.mp hread
  -- White space does not end the text, so it ends in the place of the shortest path.
  have hlastEnds : endsBlank last = false := by
    apply endsBlank_of_append
    rw [List.append_assoc, ← hafter, hcs]
  obtain rfl : last = [] := by
    apply eq_nil_of_trim_eq_nil hlastEnds
    rw [trim_eq_trimStart hlastEnds, hlast, hempty]
  rw [List.append_nil] at hafter hread
  have hstart : shortest <+: cs := ⟨_, hafter.symm⟩
  obtain ⟨extra, rfl⟩ : shortest <+: path :=
    List.prefix_of_prefix_length_le hstart ⟨_, hreading.text_eq.symm⟩ (h.length_le hcs hreading)
  have hplace : placeText first second = extra ++ (placeText line column ++ behind) := by
    have htext := hafter.symm.trans hreading.text_eq
    rw [List.append_assoc] at htext
    exact List.append_cancel_left htext
  by_cases hextra : extra = []
  · -- Both paths are the same, and then so is what is said behind them.
    rw [hextra, List.nil_append] at hplace
    rw [hplace, hreading.readPlace?_eq hcs, hempty] at hread
    apply hreading.content_ne_nil
    exact congrArg Prod.snd (Option.some.inj hread)
  · -- The place of a longer path would not fit in.
    apply not_append_placeText_isPrefix hextra hreading.line_digits hreading.column_digits hfirst hsecond
    rw [hplace, ← List.append_assoc]
    exact List.prefix_append _ _

end

/-! ## The Shortest Reading -/

/-- A reading whose path is no longer than that of any other. -/
structure IsShortestReading (cs path line column rest : List Char) : Prop
    extends IsReading cs path line column rest where
  shortest : ∀ other otherLine otherColumn otherRest,
    IsReading cs other otherLine otherColumn otherRest → path.length ≤ other.length

section

variable {cs path line column : List Char} (hcs : endsBlank cs = false)

include hcs

/-- The shortest path, if it leaves something to say, is that of the shortest reading. -/
theorem IsShortestPath.exists_isShortestReading {content : List Char}
    (h : IsShortestPath cs path ((line, column), content)) (hcontent : content ≠ []) :
    ∃ rest, IsShortestReading cs path line column rest ∧ trim rest = content := by
  obtain ⟨after, hafter, hplace⟩ := h.reads
  obtain ⟨rest, hreading, htrim⟩ :=
    exists_isReading hcs hafter h.path_ne_nil h.path_one_line hplace hcontent
  refine ⟨rest, ⟨hreading, ?_⟩, htrim⟩
  intro other otherLine otherColumn otherRest hother
  exact h.length_le hcs hother

/-- The path of the shortest reading is the shortest path. -/
theorem IsShortestReading.isShortestPath {rest : List Char} (h : IsShortestReading cs path line column rest) :
    IsShortestPath cs path ((line, column), trim rest) := by
  obtain ⟨shortest, ⟨place, content⟩, hshortest⟩ :=
    exists_isShortestPath h.text_eq h.path_ne_nil h.path_one_line (h.readPlace?_eq hcs)
  -- Neither path is longer than the other, and the text starts with both.
  have hle := hshortest.length_le hcs h.toIsReading
  obtain ⟨after, hafter, hread⟩ := hshortest.reads
  obtain ⟨behind, hreading, -⟩ := exists_isReading hcs hafter hshortest.path_ne_nil
    hshortest.path_one_line hread (hshortest.content_ne_nil hcs h.toIsReading)
  have hge := h.shortest _ _ _ _ hreading
  obtain ⟨rfl, hrest⟩ : path = shortest ∧ placeText line column ++ rest = after := by
    apply List.append_inj (h.text_eq.symm.trans hafter)
    omega
  rw [← hrest, h.readPlace?_eq hcs, Option.some.injEq] at hread
  rw [hread]
  exact hshortest

/-- Of the readings of a text one is the shortest. -/
theorem IsReading.exists_isShortestReading {rest : List Char} (h : IsReading cs path line column rest) :
    ∃ path line column rest, IsShortestReading cs path line column rest := by
  obtain ⟨shortest, ⟨⟨first, second⟩, content⟩, hshortest⟩ :=
    exists_isShortestPath h.text_eq h.path_ne_nil h.path_one_line (h.readPlace?_eq hcs)
  obtain ⟨behind, hreading, -⟩ := hshortest.exists_isShortestReading hcs (hshortest.content_ne_nil hcs h)
  exact ⟨_, _, _, behind, hreading⟩

end

/-! ## The Grammar -/

/-- Whether a finding is what a reading of a text says: its path and its numbers are those of the
reading, and its code and its message make up the rest. -/
structure IsSaidBy (finding : Finding) (path line column rest : List Char) : Prop where
  path_eq : finding.path.toList = path
  line_eq : finding.line = digitsValue line
  column_eq : finding.column = digitsValue column
  code_and_message : IsCodeAndMessage (trim rest) finding.code.toList finding.message.toList

/-- Whether the host reads numbers of as many digits as a place has. -/
def IsShortPlace (limits : Limits) (line column : List Char) : Prop :=
  line.length ≤ limits.digits ∧ column.length ≤ limits.digits

instance (limits : Limits) (line column : List Char) : Decidable (IsShortPlace limits line column) :=
  inferInstanceAs (Decidable (_ ∧ _))

section

variable {limits : Limits} {text : String}

/-- A line states nothing exactly if there is no way to read it. -/
theorem readFinding_eq_ok_none_iff_forall_not_isReading :
    readFinding limits text = .ok none ↔
      ∀ path line column rest, ¬ IsReading (trim text.toList) path line column rest := by
  have hends := endsBlank_trim text.toList
  rw [readFinding_eq_ok_none_iff]
  constructor
  · intro h path line column rest hreading
    obtain ⟨shortest, ⟨place, content⟩, hshortest⟩ := exists_isShortestPath hreading.text_eq
      hreading.path_ne_nil hreading.path_one_line (hreading.readPlace?_eq hends)
    exact hshortest.content_ne_nil hends hreading (h _ _ _ hshortest)
  · -- The shortest path would be that of a reading if it left something to say.
    intro h path place content hshortest
    by_contra hcontent
    obtain ⟨rest, hreading, -⟩ := hshortest.exists_isShortestReading hends hcontent
    exact h _ _ _ _ hreading.toIsReading

/-- A line states a finding exactly if its shortest reading says it, in numbers that are not too
long. -/
theorem readFinding_eq_ok_some_iff_exists_isShortestReading {finding : Finding} :
    readFinding limits text = .ok (some finding) ↔
      ∃ path line column rest, IsShortestReading (trim text.toList) path line column rest ∧
        IsShortPlace limits line column ∧ findingOf path line column (trim rest) = finding := by
  have hends := endsBlank_trim text.toList
  rw [readFinding_eq_ok_some_iff]
  constructor
  · rintro ⟨path, line, column, content, hshortest, hcontent, hshort, rfl⟩
    obtain ⟨rest, hreading, rfl⟩ := hshortest.exists_isShortestReading hends hcontent
    exact ⟨path, line, column, rest, hreading, hshort, rfl⟩
  · rintro ⟨path, line, column, rest, hreading, hshort, rfl⟩
    exact ⟨_, _, _, _, hreading.isShortestPath hends, hreading.content_ne_nil, hshort, rfl⟩

/-- Reading a line stops exactly if its shortest reading has a number that is too long. -/
theorem readFinding_eq_error_iff_exists_isShortestReading {stop : Stop} :
    readFinding limits text = .error stop ↔ stop = .tooManyDigits ∧
      ∃ path line column rest, IsShortestReading (trim text.toList) path line column rest ∧
        ¬ IsShortPlace limits line column := by
  have hends := endsBlank_trim text.toList
  rw [readFinding_eq_error_iff]
  refine and_congr_right fun _ => ?_
  constructor
  · rintro ⟨path, line, column, content, hshortest, hcontent, hlong⟩
    obtain ⟨rest, hreading, -⟩ := hshortest.exists_isShortestReading hends hcontent
    exact ⟨path, line, column, rest, hreading, hlong⟩
  · rintro ⟨path, line, column, rest, hreading, hlong⟩
    exact ⟨_, _, _, _, hreading.isShortestPath hends, hreading.content_ne_nil, hlong⟩

end

theorem isSaidBy_findingOf (path line column rest : List Char) :
    IsSaidBy (findingOf path line column (trim rest)) path line column rest where
  path_eq := String.toList_ofList
  line_eq := rfl
  column_eq := rfl
  code_and_message := by
    simp only [findingOf, String.toList_ofList]
    apply isCodeAndMessage_splitCode

/-- **Lint lines are those with a reading.** A line that cannot be read, trimmed, as a path, two
numbers and a text states nothing. Any other has a shortest reading. If the numbers there are short
enough for the host, the line states the finding that this reading says, and else reading stops at a
number with too many digits. -/
theorem lint_line_grammar (limits : Limits) (text : String) :
    (readFinding limits text = .ok none ↔
      ¬ ∃ path line column rest, IsReading (trim text.toList) path line column rest) ∧
    ((∃ path line column rest, IsReading (trim text.toList) path line column rest) →
      ∃ path line column rest, IsShortestReading (trim text.toList) path line column rest) ∧
    ∀ path line column rest, IsShortestReading (trim text.toList) path line column rest →
      (IsShortPlace limits line column → ∃ finding, readFinding limits text = .ok (some finding) ∧
        IsSaidBy finding path line column rest) ∧
      (¬ IsShortPlace limits line column → readFinding limits text = .error .tooManyDigits) := by
  refine ⟨?_, ?_, ?_⟩
  · rw [readFinding_eq_ok_none_iff_forall_not_isReading]
    simp only [not_exists]
  · -- Of the readings there is a shortest one, by the length of the path.
    rintro ⟨path, line, column, rest, hreading⟩
    exact hreading.exists_isShortestReading (endsBlank_trim text.toList)
  · intro path line column rest hreading
    constructor
    · intro hshort
      refine ⟨findingOf path line column (trim rest), ?_, isSaidBy_findingOf path line column rest⟩
      exact readFinding_eq_ok_some_iff_exists_isShortestReading.mpr
        ⟨path, line, column, rest, hreading, hshort, rfl⟩
    · intro hlong
      exact readFinding_eq_error_iff_exists_isShortestReading.mpr
        ⟨rfl, path, line, column, rest, hreading, hlong⟩

/-- A line feed behind the second place keeps the path from ending at the first. Its column has two
digits, which is one too many for a host that reads one. -/
theorem lint_line_grammar_later_path :
    let text := " a:1:2:b:३:04:\n E two words "
    let rest := "\n E two words".toList
    IsShortestReading (trim text.toList) "a:1:2:b".toList ['३'] ['0', '4'] rest ∧
      (∃ finding, readFinding .standard text = .ok (some finding) ∧
        IsSaidBy finding "a:1:2:b".toList ['३'] ['0', '4'] rest) ∧
      readFinding ⟨1, 0, 0, Nat.one_pos⟩ text = .error .tooManyDigits := by
  intro text rest
  have hsplit : splitPlace? (trim text.toList) =
      some ("a:1:2:b".toList, (['३'], ['0', '4']), "E two words".toList) := by decide +kernel
  obtain ⟨behind, hreading, -⟩ :=
    (splitPlace?_eq_some_iff.mp hsplit).exists_isShortestReading (endsBlank_trim text.toList) (by decide)
  obtain rfl : rest = behind := by
    have htext : trim text.toList = "a:1:2:b".toList ++ (placeText ['३'] ['0', '4'] ++ rest) := by
      decide +kernel
    have hsame := htext.symm.trans hreading.text_eq
    rwa [List.append_cancel_left_eq, List.append_cancel_left_eq] at hsame
  refine ⟨hreading, ?_, ?_⟩
  · exact ((lint_line_grammar .standard text).2.2 _ _ _ _ hreading).1 (by decide)
  · exact ((lint_line_grammar ⟨1, 0, 0, Nat.one_pos⟩ text).2.2 _ _ _ _ hreading).2 (by decide)

/-! ## Long Numbers -/

/-- A lint line is not always read: the usual limits do not allow a line number of 4301 digits,
though zeros in front of a seven mean nothing. -/
theorem long_number_stops_reading :
    let number := List.replicate 4300 '0' ++ ['7']
    let text := String.ofList (['a'] ++ (placeText number ['1'] ++ " X y".toList))
    IsReading (trim text.toList) ['a'] number ['1'] " X y".toList ∧
      readFinding .standard text = .error .tooManyDigits ∧
      ¬ ∃ finding, readFinding .standard text = .ok (some finding) := by
  intro number text
  have hnumber : IsDigits number := by
    refine ⟨List.append_ne_nil_of_right_ne_nil _ (List.cons_ne_nil _ _), fun c hc => ?_⟩
    obtain rfl | rfl : c = '0' ∨ c = '7' := by
      rcases List.mem_append.mp hc with hzero | hseven
      · exact .inl (List.eq_of_mem_replicate hzero)
      · exact .inr (List.mem_singleton.mp hseven)
    all_goals decide
  have htrim : trim text.toList = ['a'] ++ (placeText number ['1'] ++ " X y".toList) := by
    have hends : endsBlank (['a'] ++ (placeText number ['1'] ++ " X y".toList)) = false := by
      rw [← List.append_assoc, endsBlank_append _ (by decide)]
      decide
    rw [String.toList_ofList, trim_eq_trimStart hends, trimStart_eq_self (by rfl)]
  have hreading : IsReading (trim text.toList) ['a'] number ['1'] " X y".toList :=
    ⟨htrim, by decide, by decide, hnumber, isDigits_singleton (by decide), by decide, by decide⟩
  -- No path is shorter than one of a single character.
  have hshortest : IsShortestReading (trim text.toList) ['a'] number ['1'] " X y".toList :=
    ⟨hreading, fun other _ _ _ hother => List.length_pos_of_ne_nil hother.path_ne_nil⟩
  have hlong : ¬ IsShortPlace .standard number ['1'] := by
    intro hshort
    have hlength := hshort.1
    rw [List.length_append, List.length_replicate] at hlength
    exact absurd hlength (by decide)
  have hstop : readFinding .standard text = .error .tooManyDigits :=
    readFinding_eq_error_iff_exists_isShortestReading.mpr ⟨rfl, _, _, _, _, hshortest, hlong⟩
  refine ⟨hreading, hstop, ?_⟩
  rintro ⟨finding, hfinding⟩
  cases hstop.symm.trans hfinding

end DocLint.Lint
