import Mathlib.Data.List.TakeWhile
import DocLint.Lint.Line
import DocLint.Proofs.Stops
import DocLint.Proofs.Trimming

/-!
# Places in Lint Lines

What the parts of a lint line's reader accept. Main statements: `readPlace?_eq_some_iff`, by which a place
is two runs of digits between colons, `splitPlace?_eq_some_iff`, by which the path that is read is the
shortest text with a place after it, and `readFinding_eq_ok_some_iff` and its two companions, by which a line
states a finding, states none, or stops the reader at a number that is too long.
-/

namespace DocLint.Lint

open Text

/-! ## Numbers Between Colons -/

theorem isDigit_colon : isDigit ':' = false := by decide

/-- A place as it is written behind a path. -/
def placeText (line column : List Char) : List Char := ':' :: line ++ ':' :: column ++ [':']

theorem newline_not_mem_placeText {line column : List Char} (hline : IsDigits line)
    (hcolumn : IsDigits column) : '\n' ∉ placeText line column := by
  have hnewline : isDigit '\n' = false := by decide
  simp [placeText, hline.not_mem hnewline, hcolumn.not_mem hnewline]

/-- What is read before a colon is a run of digits: the longest one, so there is no other way to
read it. -/
theorem readNumber?_eq_some_iff {cs digits rest : List Char} :
    readNumber? cs = some (digits, rest) ↔ IsDigits digits ∧ cs = digits ++ ':' :: rest := by
  constructor
  · intro h
    unfold readNumber? at h
    split at h
    next behind hbehind =>
      dsimp only at h
      split at h
      next => cases h
      next hne =>
        simp only [Option.some.injEq, Prod.mk.injEq] at h
        obtain ⟨rfl, rfl⟩ := h
        refine ⟨⟨?_, fun c hc => List.mem_takeWhile_imp hc⟩, ?_⟩
        · simpa using hne
        · rw [← hbehind, List.takeWhile_append_dropWhile]
    next => cases h
  · rintro ⟨hdigits, rfl⟩
    -- The run stops at the colon, which is no digit.
    have htake : (digits ++ ':' :: rest).takeWhile isDigit = digits := by
      rw [List.takeWhile_append_of_pos hdigits.all_digits,
        List.takeWhile_cons_of_neg (by rw [isDigit_colon]; simp), List.append_nil]
    have hdrop : (digits ++ ':' :: rest).dropWhile isDigit = ':' :: rest := by
      rw [List.dropWhile_append_of_pos hdigits.all_digits,
        List.dropWhile_cons_of_neg (by rw [isDigit_colon]; simp)]
    have hne : ¬ digits.isEmpty = true := by simpa using hdigits.ne_nil
    simp only [readNumber?, htake, hdrop]
    rw [if_neg hne]

/-- A place is read off two runs of digits between colons, if what follows stands on one line. -/
theorem readPlace?_placeText {line column : List Char} (rest : List Char) (hline : IsDigits line)
    (hcolumn : IsDigits column) :
    readPlace? (placeText line column ++ rest) =
      if '\n' ∈ trimStart rest then none else some ((line, column), trimStart rest) := by
  have hfirst : readNumber? (line ++ ':' :: (column ++ ':' :: rest)) =
      some (line, column ++ ':' :: rest) := readNumber?_eq_some_iff.mpr ⟨hline, rfl⟩
  have hsecond : readNumber? (column ++ ':' :: rest) = some (column, rest) :=
    readNumber?_eq_some_iff.mpr ⟨hcolumn, rfl⟩
  have htext : placeText line column ++ rest = ':' :: (line ++ ':' :: (column ++ ':' :: rest)) := by
    simp [placeText]
  rw [htext]
  simp only [readPlace?, hfirst, hsecond, Option.bind_eq_bind, Option.bind_some,
    List.contains_iff_mem]

/-- Whether a text starts with a place. -/
def StartsWithPlace (cs : List Char) : Prop :=
  ∃ line column, IsDigits line ∧ IsDigits column ∧ placeText line column <+: cs

/-- What is read as a place is written as one. -/
theorem readPlace?_eq_some_iff {cs line column content : List Char} :
    readPlace? cs = some ((line, column), content) ↔
      ∃ rest, IsDigits line ∧ IsDigits column ∧ cs = placeText line column ++ rest ∧
        trimStart rest = content ∧ '\n' ∉ content := by
  constructor
  · -- The colon, the two numbers with theirs, and the check for a line feed, one after the other.
    intro h
    unfold readPlace? at h
    split at h
    next behind =>
      simp only [Option.bind_eq_bind, Option.bind_eq_some_iff, Prod.exists] at h
      obtain ⟨_, afterLine, hline, _, rest, hcolumn, hrest⟩ := h
      obtain ⟨hfirst, rfl⟩ := readNumber?_eq_some_iff.mp hline
      obtain ⟨hsecond, rfl⟩ := readNumber?_eq_some_iff.mp hcolumn
      split at hrest
      next => cases hrest
      next hnewline =>
        simp only [Option.some.injEq, Prod.mk.injEq] at hrest
        obtain ⟨⟨rfl, rfl⟩, rfl⟩ := hrest
        exact ⟨rest, hfirst, hsecond, by simp [placeText], rfl, by simpa using hnewline⟩
    next => cases h
  · -- A place that is written is read, and the rest is trimmed.
    rintro ⟨rest, hline, hcolumn, rfl, rfl, hnewline⟩
    rw [readPlace?_placeText rest hline hcolumn, if_neg hnewline]

/-- In a text on one line a place is read exactly where one is written. -/
theorem readPlace?_eq_none_iff {cs : List Char} (hcs : '\n' ∉ cs) :
    readPlace? cs = none ↔ ¬ StartsWithPlace cs := by
  rw [Option.eq_none_iff_forall_ne_some]
  constructor
  · rintro h ⟨line, column, hline, hcolumn, rest, rfl⟩
    refine h _ (readPlace?_eq_some_iff.mpr ⟨rest, hline, hcolumn, rfl, rfl, ?_⟩)
    intro hmem
    exact hcs (List.mem_append_right _ ((List.dropWhile_suffix isBlank).mem hmem))
  · rintro h ⟨⟨line, column⟩, content⟩ hread
    obtain ⟨rest, hline, hcolumn, rfl, -⟩ := readPlace?_eq_some_iff.mp hread
    exact h ⟨line, column, hline, hcolumn, List.prefix_append _ _⟩

/-! ## The Shortest Path -/

/-- A path is the shortest text with a place after it: it is not empty, stands on one line, and
after no shorter text, the empty one apart, a place is read. Whether anything is said behind the
place is not asked here. -/
structure IsShortestPath (cs path : List Char) (found : (List Char × List Char) × List Char) : Prop where
  /-- The empty text is no path, even where a place follows it. -/
  path_ne_nil : path ≠ []
  path_one_line : '\n' ∉ path
  reads : ∃ rest, cs = path ++ rest ∧ readPlace? rest = some found
  /-- So every shorter path was tried before and given up. -/
  shorter_reads_none : ∀ shorter rest, cs = shorter ++ rest → shorter ≠ [] →
    shorter.length < path.length → readPlace? rest = none

theorem not_isShortestPath_nil {path : List Char} {found : (List Char × List Char) × List Char} :
    ¬ IsShortestPath [] path found := by
  intro h
  obtain ⟨rest, hrest, -⟩ := h.reads
  exact h.path_ne_nil (List.append_eq_nil_iff.mp hrest.symm).1

section Cons

variable {c : Char} {rest path : List Char} {here found : (List Char × List Char) × List Char}

theorem IsShortestPath.exists_tail (h : IsShortestPath (c :: rest) path found) :
    ∃ tail after, path = c :: tail ∧ rest = tail ++ after ∧ readPlace? after = some found := by
  obtain ⟨after, hafter, hread⟩ := h.reads
  obtain ⟨d, tail, rfl⟩ := List.exists_cons_of_ne_nil h.path_ne_nil
  rw [List.cons_append] at hafter
  obtain ⟨rfl, hrest⟩ := List.cons_eq_cons.mp hafter
  exact ⟨tail, after, rfl, hrest, hread⟩

/-- If a place is read after the first character, that character is the path. -/
theorem isShortestPath_cons_of_some (hc : c ≠ '\n') (hhere : readPlace? rest = some here) :
    IsShortestPath (c :: rest) path found ↔ path = [c] ∧ found = here := by
  constructor
  · intro h
    obtain ⟨tail, after, rfl, hrest, hread⟩ := h.exists_tail
    have htail : tail = [] := by
      by_contra hne
      -- The first character alone would do for a path.
      have hlength : [c].length < (c :: tail).length := by
        simpa using List.length_pos_of_ne_nil hne
      rw [h.shorter_reads_none [c] rest rfl (List.cons_ne_nil _ _) hlength] at hhere
      cases hhere
    subst htail
    rw [List.nil_append] at hrest
    rw [hrest, hread, Option.some.injEq] at hhere
    exact ⟨rfl, hhere⟩
  · rintro ⟨rfl, rfl⟩
    refine ⟨List.cons_ne_nil _ _, by simpa using Ne.symm hc, ⟨rest, rfl, hhere⟩, ?_⟩
    intro shorter _ _ hne hlength
    have hpos := List.length_pos_of_ne_nil hne
    rw [List.length_singleton] at hlength
    omega

/-- If no place is read after the first character, the path goes on. -/
theorem isShortestPath_cons_of_none (hc : c ≠ '\n') (hhere : readPlace? rest = none) :
    IsShortestPath (c :: rest) path found ↔
      ∃ tail, path = c :: tail ∧ IsShortestPath rest tail found := by
  constructor
  · -- Without its first character the path is still the shortest in what is left.
    intro h
    obtain ⟨tail, after, rfl, rfl, hread⟩ := h.exists_tail
    refine ⟨tail, rfl, ?_, fun hmem => h.path_one_line (List.mem_cons_of_mem _ hmem),
      ⟨after, rfl, hread⟩, ?_⟩
    · rintro rfl
      rw [List.nil_append, hread] at hhere
      cases hhere
    · intro shorter behind hsplit _ hlength
      exact h.shorter_reads_none (c :: shorter) behind (by rw [hsplit, List.cons_append])
        (List.cons_ne_nil _ _) (by simpa using hlength)
  · rintro ⟨tail, rfl, h⟩
    obtain ⟨after, rfl, hread⟩ := h.reads
    refine ⟨List.cons_ne_nil _ _, ?_, ⟨after, rfl, hread⟩, ?_⟩
    · rw [List.mem_cons, not_or]
      exact ⟨Ne.symm hc, h.path_one_line⟩
    · intro shorter behind hsplit hne hlength
      obtain ⟨d, shorter, rfl⟩ := List.exists_cons_of_ne_nil hne
      rw [List.cons_append] at hsplit
      obtain ⟨rfl, hbehind⟩ := List.cons_eq_cons.mp hsplit
      -- Of the shorter ones the single character is new, and no place is read after that.
      by_cases hempty : shorter = []
      · rw [hempty, List.nil_append] at hbehind
        rw [← hbehind, hhere]
      · exact h.shorter_reads_none shorter behind hbehind hempty (by simpa using hlength)

end Cons

/-- The path, the place and the rest that are read are those of the shortest path. -/
theorem splitPlace?_eq_some_iff {cs path : List Char} {found : (List Char × List Char) × List Char} :
    splitPlace? cs = some (path, found) ↔ IsShortestPath cs path found := by
  -- Character by character, as the path is taken: each is the end of the path or goes into it.
  induction cs generalizing path with
  | nil => simpa [splitPlace?] using not_isShortestPath_nil
  | cons c rest ih =>
    unfold splitPlace?
    by_cases hc : c = '\n'
    · rw [if_pos hc]
      constructor
      · intro h
        cases h
      · intro h
        obtain ⟨tail, -, rfl, -, -⟩ := h.exists_tail
        exact absurd (hc ▸ List.mem_cons_self) h.path_one_line
    · rw [if_neg hc]
      cases hhere : readPlace? rest with
      | some here =>
        rw [isShortestPath_cons_of_some hc hhere]
        simp only [Option.some.injEq, Prod.mk.injEq]
        exact and_congr eq_comm eq_comm
      | none =>
        rw [isShortestPath_cons_of_none hc hhere, Option.map_eq_some_iff]
        constructor
        · rintro ⟨⟨tail, found⟩, hsplit, ⟨⟩⟩
          exact ⟨tail, rfl, ih.mp hsplit⟩
        · rintro ⟨tail, rfl, h⟩
          exact ⟨(tail, found), ih.mpr h, rfl⟩

/-! ## Code and Message -/

theorem splitCode_of_not_mem {code : List Char} (h : ' ' ∉ code) : splitCode code = (code, []) := by
  have hall : ∀ c ∈ code, (c != ' ') = true := by
    intro c hc
    exact bne_iff_ne.mpr fun heq => h (heq ▸ hc)
  unfold splitCode
  rw [List.takeWhile_eq_self_iff.mpr hall, List.dropWhile_eq_nil_iff.mpr hall, List.drop_nil]

theorem splitCode_append {code : List Char} (message : List Char) (h : ' ' ∉ code) :
    splitCode (code ++ ' ' :: message) = (code, message) := by
  have hall : ∀ c ∈ code, (c != ' ') = true := by
    intro c hc
    exact bne_iff_ne.mpr fun heq => h (heq ▸ hc)
  unfold splitCode
  rw [List.takeWhile_append_of_pos hall, List.dropWhile_append_of_pos hall]
  simp

/-! ## Whole Lines -/

/-- The finding that a line with a shortest path states. -/
def findingOf (path line column content : List Char) : Finding where
  path := String.ofList path
  line := digitsValue line
  column := digitsValue column
  code := String.ofList (splitCode content).1
  message := String.ofList (splitCode content).2

variable {limits : Limits}

/-- A line that is taken apart comes to a finding or to a number that is too long. -/
theorem readFinding_of_isShortestPath {text : String} {path line column content : List Char}
    (h : IsShortestPath (trim text.toList) path ((line, column), content)) (hcontent : content ≠ []) :
    readFinding limits text =
      if line.length ≤ limits.digits ∧ column.length ≤ limits.digits then
        .ok (some (findingOf path line column content))
      else .error .tooManyDigits := by
  have hne : ¬ content.isEmpty = true := by simpa using hcontent
  simp only [readFinding, splitPlace?_eq_some_iff.mpr h]
  rw [if_neg hne]
  unfold Limits.readDigits
  -- The line is read before the column, but a number that is too long stops either in the same way.
  by_cases hline : line.length ≤ limits.digits
  · rw [if_pos hline]
    by_cases hcolumn : column.length ≤ limits.digits
    · rw [if_pos hcolumn, if_pos ⟨hline, hcolumn⟩]
      rfl
    · have hboth : ¬ (line.length ≤ limits.digits ∧ column.length ≤ limits.digits) := fun h => hcolumn h.2
      rw [if_neg hcolumn, if_neg hboth]
      rfl
  · have hboth : ¬ (line.length ≤ limits.digits ∧ column.length ≤ limits.digits) := fun h => hline h.1
    rw [if_neg hline, if_neg hboth]
    rfl

/-- A line without a shortest path, or with nothing to say behind its place, states no finding. -/
theorem readFinding_of_forall {text : String}
    (h : ∀ path place content, IsShortestPath (trim text.toList) path (place, content) → content = []) :
    readFinding limits text = .ok none := by
  unfold readFinding
  cases hsplit : splitPlace? (trim text.toList) with
  | none => rfl
  | some found =>
    obtain ⟨path, place, content⟩ := found
    obtain rfl := h path place content (splitPlace?_eq_some_iff.mp hsplit)
    rfl

/-- A line either states no finding whatever the limits are, or has a shortest path with a text
behind its place. -/
theorem readFinding_cases (text : String) :
    (∀ limits, readFinding limits text = .ok none) ∨
      ∃ path line column content,
        IsShortestPath (trim text.toList) path ((line, column), content) ∧ content ≠ [] := by
  by_cases h : ∃ path line column content,
      IsShortestPath (trim text.toList) path ((line, column), content) ∧ content ≠ []
  · exact .inr h
  · refine .inl fun limits => readFinding_of_forall fun path place content hshortest => ?_
    by_contra hcontent
    exact h ⟨path, place.1, place.2, content, hshortest, hcontent⟩

/-- A line states a finding if it has a shortest path, short numbers and a text behind its place. -/
theorem readFinding_eq_ok_some_iff {text : String} {found : Finding} :
    readFinding limits text = .ok (some found) ↔
      ∃ path line column content, IsShortestPath (trim text.toList) path ((line, column), content) ∧
        content ≠ [] ∧ (line.length ≤ limits.digits ∧ column.length ≤ limits.digits) ∧
        findingOf path line column content = found := by
  constructor
  · intro h
    -- There is a shortest path since something is stated, and it is the one that is taken.
    rcases readFinding_cases text with hnone | ⟨path, line, column, content, hshortest, hcontent⟩
    · cases (hnone limits).symm.trans h
    · rw [readFinding_of_isShortestPath hshortest hcontent] at h
      split at h
      next hfits =>
        exact ⟨path, line, column, content, hshortest, hcontent, hfits, Option.some.inj (Except.ok.inj h)⟩
      next => cases h
  · rintro ⟨path, line, column, content, hshortest, hcontent, hfits, rfl⟩
    rw [readFinding_of_isShortestPath hshortest hcontent, if_pos hfits]

/-- Reading stops if a line has a shortest path and a text behind its place, and a number there is
too long. -/
theorem readFinding_eq_error_iff {text : String} {stop : Stop} :
    readFinding limits text = .error stop ↔ stop = .tooManyDigits ∧
      ∃ path line column content, IsShortestPath (trim text.toList) path ((line, column), content) ∧
        content ≠ [] ∧ ¬ (line.length ≤ limits.digits ∧ column.length ≤ limits.digits) := by
  constructor
  · intro h
    rcases readFinding_cases text with hnone | ⟨path, line, column, content, hshortest, hcontent⟩
    · cases (hnone limits).symm.trans h
    · rw [readFinding_of_isShortestPath hshortest hcontent] at h
      split at h
      next => cases h
      next hlong =>
        exact ⟨(Except.error.inj h).symm, path, line, column, content, hshortest, hcontent, hlong⟩
  · rintro ⟨rfl, path, line, column, content, hshortest, hcontent, hlong⟩
    rw [readFinding_of_isShortestPath hshortest hcontent, if_neg hlong]

/-- A line states nothing exactly if no shortest path leaves a text behind its place. -/
theorem readFinding_eq_ok_none_iff {text : String} :
    readFinding limits text = .ok none ↔
      ∀ path place content, IsShortestPath (trim text.toList) path (place, content) → content = [] := by
  refine ⟨fun h path place content hshortest => ?_, readFinding_of_forall⟩
  by_contra hcontent
  rw [readFinding_of_isShortestPath hshortest hcontent] at h
  split at h <;> cases h

end DocLint.Lint
