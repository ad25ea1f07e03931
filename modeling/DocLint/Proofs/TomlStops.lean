import DocLint.Proofs.TomlDocuments

/-!
# What the Limits of a Host Decide

The host stops at a number with too many digits, or in brackets that nest too deep. So a text at which it stops
has a long run of digits or many opening brackets, and `HasCause` says which. Limits decide only whether a text is
read to its end: of two hosts that both come there, both read the same table, or both find no document. Main
statements: `StopsReading.hasCause`, `read_eq_of_not_stopsReading` and `exists_stopsReading`.
-/

namespace DocLint.Toml

variable {limits other : Limits} {cs rest : List Char}

/-! ## Causes of a Stop -/

/-- Whether a text has a run of digits that are more than a count. Low lines between them are not
counted. -/
def HasLongRun (count : Nat) (text : List Char) : Prop :=
  ∃ run digits, run <:+: text ∧ IsDigitRun isDecimalDigit run digits ∧ count < digits.length

/-- The calls that the opening brackets of a text would take if all of them were inside of one
another. -/
def bracketCalls (text : List Char) : Nat :=
  arrayCalls * text.count '[' + inlineTableCalls * text.count '{'

/-- What must be true of a text for the host to stop in it, with room for so many calls. -/
inductive HasCause (limits : Limits) (room : Nat) (text : List Char) : Stop → Prop where
  /-- The digits need not be those of one number: a date has a run of them too. But no text without
  such a run stops the host for its digits. -/
  | tooManyDigits : HasLongRun limits.digits text → HasCause limits room text .tooManyDigits
  /-- The brackets need not be inside of one another, nor all be brackets of values. But no text
  with fewer stops the host for its depth. -/
  | tooDeep : room < bracketCalls text → HasCause limits room text .tooDeep

/-- An end of a text has no more brackets than the text. -/
theorem bracketCalls_le_of_suffix (h : rest <:+ cs) : bracketCalls rest ≤ bracketCalls cs :=
  Nat.add_le_add (Nat.mul_le_mul_left _ (h.sublist.count_le _)) (Nat.mul_le_mul_left _ (h.sublist.count_le _))

namespace HasCause

variable {room : Nat} {stop : Stop}

/-- A cause that lies towards the end of a text is one in the whole of it. -/
theorem of_suffix (h : HasCause limits room rest stop) (hrest : rest <:+ cs) :
    HasCause limits room cs stop := by
  cases h with
  | tooManyDigits hlong =>
    obtain ⟨run, digits, hrun, hdigits, hcount⟩ := hlong
    exact .tooManyDigits ⟨run, digits, hrun.trans hrest.isInfix, hdigits, hcount⟩
  | tooDeep hdeep => exact .tooDeep (Nat.lt_of_lt_of_le hdeep (bracketCalls_le_of_suffix hrest))

/-- Behind a bracket there is less room, and one bracket fewer. -/
theorem of_goInto {α : Type} {calls : Nat} {c : Char} {read : Nat → Except Failure α}
    (hbracket : bracketCalls (c :: cs) = calls + bracketCalls cs)
    (h : goInto calls room read = .error (.stopped stop))
    (hinside : read (room - calls) = .error (.stopped stop) → HasCause limits (room - calls) cs stop) :
    HasCause limits room (c :: cs) stop := by
  unfold goInto at h
  split at h
  next hroom =>
    cases h
    exact .tooDeep (by omega)
  next hroom =>
    cases hinside h with
    | tooManyDigits hlong => exact of_suffix (.tooManyDigits hlong) (List.suffix_cons c cs)
    | tooDeep hdeep => exact .tooDeep (by omega)

end HasCause

theorem bracketCalls_array (cs : List Char) : bracketCalls ('[' :: cs) = arrayCalls + bracketCalls cs := by
  simp only [bracketCalls, List.count_cons_self, List.count_cons_of_ne (by decide : '[' ≠ '{'), Nat.mul_succ]
  omega

theorem bracketCalls_inlineTable (cs : List Char) :
    bracketCalls ('{' :: cs) = inlineTableCalls + bracketCalls cs := by
  simp only [bracketCalls, List.count_cons_self, List.count_cons_of_ne (by decide : '{' ≠ '['), Nat.mul_succ]
  omega

/-- Of all scalars only a whole number in base ten stops the host, and only by its digits. -/
theorem hasCause_of_readScalar {stop : Stop} (room : Nat)
    (h : readScalar limits cs = .error (.stopped stop)) : HasCause limits room cs stop := by
  unfold readScalar at h
  split at h
  next =>
    split at h
    next => cases h
    next => cases h
  next =>
    split at h
    next => cases h
    next =>
      split at h
      next numeral last hdecimal =>
        -- The digits that the host does not read are those of a run in the text.
        rcases bind_eq_error_iff.mp h with hvalue | ⟨_, -, ⟨⟩⟩
        obtain ⟨run, after, hrun, -, hdigits⟩ := exists_run_of_readDecimal? hdecimal
        unfold Numeral.value at hvalue
        split at hvalue
        next =>
          cases hread : limits.readDigits numeral.whole with
          | ok size =>
            rw [hread] at hvalue
            cases hvalue
          | error found =>
            rw [hread] at hvalue
            cases hvalue
            obtain ⟨hlong, rfl⟩ := Limits.readDigits_eq_error_iff.mp hread
            have hinfix : run <:+: cs := (List.prefix_append run after).isInfix.trans hrun.isInfix
            exact .tooManyDigits ⟨run, numeral.whole, hinfix, hdigits, hlong⟩
        next => cases hvalue
      next => exact absurd h orMalformed_ne_stopped

/-- As where a reader goes well, the induction is on the bound for values, items and pairs at
once. -/
theorem hasCause_of_readValues (limits : Limits) (bound : Nat) :
    (∀ {room cs stop}, readValue limits bound room cs = .error (.stopped stop) →
        HasCause limits room cs stop) ∧
      (∀ {room cs stop}, readItems limits bound room cs = .error (.stopped stop) →
        HasCause limits room cs stop) ∧
      ∀ {room entries cs stop}, readEntries limits bound room entries cs = .error (.stopped stop) →
        HasCause limits room cs stop := by
  induction bound with
  | zero => exact ⟨nofun, nofun, nofun⟩
  | succ bound ih =>
    obtain ⟨hvalue, hitems, hentries⟩ := ih
    refine ⟨?_, ?_, ?_⟩
    · intro room cs stop h
      unfold readValue at h
      split at h
      -- Brackets: the host stops in front of the inside, for want of room, or in it.
      next after =>
        rcases bind_eq_error_iff.mp h with hinside | ⟨_, -, ⟨⟩⟩
        exact .of_goInto (bracketCalls_array after) hinside hitems
      next after =>
        refine .of_goInto (bracketCalls_inlineTable after) h fun hinside => ?_
        split at hinside
        next => cases hinside
        next =>
          rcases bind_eq_error_iff.mp hinside with hread | ⟨_, -, ⟨⟩⟩
          exact (hentries hread).of_suffix (suffix_skipInline after)
      -- Truth values and strings never stop the host.
      next => cases h
      next => cases h
      next =>
        split at h
        next =>
          obtain ⟨_, -, ⟨⟩⟩ := orMalformed_bind_eq_stopped_iff.mp h
        next => exact hasCause_of_readScalar room h
    · intro room cs stop h
      obtain ⟨start, hstart, h⟩ := orMalformed_bind_eq_stopped_iff.mp h
      have hfirst := suffix_of_skipFiller hstart
      split at h
      next => cases h
      next =>
        -- The host stops in the item that is read here, or in one of those after it.
        rcases bind_eq_error_iff.mp h with hitem | ⟨⟨item, after⟩, hitem, h⟩
        · exact (hvalue hitem).of_suffix hfirst
        · obtain ⟨next, hnext, h⟩ := orMalformed_bind_eq_stopped_iff.mp h
          have hafter := (suffix_of_skipFiller hnext).trans ((suffix_of_readValue hitem).trans hfirst)
          split at h
          next => cases h
          next following =>
            rcases bind_eq_error_iff.mp h with hmore | ⟨_, -, ⟨⟩⟩
            exact (hitems hmore).of_suffix ((List.suffix_cons _ _).trans hafter)
          next => cases h
    · intro room entries cs stop h
      obtain ⟨⟨key, afterKey⟩, hkey, h⟩ := orMalformed_bind_eq_stopped_iff.mp h
      obtain ⟨afterMark, hmark, h⟩ := orMalformed_bind_eq_stopped_iff.mp h
      have hstart := (suffix_skipInline afterMark).trans
        ((isProperEnd_of_readMark? hmark).suffix.trans (isProperEnd_of_readKey hkey).suffix)
      -- Keys never stop it either, so it stops in this value or in one of a later pair.
      rcases bind_eq_error_iff.mp h with hread | ⟨⟨value, after⟩, hread, h⟩
      · exact (hvalue hread).of_suffix hstart
      · obtain ⟨added, -, h⟩ := orMalformed_bind_eq_stopped_iff.mp h
        have hblanks := (suffix_skipInline after).trans ((suffix_of_readValue hread).trans hstart)
        split at h
        next => cases h
        next following hcomma =>
          rw [hcomma] at hblanks
          have hnext := (suffix_skipInline following).trans (List.suffix_cons ',' following)
          exact (hentries h).of_suffix (hnext.trans hblanks)
        next => cases h

theorem suffix_of_startsWith {statement : Statement} (h : StartsWith limits cs statement rest) : rest <:+ cs :=
  (isProperEnd_of_readStatement (readStatement_eq_ok_iff.mpr h)).suffix

theorem Reaches.suffix {statements : List Statement} (h : Reaches limits cs statements rest) : rest <:+ cs := by
  induction h with
  | start => exact List.suffix_rfl
  | @blank cs after next rest c statements hcs _ hend _ ih =>
    have hblanks := suffix_skipInline cs
    rw [hcs] at hblanks
    exact ih.trans ((suffix_of_readLineEnd hend).trans hblanks)
  | @line cs after next rest statement statements hstatement hend _ ih =>
    have hafter := (suffix_of_startsWith hstatement).trans (suffix_skipInline cs)
    exact ih.trans ((suffix_of_readLineEnd hend).trans hafter)

/-- **A stop has its cause in the text**: a number with more digits than the host allows, or more
brackets than it has room for. -/
theorem StopsReading.hasCause {text : List Char} {stop : Stop} (h : StopsReading limits text stop) :
    HasCause limits limits.readingCalls text stop := by
  obtain ⟨hreaches, -, hstop⟩ := h
  obtain ⟨hkey, hmark, hvalue⟩ := hstop
  have hcause := (hasCause_of_readValues limits _).1 hvalue
  have hpair := (isProperEnd_of_readMark? hmark).suffix.trans (isProperEnd_of_readKeyFrom hkey).suffix
  have hstart := (suffix_skipInline _).trans (hpair.trans (suffix_skipInline _))
  exact hcause.of_suffix (hstart.trans hreaches.suffix)

/-! ## Other Limits -/

/-- How the results of one run at two hosts are related: they are the same, unless one of the hosts
stops. -/
inductive SameUnlessStopped {α : Type} : Except Failure α → Except Failure α → Prop where
  /-- Both read the same, or find the text malformed. -/
  | same {result : Except Failure α} : SameUnlessStopped result result
  /-- Where the one stops, nothing is said of the other. -/
  | first {stop : Stop} {second : Except Failure α} : SameUnlessStopped (.error (.stopped stop)) second
  /-- And the other way round. -/
  | second {stop : Stop} {first : Except Failure α} : SameUnlessStopped first (.error (.stopped stop))

namespace SameUnlessStopped

variable {α β : Type} {one two : Except Failure α}

/-- Two runs that go on in the same way stay related, for a stop ends a run at once. -/
theorem bind {step later : α → Except Failure β} (h : SameUnlessStopped one two)
    (hstep : ∀ a, SameUnlessStopped (step a) (later a)) : SameUnlessStopped (one >>= step) (two >>= later) := by
  cases h with
  | first => exact .first
  | second => exact .second
  | same =>
    cases one with
    | error => exact .same
    | ok a => exact hstep a

/-- The hosts may have different room for a bracket. One that has none stops there, which excuses
anything that the other reads inside. -/
theorem goInto {calls room otherRoom : Nat} {read later : Nat → Except Failure α}
    (h : ∀ room otherRoom, SameUnlessStopped (read room) (later otherRoom)) :
    SameUnlessStopped (Toml.goInto calls room read) (Toml.goInto calls otherRoom later) := by
  unfold Toml.goInto
  split
  · exact .first
  · split
    · exact .second
    · exact h _ _

theorem eq_of_ne (h : SameUnlessStopped one two) (hone : ∀ stop, one ≠ .error (.stopped stop))
    (htwo : ∀ stop, two ≠ .error (.stopped stop)) : one = two := by
  cases h with
  | same => rfl
  | first => exact absurd rfl (hone _)
  | second => exact absurd rfl (htwo _)

end SameUnlessStopped

/-- A number that both hosts read is the same number at both. -/
theorem sameUnlessStopped_value (numeral : Numeral) :
    SameUnlessStopped ((numeral.value limits).mapError .stopped) ((numeral.value other).mapError .stopped) := by
  by_cases hwhole : numeral.fraction.isEmpty ∧ numeral.exponent.isNone
  -- Only of a whole number are the digits counted.
  · simp only [Numeral.value, hwhole, and_self, if_true]
    cases hone : limits.readDigits numeral.whole with
    | error => exact .first
    | ok size =>
      cases htwo : other.readDigits numeral.whole with
      | error => exact .second
      | ok otherSize =>
        obtain rfl := (Limits.readDigits_eq_ok_iff.mp hone).2
        obtain rfl := (Limits.readDigits_eq_ok_iff.mp htwo).2
        exact .same
  · simp only [Numeral.value, hwhole, if_false]
    exact .same

/-- Moments, fractions and numbers in another base do not depend on the host at all, and whole
numbers in base ten only by whether it stops. -/
theorem sameUnlessStopped_readScalar :
    SameUnlessStopped (readScalar limits cs) (readScalar other cs) := by
  unfold readScalar
  split
  · exact .same
  · split
    · exact .same
    · split
      · exact (sameUnlessStopped_value _).bind fun _ => .same
      · exact .same

/-- The bound counts down at both hosts alike, so the induction is on it, for any room that either
of them has left. -/
theorem sameUnlessStopped_readValues (limits other : Limits) (bound : Nat) :
    (∀ {room otherRoom cs},
        SameUnlessStopped (readValue limits bound room cs) (readValue other bound otherRoom cs)) ∧
      (∀ {room otherRoom cs},
        SameUnlessStopped (readItems limits bound room cs) (readItems other bound otherRoom cs)) ∧
      ∀ {room otherRoom entries cs}, SameUnlessStopped (readEntries limits bound room entries cs)
        (readEntries other bound otherRoom entries cs) := by
  induction bound with
  | zero => exact ⟨.same, .same, .same⟩
  | succ bound ih =>
    obtain ⟨hvalue, hitems, hentries⟩ := ih
    refine ⟨?_, ?_, ?_⟩
    · intro room otherRoom cs
      generalize hone : readValue limits (bound + 1) room cs = one
      unfold readValue at hone
      split at hone
      -- Brackets, for which the room is not the same, and what has no inside.
      · rw [← hone, readValue]
        exact SameUnlessStopped.bind (.goInto fun _ _ => hitems) fun _ => .same
      · rw [← hone, readValue]
        refine .goInto fun _ _ => ?_
        split
        · exact .same
        · exact hentries.bind fun _ => .same
      · exact hone ▸ .same
      · exact hone ▸ .same
      · rw [← hone, readValue]
        · split
          · exact .same
          · exact sameUnlessStopped_readScalar
        all_goals assumption
    -- Fillers, keys and marks are read without limits, so there both results are one.
    · intro room otherRoom cs
      rw [readItems, readItems]
      refine SameUnlessStopped.same.bind fun start => ?_
      split
      · exact .same
      · refine hvalue.bind fun _ => SameUnlessStopped.same.bind fun _ => ?_
        split
        · exact .same
        · exact hitems.bind fun _ => .same
        · exact .same
    · intro room otherRoom entries cs
      rw [readEntries, readEntries]
      refine SameUnlessStopped.same.bind fun _ => SameUnlessStopped.same.bind fun _ => ?_
      refine hvalue.bind fun _ => SameUnlessStopped.same.bind fun _ => ?_
      split
      · exact .same
      · exact hentries
      · exact .same

/-- Headers are read alike at every host, and pairs unless one stops at the value. -/
theorem sameUnlessStopped_readStatement :
    SameUnlessStopped (readStatement limits cs) (readStatement other cs) := by
  unfold readStatement
  split
  · exact .same
  · exact .same
  · refine SameUnlessStopped.same.bind fun _ => SameUnlessStopped.same.bind fun _ => ?_
    exact ((sameUnlessStopped_readValues limits other _).1).bind fun _ => .same

/-- A host that does not stop in a line has the same document after it as any other. -/
theorem sameUnlessStopped_readLines {bound : Nat} {outline : Outline} :
    SameUnlessStopped (readLines limits bound outline cs) (readLines other bound outline cs) := by
  induction bound generalizing outline cs with
  | zero => exact .same
  | succ bound ih =>
    rw [readLines, readLines]
    split
    · exact .same
    · split
      · exact SameUnlessStopped.same.bind fun _ => ih
      · refine sameUnlessStopped_readStatement.bind fun _ => ?_
        exact SameUnlessStopped.same.bind fun _ => SameUnlessStopped.same.bind fun _ => ih

/-- **Limits decide only whether a text is read to its end**, not what is read. -/
theorem read_eq_of_not_stopsReading {text : List Char} (h : ∀ stop, ¬ StopsReading limits text stop)
    (hother : ∀ stop, ¬ StopsReading other text stop) : read limits text = read other text := by
  have hsame : SameUnlessStopped (read limits text) (read other text) :=
    sameUnlessStopped_readLines.bind fun _ => .same
  refine hsame.eq_of_ne (fun stop hread => ?_) fun stop hread => ?_
  · exact h stop (read_eq_stopped_iff.mp hread)
  · exact hother stop (read_eq_stopped_iff.mp hread)

/-! ## A Number That Is Too Long

Ones alone are no date, no time and no number in another base, so they are read as a whole number in base ten. -/

theorem readMoreDigits_replicate (n : Nat) :
    readMoreDigits isDecimalDigit (List.replicate n '1') = (List.replicate n '1', []) := by
  induction n with
  | zero => rfl
  | succ n ih =>
    rw [List.replicate_succ, readMoreDigits, if_pos (by decide), ih]
    exact nofun

/-- Among ones there is no mark. -/
theorem readMark?_replicate {mark : Char} (hmark : '1' ≠ mark) (n : Nat) :
    readMark? mark (List.replicate n '1') = none := by
  cases n with
  | zero => rfl
  | succ n => rw [List.replicate_succ, readMark?, if_neg hmark]

/-- Both a date and a time need a mark behind their first part. -/
theorem readMoment?_replicate (n : Nat) : readMoment? (List.replicate n '1') = none := by
  -- A part of any width leaves ones again, and no mark among them.
  have hfixed : ∀ {width number : Nat} {rest : List Char},
      readFixed? width (List.replicate n '1') = some (number, rest) → rest = List.replicate (n - width) '1' := by
    intro width number rest h
    simp only [readFixed?] at h
    split_ifs at h
    cases h
    exact List.drop_replicate
  have hdate : readDate? (List.replicate n '1') = none := by
    have hmark := readMark?_replicate (by decide : '1' ≠ '-')
    apply Option.bind_eq_none_iff.mpr
    rintro ⟨year, rest⟩ hyear
    simp only [hfixed hyear, hmark]
    rfl
  have htime : readTime? (List.replicate n '1') = none := by
    have hmark := readMark?_replicate (by decide : '1' ≠ ':')
    apply Option.bind_eq_none_iff.mpr
    rintro ⟨⟨hour, minute⟩, rest⟩ hread
    obtain ⟨⟨found, afterHour⟩, hhour, h⟩ := Option.bind_eq_some_iff.mp hread
    simp only [hfixed hhour, hmark] at h
    cases h
  simp only [readMoment?, hdate, htime, Option.map_none]

/-- Every host stops at some text: at a pair whose value has one digit more than it allows. -/
theorem stopsReading_long_number (limits : Limits) :
    StopsReading limits ('a' :: '=' :: List.replicate (limits.digits + 1) '1') .tooManyDigits := by
  have hwhole : readWhole? (List.replicate (limits.digits + 1) '1') =
      some (List.replicate (limits.digits + 1) '1', []) := by
    show readDigits isDecimalDigit ('1' :: List.replicate limits.digits '1') = _
    rw [readDigits, if_pos (by decide), readMoreDigits_replicate]
    rfl
  have hdecimal : readDecimal? (List.replicate (limits.digits + 1) '1') =
      some (⟨false, List.replicate (limits.digits + 1) '1', [], none⟩, []) := by
    have hsign : readSign (List.replicate (limits.digits + 1) '1') =
        (false, List.replicate (limits.digits + 1) '1') := rfl
    simp only [readDecimal?, hsign, hwhole]
    rfl
  have hscalar : readScalar limits (List.replicate (limits.digits + 1) '1') =
      .error (.stopped .tooManyDigits) := by
    have hlong : ¬ (List.replicate (limits.digits + 1) '1').length ≤ limits.digits := by
      rw [List.length_replicate]
      exact Nat.not_succ_le_self _
    have hbased : readBased? (List.replicate (limits.digits + 1) '1') = none := rfl
    simp only [readScalar, readMoment?_replicate, hbased, hdecimal, Numeral.value, Limits.readDigits, hlong,
      if_false]
    rfl
  have hvalue : readValue limits 1 limits.readingCalls (List.replicate (limits.digits + 1) '1') =
      .error (.stopped .tooManyDigits) := hscalar
  have hkey : readKeyFrom 1 [] ('a' :: '=' :: List.replicate (limits.digits + 1) '1') =
      some (⟨[], "a"⟩, '=' :: List.replicate (limits.digits + 1) '1') := rfl
  exact .atValue .start rfl (.pair hkey rfl hvalue)

end DocLint.Toml
