import DocLint.Toml.Document
import DocLint.Proofs.Stops
import Mathlib.Data.List.Infix
import Mathlib.Data.List.TakeWhile

/-!
# What the TOML Readers Leave

A reader takes characters from the front of a text and hands the others on as they are. So what it leaves is an
end of what it was given, and a reader made of several leaves an end of what the first one left. This file says
so for every reader, from blanks to whole lines, in the order in which they are built on each other.

Nothing is ever given back: a reader that looks ahead and does not like what it sees hands on the text from
before it looked, which is an end of itself. Names, marks and statements take one character at least. They are
what each round of a loop over keys, pairs or lines reads, so that these loops end.
-/

namespace DocLint.Toml

/-! ## Ends of a Text -/

/-- Whether a text is an end of another that leaves out its first character at least. -/
inductive IsProperEnd (rest : List Char) : List Char → Prop where
  | cons {c : Char} {cs : List Char} : rest <:+ cs → IsProperEnd rest (c :: cs)

variable {cs mid rest : List Char}

theorem suffix_cons_of_suffix {c : Char} (h : rest <:+ cs) : rest <:+ c :: cs :=
  h.trans (List.suffix_cons c cs)

namespace IsProperEnd

theorem suffix (h : IsProperEnd rest cs) : rest <:+ cs := by
  obtain ⟨h⟩ := h
  exact suffix_cons_of_suffix h

/-- A proper end is shorter. This is what makes the loops over keys, pairs and lines come to an
end. -/
theorem length_lt (h : IsProperEnd rest cs) : rest.length < cs.length := by
  obtain ⟨h⟩ := h
  exact Nat.lt_succ_of_le h.length_le

/-- What leaves out a character of an end leaves one out of the whole. -/
theorem of_suffix (h : IsProperEnd rest mid) (hmid : mid <:+ cs) : IsProperEnd rest cs := by
  obtain ⟨h⟩ := h
  cases cs with
  | nil => exact absurd (List.suffix_nil.mp hmid) (List.cons_ne_nil _ _)
  | cons c cs =>
    rcases List.suffix_cons_iff.mp hmid with heq | hmid
    · obtain ⟨-, rfl⟩ := List.cons.inj heq
      exact .cons h
    · exact .cons ((suffix_cons_of_suffix h).trans hmid)

end IsProperEnd

/-- Reading on after a character has been left out leaves out no fewer. -/
theorem isProperEnd_of_suffix (h : rest <:+ mid) (hmid : IsProperEnd mid cs) : IsProperEnd rest cs := by
  obtain ⟨hmid⟩ := hmid
  exact .cons (h.trans hmid)

/-! ## Blanks and Comments

Blanks are dropped from the front. A comment goes up to a line feed, which stays, or to the end of the text. -/

/-- Blanks are dropped one by one from the front, up to the first character that is none. -/
theorem suffix_skipInline (cs : List Char) : skipInline cs <:+ cs :=
  List.dropWhile_suffix isInline

theorem suffix_skipSpace (cs : List Char) : skipSpace cs <:+ cs :=
  List.dropWhile_suffix isSpace

/-- A comment is dropped up to its line feed. Where there is none, the text stays as it is. -/
theorem suffix_of_skipComment (h : skipComment cs = some rest) : rest <:+ cs := by
  unfold skipComment at h
  split at h
  · split_ifs at h
    obtain rfl := Option.some.inj h
    exact suffix_cons_of_suffix (List.dropWhile_suffix _)
  · obtain rfl := Option.some.inj h
    exact List.suffix_rfl

/-- Between the items of an array. The two ways to go on, outside of a comment and within one, hand
over to each other, so the induction is for both at once. -/
theorem suffix_of_skipFiller_and (cs : List Char) :
    (∀ rest, skipFiller cs = some rest → rest <:+ cs) ∧
      ∀ rest, skipCommentAndFiller cs = some rest → rest <:+ cs := by
  induction cs with
  | nil => simp [skipFiller, skipCommentAndFiller]
  | cons c cs ih =>
    obtain ⟨hfiller, hcomment⟩ := ih
    constructor
    · intro rest h
      rw [skipFiller] at h
      split_ifs at h
      · exact suffix_cons_of_suffix (hfiller rest h)
      · exact suffix_cons_of_suffix (hcomment rest h)
      · obtain rfl := Option.some.inj h
        exact List.suffix_rfl
    · intro rest h
      rw [skipCommentAndFiller] at h
      split_ifs at h
      · exact suffix_cons_of_suffix (hfiller rest h)
      · exact suffix_cons_of_suffix (hcomment rest h)

/-- What stands between two items of an array is dropped from the front: blanks, line feeds and
whole comments. -/
theorem suffix_of_skipFiller (h : skipFiller cs = some rest) : rest <:+ cs :=
  (suffix_of_skipFiller_and cs).1 rest h

/-! ## Strings

A string is read character by character or escape by escape up to its closing quotes. What comes out may differ
from what was read, but what is left does not depend on that. -/

/-- An escape by number takes as many characters as its letter says. -/
theorem suffix_of_readHexChar {width : Nat} {c : Char} (h : readHexChar width cs = some (c, rest)) :
    rest <:+ cs := by
  obtain ⟨digits, -, h⟩ := Option.bind_eq_some_iff.mp h
  simp only at h
  split_ifs at h
  cases h
  exact List.drop_suffix width cs

/-- Behind the backslash stands one letter, which is taken, and after some letters a number. -/
theorem suffix_of_readEscape {c : Char} (h : readEscape cs = some (c, rest)) : rest <:+ cs := by
  unfold readEscape at h
  split at h
  · exact suffix_cons_of_suffix (suffix_of_readHexChar h)
  · exact suffix_cons_of_suffix (suffix_of_readHexChar h)
  · obtain ⟨_, -, h⟩ := Option.map_eq_some_iff.mp h
    cases h
    exact List.suffix_cons _ _
  · cases h

/-- A character put in front of what has been read changes nothing about what is left. -/
theorem exists_of_withFirst {c : Char} {read : Option (List Char × List Char)} {chars : List Char}
    (h : withFirst c read = some (chars, rest)) : ∃ more, read = some (more, rest) := by
  obtain ⟨⟨more, last⟩, hread, h⟩ := Option.map_eq_some_iff.mp h
  cases h
  exact ⟨more, hread⟩

/-- Up to the closing quote every character is taken, an escape as a whole. Without a closing quote
there is no string, so nothing has to be given back. -/
theorem suffix_of_readBasic {bound : Nat} {chars : List Char}
    (h : readBasic bound cs = some (chars, rest)) : rest <:+ cs := by
  fun_induction readBasic bound cs generalizing chars rest with
  | case1 => cases h
  | case2 => cases h
  | case3 bound after =>
    -- The closing quote is taken, and the text behind it stays.
    cases h
    exact List.suffix_cons _ _
  | case4 bound after ih =>
    obtain ⟨⟨c, afterEscape⟩, hescape, h⟩ := Option.bind_eq_some_iff.mp h
    obtain ⟨more, hmore⟩ := exists_of_withFirst h
    exact suffix_cons_of_suffix ((ih _ hmore).trans (suffix_of_readEscape hescape))
  | case5 => cases h
  | case6 bound c after _ _ _ ih =>
    obtain ⟨more, hmore⟩ := exists_of_withFirst h
    exact suffix_cons_of_suffix (ih hmore)

/-- A backslash at the end of a line hides the line end and every blank that the next lines start
with. -/
theorem suffix_of_skipHiddenLineEnd (h : skipHiddenLineEnd cs = some rest) : rest <:+ cs := by
  have hblanks := suffix_skipInline cs
  unfold skipHiddenLineEnd at h
  split at h
  next after hcs =>
    -- Behind the blanks stands the line feed that is hidden.
    obtain rfl := Option.some.inj h
    rw [hcs] at hblanks
    exact (suffix_cons_of_suffix (suffix_skipSpace after)).trans hblanks
  next => cases h

/-- Up to two quotes belong to the string itself; any further ones are left. -/
theorem suffix_readExtraQuotes (quote : Char) (cs : List Char) : (readExtraQuotes quote cs).2 <:+ cs := by
  unfold readExtraQuotes
  split
  next a b rest =>
    split_ifs
    · exact List.suffix_rfl
    · exact List.suffix_cons a (b :: rest)
    · exact suffix_cons_of_suffix (List.suffix_cons b rest)
  next a =>
    split_ifs
    · exact List.suffix_rfl
    · exact List.suffix_cons a []
  next => exact List.suffix_rfl

/-- A string of several lines ends at three quotes, or at up to five of which the first are its own.
Before that it goes on in three ways: over a line end that is hidden by a backslash, over an escape,
and over a character. -/
theorem suffix_of_readMultiline {bound : Nat} {chars : List Char}
    (h : readMultiline bound cs = some (chars, rest)) : rest <:+ cs := by
  fun_induction readMultiline bound cs generalizing chars rest with
  | case1 => cases h
  | case2 => cases h
  | case3 bound after =>
    -- The three closing quotes, and up to two more that are the string's own.
    have hquotes := suffix_readExtraQuotes '"' after
    rw [Option.some.inj h] at hquotes
    exact suffix_cons_of_suffix (suffix_cons_of_suffix (suffix_cons_of_suffix hquotes))
  | case4 bound c after hspace ih =>
    obtain ⟨next, hhidden, hmore⟩ := Option.bind_eq_some_iff.mp h
    exact suffix_cons_of_suffix ((ih next hmore).trans (suffix_of_skipHiddenLineEnd hhidden))
  | case5 bound c after hspace ih =>
    obtain ⟨⟨escaped, afterEscape⟩, hescape, h⟩ := Option.bind_eq_some_iff.mp h
    obtain ⟨more, hmore⟩ := exists_of_withFirst h
    exact suffix_cons_of_suffix ((ih afterEscape hmore).trans (suffix_of_readEscape hescape))
  | case6 => cases h
  | case7 bound c after _ _ _ ih =>
    obtain ⟨more, hmore⟩ := exists_of_withFirst h
    exact suffix_cons_of_suffix (ih hmore)

/-- Between apostrophes there are no escapes, so the text itself is what the induction is on. -/
theorem suffix_of_readLiteral {chars : List Char} (h : readLiteral cs = some (chars, rest)) :
    rest <:+ cs := by
  fun_induction readLiteral cs generalizing chars rest with
  | case1 => cases h
  | case2 after =>
    cases h
    exact List.suffix_cons _ _
  | case3 => cases h
  | case4 c after _ _ ih =>
    obtain ⟨more, hmore⟩ := exists_of_withFirst h
    exact suffix_cons_of_suffix (ih hmore)

/-- A literal of several lines has no escapes either, and ends as the other strings of several lines
do. -/
theorem suffix_of_readMultilineLiteral {chars : List Char}
    (h : readMultilineLiteral cs = some (chars, rest)) : rest <:+ cs := by
  fun_induction readMultilineLiteral cs generalizing chars rest with
  | case1 => cases h
  | case2 after =>
    have hquotes := suffix_readExtraQuotes '\'' after
    rw [Option.some.inj h] at hquotes
    exact suffix_cons_of_suffix (suffix_cons_of_suffix (suffix_cons_of_suffix hquotes))
  | case3 => cases h
  | case4 c after _ _ ih =>
    obtain ⟨more, hmore⟩ := exists_of_withFirst h
    exact suffix_cons_of_suffix (ih hmore)

/-- A line feed right behind the three opening quotes is no part of the string. -/
theorem suffix_skipFirstLineEnd (cs : List Char) : skipFirstLineEnd cs <:+ cs := by
  unfold skipFirstLineEnd
  split
  · exact List.suffix_cons _ _
  · exact List.suffix_rfl

/-- A string of any of the four kinds: its opening quotes are taken, and one of the readers above
goes on. -/
theorem suffix_of_readString? {chars : List Char} (h : readString? cs = some (some (chars, rest))) :
    rest <:+ cs := by
  unfold readString? at h
  split at h
  next after =>
    have hstart := (suffix_of_readMultiline (Option.some.inj h)).trans (suffix_skipFirstLineEnd after)
    exact suffix_cons_of_suffix (suffix_cons_of_suffix (suffix_cons_of_suffix hstart))
  next => exact suffix_cons_of_suffix (suffix_of_readBasic (Option.some.inj h))
  next after =>
    have hstart := (suffix_of_readMultilineLiteral (Option.some.inj h)).trans (suffix_skipFirstLineEnd after)
    exact suffix_cons_of_suffix (suffix_cons_of_suffix (suffix_cons_of_suffix hstart))
  next => exact suffix_cons_of_suffix (suffix_of_readLiteral (Option.some.inj h))
  next => cases h

/-! ## Keys

A name is never empty: it is a run of characters of which there is one, or it has quotes around it. -/

/-- A quoted name takes its opening quote at least, and a bare one its first character: the run of
key characters that it is read as is not empty. -/
theorem isProperEnd_of_readName {name : String} (h : readName cs = some (name, rest)) :
    IsProperEnd rest cs := by
  unfold readName at h
  split at h
  · obtain ⟨⟨chars, last⟩, hread, h⟩ := Option.bind_eq_some_iff.mp h
    cases h
    exact .cons (suffix_of_readBasic hread)
  · obtain ⟨⟨chars, last⟩, hread, h⟩ := Option.bind_eq_some_iff.mp h
    cases h
    exact .cons (suffix_of_readLiteral hread)
  -- A bare name: were its first character none of a key, the run would be empty.
  · simp only at h
    split_ifs at h with hname
    cases h
    cases cs with
    | nil => exact absurd rfl hname
    | cons c cs =>
      have hc : isBareKeyChar c = true := by
        by_contra hc
        exact hname (by rw [List.takeWhile_cons_of_neg hc]; rfl)
      rw [List.dropWhile_cons_of_pos hc]
      exact .cons (List.dropWhile_suffix _)

/-- A dotted key: one name, and after a point the others. -/
theorem isProperEnd_of_readKeyFrom {bound : Nat} {parents : List String} {key : Key}
    (h : readKeyFrom bound parents cs = some (key, rest)) : IsProperEnd rest cs := by
  induction bound generalizing parents cs key rest with
  | zero => cases h
  | succ bound ih =>
    obtain ⟨⟨name, afterName⟩, hname, h⟩ := Option.bind_eq_some_iff.mp h
    have hfirst := isProperEnd_of_readName hname
    have hblanks := suffix_skipInline afterName
    simp only at h
    split at h
    -- Behind a point the other names follow, and take characters of their own.
    next after hpoint =>
      rw [hpoint] at hblanks
      have hafter := (ih h).suffix.trans (suffix_skipInline after)
      exact isProperEnd_of_suffix ((suffix_cons_of_suffix hafter).trans hblanks) hfirst
    next =>
      cases h
      exact isProperEnd_of_suffix hblanks hfirst

theorem isProperEnd_of_readKey {key : Key} (h : readKey cs = some (key, rest)) : IsProperEnd rest cs :=
  isProperEnd_of_readKeyFrom h

/-! ## Numbers

The digits of a number stand in the text one after the other, some of them behind a low line. A fraction or an
exponent without digits is none: then the text is left as it was before the point or the letter. -/

/-- Whether a text is a run of digits, each behind a low line or not, and the digits of the run. -/
inductive IsDigitRun (isDigit : Char → Bool) : List Char → List Char → Prop where
  | nil : IsDigitRun isDigit [] []
  | digit {c : Char} {run digits : List Char} :
      isDigit c = true → IsDigitRun isDigit run digits → IsDigitRun isDigit (c :: run) (c :: digits)
  /-- So does one behind a low line, which is not among the digits. -/
  | afterLowLine {c : Char} {run digits : List Char} :
      isDigit c = true → IsDigitRun isDigit run digits →
      IsDigitRun isDigit ('_' :: c :: run) (c :: digits)

/-- What is read as further digits is the longest run from the start of the text. -/
theorem exists_run_readMoreDigits (isDigit : Char → Bool) (cs : List Char) :
    ∃ run, run ++ (readMoreDigits isDigit cs).2 = cs ∧
      IsDigitRun isDigit run (readMoreDigits isDigit cs).1 := by
  fun_induction readMoreDigits isDigit cs with
  -- A low line is taken only together with the digit behind it.
  | case1 c after hc digits last hread ih =>
    obtain ⟨run, hrun, hdigits⟩ := ih
    rw [hread] at hrun hdigits
    exact ⟨'_' :: c :: run, congrArg ('_' :: c :: ·) hrun, .afterLowLine hc hdigits⟩
  | case2 => exact ⟨[], rfl, .nil⟩
  | case3 c after _ hc digits last hread ih =>
    obtain ⟨run, hrun, hdigits⟩ := ih
    rw [hread] at hrun hdigits
    exact ⟨c :: run, congrArg (c :: ·) hrun, .digit hc hdigits⟩
  | case4 => exact ⟨[], rfl, .nil⟩
  | case5 => exact ⟨[], rfl, .nil⟩

/-- A run of digits has a first digit, which stands behind no low line, and goes on from there. -/
theorem exists_run_of_readDigits {isDigit : Char → Bool} {digits : List Char}
    (h : readDigits isDigit cs = some (digits, rest)) :
    ∃ run, run ++ rest = cs ∧ IsDigitRun isDigit run digits := by
  unfold readDigits at h
  split at h
  next c after =>
    split_ifs at h with hc
    obtain ⟨run, hrun, hdigits⟩ := exists_run_readMoreDigits isDigit after
    cases h
    exact ⟨c :: run, congrArg (c :: ·) hrun, .digit hc hdigits⟩
  next => cases h

theorem suffix_of_readDigits {isDigit : Char → Bool} {digits : List Char}
    (h : readDigits isDigit cs = some (digits, rest)) : rest <:+ cs := by
  obtain ⟨run, hrun, -⟩ := exists_run_of_readDigits h
  exact ⟨run, hrun⟩

/-- A zero before the point stands alone, and is a run of one digit. -/
theorem exists_run_of_readWhole? {digits : List Char} (h : readWhole? cs = some (digits, rest)) :
    ∃ run, run ++ rest = cs ∧ IsDigitRun isDecimalDigit run digits := by
  unfold readWhole? at h
  split at h
  · cases h
    exact ⟨['0'], rfl, .digit (by decide) .nil⟩
  · exact exists_run_of_readDigits h

/-- A sign is one character, and most numbers have none. -/
theorem suffix_readSign (cs : List Char) : (readSign cs).2 <:+ cs := by
  unfold readSign
  split
  · exact List.suffix_cons _ _
  · exact List.suffix_cons _ _
  · exact List.suffix_rfl

theorem suffix_of_readBased? {value : Value} (h : readBased? cs = some (value, rest)) : rest <:+ cs := by
  unfold readBased? at h
  split at h
  · obtain ⟨base, -, h⟩ := Option.bind_eq_some_iff.mp h
    obtain ⟨⟨digits, last⟩, hdigits, h⟩ := Option.bind_eq_some_iff.mp h
    cases h
    exact suffix_cons_of_suffix (suffix_cons_of_suffix (suffix_of_readDigits hdigits))
  · cases h

/-- A point without digits behind it makes no fraction, and is left for the reader of the line to
find. -/
theorem suffix_readFraction (cs : List Char) : (readFraction cs).2 <:+ cs := by
  unfold readFraction
  split
  next after =>
    cases hdigits : readDigits isDecimalDigit after with
    | none => exact List.suffix_rfl
    | some found => exact suffix_cons_of_suffix (suffix_of_readDigits hdigits)
  next => exact List.suffix_rfl

/-- Likewise a letter, with or without a sign, that has no digits behind it. -/
theorem suffix_readExponent (cs : List Char) : (readExponent cs).2 <:+ cs := by
  unfold readExponent
  split
  next mark after =>
    split_ifs
    · have hsign := suffix_readSign after
      simp only
      -- Without digits the letter is given back together with the sign.
      split
      next digits last hdigits =>
        exact suffix_cons_of_suffix ((suffix_of_readDigits hdigits).trans hsign)
      next => exact List.suffix_rfl
    · exact List.suffix_rfl
  next => exact List.suffix_rfl

/-- A number in base ten: its sign, a run of digits, and then perhaps a fraction and an exponent. -/
theorem exists_run_of_readDecimal? {numeral : Numeral} (h : readDecimal? cs = some (numeral, rest)) :
    ∃ run after, run ++ after <:+ cs ∧ rest <:+ after ∧ IsDigitRun isDecimalDigit run numeral.whole := by
  obtain ⟨⟨whole, after⟩, hwhole, h⟩ := Option.bind_eq_some_iff.mp h
  obtain ⟨run, hrun, hdigits⟩ := exists_run_of_readWhole? hwhole
  cases h
  refine ⟨run, after, ?_, ?_, hdigits⟩
  · rw [hrun]
    exact suffix_readSign cs
  · exact (suffix_readExponent _).trans (suffix_readFraction after)

/-- Of the three parts of a number, each leaves an end of what the part before it left. -/
theorem suffix_of_readDecimal? {numeral : Numeral} (h : readDecimal? cs = some (numeral, rest)) :
    rest <:+ cs := by
  obtain ⟨run, after, hrun, hrest, -⟩ := exists_run_of_readDecimal? h
  exact hrest.trans ((List.suffix_append run after).trans hrun)

/-- Infinity and not-a-number are words of three letters, with or without a sign. -/
theorem suffix_of_readNonFinite? {value : Value} (h : readNonFinite? cs = some (value, rest)) :
    rest <:+ cs := by
  have hsign := suffix_readSign cs
  simp only [readNonFinite?] at h
  split at h
  next after hunsigned =>
    cases h
    rw [hunsigned] at hsign
    exact (suffix_cons_of_suffix (suffix_cons_of_suffix (List.suffix_cons _ _))).trans hsign
  next after hunsigned =>
    cases h
    rw [hunsigned] at hsign
    exact (suffix_cons_of_suffix (suffix_cons_of_suffix (List.suffix_cons _ _))).trans hsign
  next => cases h

/-! ## Dates and Times

Their parts have fixed widths and single marks between them. Where the time of a date is malformed, the date is
read alone, and the blank or letter after it is left. -/

/-- A part of a date or a time takes as many characters as it is wide. -/
theorem suffix_of_readFixed? {width number : Nat} (h : readFixed? width cs = some (number, rest)) :
    rest <:+ cs := by
  simp only [readFixed?] at h
  split_ifs at h
  cases h
  exact List.drop_suffix width cs

/-- A mark is one character, and it is there or nothing is read. -/
theorem isProperEnd_of_readMark? {mark : Char} (h : readMark? mark cs = some rest) : IsProperEnd rest cs := by
  unfold readMark? at h
  split at h
  · split_ifs at h
    cases h
    exact .cons List.suffix_rfl
  · cases h

/-- A date is read part by part, with a dash before the month and the day. -/
theorem suffix_of_readDate? {date : Date} (h : readDate? cs = some (date, rest)) : rest <:+ cs := by
  obtain ⟨⟨year, afterYear⟩, hyear, h⟩ := Option.bind_eq_some_iff.mp h
  obtain ⟨monthStart, hmonthMark, h⟩ := Option.bind_eq_some_iff.mp h
  obtain ⟨⟨month, afterMonth⟩, hmonth, h⟩ := Option.bind_eq_some_iff.mp h
  obtain ⟨dayStart, hdayMark, h⟩ := Option.bind_eq_some_iff.mp h
  obtain ⟨⟨day, last⟩, hday, h⟩ := Option.bind_eq_some_iff.mp h
  cases h
  -- From the last part back to the first.
  have hfromMonth := (suffix_of_readFixed? hday).trans (isProperEnd_of_readMark? hdayMark).suffix
  have hfromYear := (suffix_of_readFixed? hmonth).trans (isProperEnd_of_readMark? hmonthMark).suffix
  exact hfromMonth.trans (hfromYear.trans (suffix_of_readFixed? hyear))

theorem suffix_of_readHourMinute? {time : Nat × Nat} (h : readHourMinute? cs = some (time, rest)) :
    rest <:+ cs := by
  obtain ⟨⟨hour, afterHour⟩, hhour, h⟩ := Option.bind_eq_some_iff.mp h
  obtain ⟨minuteStart, hmark, h⟩ := Option.bind_eq_some_iff.mp h
  obtain ⟨⟨minute, last⟩, hminute, h⟩ := Option.bind_eq_some_iff.mp h
  simp only at h
  split_ifs at h
  cases h
  have hfromHour := (suffix_of_readFixed? hminute).trans (isProperEnd_of_readMark? hmark).suffix
  exact hfromHour.trans (suffix_of_readFixed? hhour)

/-- Of the digits behind the point all are taken, though only six count. -/
theorem suffix_readMicroseconds (cs : List Char) : (readMicroseconds cs).2 <:+ cs := by
  unfold readMicroseconds
  split
  · simp only
    split_ifs
    · exact List.suffix_rfl
    · exact suffix_cons_of_suffix (List.dropWhile_suffix _)
  · exact List.suffix_rfl

theorem suffix_of_readTime? {time : TimeOfDay} (h : readTime? cs = some (time, rest)) : rest <:+ cs := by
  obtain ⟨⟨⟨hour, minute⟩, afterMinute⟩, hminute, h⟩ := Option.bind_eq_some_iff.mp h
  obtain ⟨secondStart, hmark, h⟩ := Option.bind_eq_some_iff.mp h
  obtain ⟨⟨second, afterSecond⟩, hsecond, h⟩ := Option.bind_eq_some_iff.mp h
  simp only at h
  split_ifs at h
  cases h
  have hfromMinute := (suffix_of_readFixed? hsecond).trans (isProperEnd_of_readMark? hmark).suffix
  exact (suffix_readMicroseconds afterSecond).trans (hfromMinute.trans (suffix_of_readHourMinute? hminute))

/-- An offset is a letter, or a sign with an hour and a minute. A sign with anything else behind it
is left, and so is whatever starts no offset. -/
theorem suffix_readOffset (cs : List Char) : (readOffset cs).2 <:+ cs := by
  unfold readOffset
  split
  next mark after =>
    split
    · exact List.suffix_cons mark after
    · split
      · split
        next hour minute last htime => exact suffix_cons_of_suffix (suffix_of_readHourMinute? htime)
        next => exact List.suffix_rfl
      · exact List.suffix_rfl
  next => exact List.suffix_rfl

/-- A moment is a time alone, a date alone, or a date with a time and perhaps an offset. In the
third case a malformed time is given back with its mark, and what is left is what the date left. -/
theorem suffix_of_readMoment? {m : Moment} (h : readMoment? cs = some (m, rest)) : rest <:+ cs := by
  unfold readMoment? at h
  split at h
  next =>
    obtain ⟨⟨time, last⟩, htime, h⟩ := Option.map_eq_some_iff.mp h
    cases h
    exact suffix_of_readTime? htime
  next date afterDate hdate =>
    have hstart := suffix_of_readDate? hdate
    split at h
    next mark after =>
      split_ifs at h
      · split at h
        next time afterTime htime =>
          cases h
          have hfromMark := (suffix_readOffset afterTime).trans (suffix_of_readTime? htime)
          exact (suffix_cons_of_suffix hfromMark).trans hstart
        -- Without a time behind it the mark is left: a blank may stand between a date and a
        -- comment.
        next =>
          cases h
          exact hstart
      · cases h
        exact hstart
    next =>
      cases h
      exact hstart

/-! ## Scalars and Values

From here on readers may also be stopped by the host. What is left is asked for only where they go well. -/

theorem orMalformed_eq_ok_iff {α : Type} {found : Option α} {a : α} :
    orMalformed found = .ok a ↔ found = some a := by
  cases found <;> simp [orMalformed]

@[simp]
theorem orMalformed_some_bind {α β : Type} {a : α} {step : α → Except Failure β} :
    orMalformed (some a) >>= step = step a :=
  rfl

/-- A scalar is read by the first reader that finds one: of moments, of numbers in another base, of
numbers in base ten, and of infinity and not-a-number. -/
theorem suffix_of_readScalar {limits : Limits} {value : Value}
    (h : readScalar limits cs = .ok (value, rest)) : rest <:+ cs := by
  unfold readScalar at h
  split at h
  next m last hmoment =>
    split_ifs at h
    cases h
    exact suffix_of_readMoment? hmoment
  next =>
    split at h
    next found hbased =>
      cases h
      exact suffix_of_readBased? hbased
    next =>
      split at h
      next numeral last hdecimal =>
        obtain ⟨_, -, h⟩ := bind_eq_ok_iff.mp h
        cases h
        exact suffix_of_readDecimal? hdecimal
      next => exact suffix_of_readNonFinite? (orMalformed_eq_ok_iff.mp h)

/-- The readers inside of a bracket are the same with less room. -/
theorem of_goInto_eq_ok {α : Type} {calls room : Nat} {read : Nat → Except Failure α} {a : α}
    (h : goInto calls room read = .ok a) : read (room - calls) = .ok a := by
  unfold goInto at h
  split_ifs at h
  exact h

/-- Values, items and pairs call each other, and each call counts the bound down, so the induction
is on the bound for all three at once. -/
theorem suffix_of_readValues (limits : Limits) (bound : Nat) :
    (∀ {room cs rest value}, readValue limits bound room cs = .ok (value, rest) → rest <:+ cs) ∧
      (∀ {room cs rest items}, readItems limits bound room cs = .ok (items, rest) → rest <:+ cs) ∧
      ∀ {room cs rest entries found}, readEntries limits bound room entries cs = .ok (found, rest) →
        rest <:+ cs := by
  induction bound with
  | zero => exact ⟨nofun, nofun, nofun⟩
  | succ bound ih =>
    obtain ⟨hvalue, hitems, hentries⟩ := ih
    refine ⟨?_, ?_, ?_⟩
    · intro room cs rest value h
      unfold readValue at h
      split at h
      -- An array.
      next after =>
        obtain ⟨⟨items, last⟩, hinside, h⟩ := bind_eq_ok_iff.mp h
        cases h
        exact suffix_cons_of_suffix (hitems (of_goInto_eq_ok hinside))
      -- An inline table, empty or with pairs.
      next after =>
        have hblanks := suffix_skipInline after
        have hinside := of_goInto_eq_ok h
        simp only at hinside
        split at hinside
        next last hclose =>
          cases hinside
          rw [hclose] at hblanks
          exact suffix_cons_of_suffix ((List.suffix_cons _ _).trans hblanks)
        next =>
          obtain ⟨⟨entries, last⟩, hread, h⟩ := bind_eq_ok_iff.mp hinside
          cases h
          exact suffix_cons_of_suffix ((hentries hread).trans hblanks)
      -- The two truth values.
      next =>
        cases h
        exact ⟨['t', 'r', 'u', 'e'], rfl⟩
      next =>
        cases h
        exact ⟨['f', 'a', 'l', 's', 'e'], rfl⟩
      -- A string, and whatever else.
      next =>
        split at h
        next string hstring =>
          obtain ⟨⟨chars, last⟩, hread, h⟩ := bind_eq_ok_iff.mp h
          cases h
          rw [orMalformed_eq_ok_iff.mp hread] at hstring
          exact suffix_of_readString? hstring
        next => exact suffix_of_readScalar h
    -- Items: the closing bracket, or a value with a bracket or a comma behind it.
    · intro room cs rest items h
      obtain ⟨start, hstart, h⟩ := bind_eq_ok_iff.mp h
      have hfirst := suffix_of_skipFiller (orMalformed_eq_ok_iff.mp hstart)
      split at h
      next last =>
        cases h
        exact (List.suffix_cons _ _).trans hfirst
      next =>
        obtain ⟨⟨item, after⟩, hitem, h⟩ := bind_eq_ok_iff.mp h
        obtain ⟨next, hnext, h⟩ := bind_eq_ok_iff.mp h
        have hafter := (suffix_of_skipFiller (orMalformed_eq_ok_iff.mp hnext)).trans (hvalue hitem)
        have hmark := hafter.trans hfirst
        split at h
        next last =>
          cases h
          exact (List.suffix_cons _ _).trans hmark
        next following =>
          obtain ⟨⟨more, last⟩, hmore, h⟩ := bind_eq_ok_iff.mp h
          cases h
          exact (suffix_cons_of_suffix (hitems hmore)).trans hmark
        next => cases h
    -- Pairs: a key, its equals sign and a value, with a brace or a comma behind it.
    · intro room cs rest entries found h
      obtain ⟨⟨key, afterKey⟩, hkey, h⟩ := bind_eq_ok_iff.mp h
      obtain ⟨afterMark, hmark, h⟩ := bind_eq_ok_iff.mp h
      obtain ⟨⟨value, after⟩, hread, h⟩ := bind_eq_ok_iff.mp h
      obtain ⟨added, -, h⟩ := bind_eq_ok_iff.mp h
      have hpair := ((isProperEnd_of_readMark? (orMalformed_eq_ok_iff.mp hmark)).suffix).trans
        (isProperEnd_of_readKey (orMalformed_eq_ok_iff.mp hkey)).suffix
      have hblanks := suffix_skipInline after
      have hafter := hblanks.trans ((hvalue hread).trans ((suffix_skipInline afterMark).trans hpair))
      split at h
      next last hclose =>
        cases h
        rw [hclose] at hafter
        exact (List.suffix_cons _ _).trans hafter
      next following hcomma =>
        rw [hcomma] at hafter
        exact (suffix_cons_of_suffix ((hentries h).trans (suffix_skipInline following))).trans hafter
      next => cases h

theorem suffix_of_readValue {limits : Limits} {bound room : Nat} {value : Value}
    (h : readValue limits bound room cs = .ok (value, rest)) : rest <:+ cs :=
  (suffix_of_readValues limits bound).1 h

/-! ## Lines

A header takes its brackets, and a pair its key and its equals sign. -/

/-- What a line states is a header of tables, a header of one table or a pair, and each of them
takes a bracket or a name. -/
theorem isProperEnd_of_readStatement {limits : Limits} {statement : Statement}
    (h : readStatement limits cs = .ok (statement, rest)) : IsProperEnd rest cs := by
  unfold readStatement at h
  split at h
  -- Both opening brackets, the key, and both closing ones.
  next after =>
    obtain ⟨⟨key, afterKey⟩, hkey, h⟩ := bind_eq_ok_iff.mp h
    obtain ⟨afterMark, hmark, h⟩ := bind_eq_ok_iff.mp h
    obtain ⟨last, hlast, h⟩ := bind_eq_ok_iff.mp h
    cases h
    have hname := isProperEnd_of_readKey (orMalformed_eq_ok_iff.mp hkey)
    have hclose := (isProperEnd_of_readMark? (orMalformed_eq_ok_iff.mp hlast)).suffix.trans
      (isProperEnd_of_readMark? (orMalformed_eq_ok_iff.mp hmark)).suffix
    have hinside := hclose.trans (hname.suffix.trans (suffix_skipInline after))
    exact .cons (suffix_cons_of_suffix hinside)
  next after _ =>
    obtain ⟨⟨key, afterKey⟩, hkey, h⟩ := bind_eq_ok_iff.mp h
    obtain ⟨last, hlast, h⟩ := bind_eq_ok_iff.mp h
    cases h
    have hname := isProperEnd_of_readKey (orMalformed_eq_ok_iff.mp hkey)
    have hclose := (isProperEnd_of_readMark? (orMalformed_eq_ok_iff.mp hlast)).suffix
    exact .cons (hclose.trans (hname.suffix.trans (suffix_skipInline after)))
  -- A pair has no bracket, but its key is a proper part of the text.
  next =>
    obtain ⟨⟨key, afterKey⟩, hkey, h⟩ := bind_eq_ok_iff.mp h
    obtain ⟨afterMark, hmark, h⟩ := bind_eq_ok_iff.mp h
    obtain ⟨⟨value, last⟩, hvalue, h⟩ := bind_eq_ok_iff.mp h
    cases h
    have hname := isProperEnd_of_readKey (orMalformed_eq_ok_iff.mp hkey)
    have hequals := (isProperEnd_of_readMark? (orMalformed_eq_ok_iff.mp hmark)).suffix
    have hread := (suffix_of_readValue hvalue).trans (suffix_skipInline afterMark)
    exact isProperEnd_of_suffix (hread.trans hequals) hname

/-- A line ends the text or takes at least its line feed from it. -/
theorem nil_or_isProperEnd_of_readLineEnd (h : readLineEnd cs = some rest) :
    rest = [] ∨ IsProperEnd rest cs := by
  obtain ⟨after, hcomment, h⟩ := Option.bind_eq_some_iff.mp h
  have hafter := (suffix_of_skipComment hcomment).trans (suffix_skipInline cs)
  split at h
  next =>
    cases h
    exact .inl rfl
  next c last =>
    split_ifs at h
    cases h
    exact .inr (IsProperEnd.of_suffix (.cons List.suffix_rfl) hafter)

theorem suffix_of_readLineEnd (h : readLineEnd cs = some rest) : rest <:+ cs := by
  rcases nil_or_isProperEnd_of_readLineEnd h with rfl | hend
  · exact List.nil_suffix
  · exact hend.suffix

end DocLint.Toml
