import DocLint.Proofs.TomlSuffixes

/-!
# Bounds of the TOML Readers

Where a reader of documents calls itself, a bound goes along and counts down. Every reader leaves an end of its
text, so a bound that is larger than the text is never used up. A bound that is used up shows as malformed text;
any other result of a reader, be it something read or a stop, comes out under every bound that is large enough.
Main statements: `readKeyFrom_of_lt`, `readValue_extendedBy` and `readLines_extendedBy`.
-/

namespace DocLint.Toml

variable {limits : Limits} {cs rest : List Char}

/-! ## Results under Two Bounds -/

/-- How the results of a run under two bounds are related, the second of which is large enough: if
the first finds no malformed text, they are the same. -/
inductive ExtendedBy {α : Type} : Except Failure α → Except Failure α → Prop where
  /-- The first bound may have been used up, which the second need not be. -/
  | malformed {second : Except Failure α} : ExtendedBy (.error .malformed) second
  /-- Neither bound was used up, or both runs end for the same reason. -/
  | same {result : Except Failure α} : ExtendedBy result result

namespace ExtendedBy

variable {α β : Type} {first second : Except Failure α}

/-- What is read or stopped under the first bound is so under the second. Of malformed text nothing
is said: the first bound may have been too small. -/
theorem eq_of_ne (h : ExtendedBy first second) (hfirst : first ≠ .error .malformed) : second = first := by
  cases h with
  | malformed => exact absurd rfl hfirst
  | same => rfl

/-- Two runs that go on from the same point are related if they are so up to there and after it. -/
theorem bind {step other : α → Except Failure β} (h : ExtendedBy first second)
    (hstep : ∀ a, first = .ok a → ExtendedBy (step a) (other a)) :
    ExtendedBy (first >>= step) (second >>= other) := by
  cases h with
  | malformed => exact .malformed
  | same =>
    cases first with
    | error failure => exact .same
    | ok a => exact hstep a rfl

/-- A step that does not depend on the bound leaves the relation to what comes after it. -/
theorem step {step other : α → Except Failure β}
    (hstep : ∀ a, first = .ok a → ExtendedBy (step a) (other a)) :
    ExtendedBy (first >>= step) (first >>= other) :=
  same.bind hstep

/-- The room for brackets has nothing to do with the bound, so both runs stop at the same bracket or
none of them does. -/
theorem goInto {calls room : Nat} {read other : Nat → Except Failure α}
    (h : ∀ room, ExtendedBy (read room) (other room)) :
    ExtendedBy (Toml.goInto calls room read) (Toml.goInto calls room other) := by
  unfold Toml.goInto
  split
  · exact .same
  · exact h _

end ExtendedBy

/-! ## Keys -/

/-- A key is read under any bound past the length of the text. -/
theorem readKeyFrom_of_lt {bound other : Nat} {parents : List String} {found : Key × List Char}
    (h : readKeyFrom bound parents cs = some found) (hlt : cs.length < other) :
    readKeyFrom other parents cs = some found := by
  -- Both bounds count down together, and the text gets shorter with them.
  induction bound generalizing parents cs other found with
  | zero => cases h
  | succ bound ih =>
    obtain _ | other := other
    · cases hlt
    obtain ⟨⟨name, afterName⟩, hname, h⟩ := Option.bind_eq_some_iff.mp h
    refine Option.bind_eq_some_iff.mpr ⟨⟨name, afterName⟩, hname, ?_⟩
    have hshorter := (isProperEnd_of_readName hname).length_lt
    have hblanks := (suffix_skipInline afterName).length_le
    simp only at h ⊢
    split at h
    next after hpoint =>
      have hafter := (suffix_skipInline after).length_le
      rw [hpoint, List.length_cons] at hblanks
      exact ih h (by omega)
    next => exact h

/-! ## Values -/

/-- Every value and every bracket takes a character, so a bound past twice the length is enough for
values. The items of an array hand the text on to a value as it is, and need one more. -/
theorem readValues_extendedBy (limits : Limits) (bound : Nat) :
    (∀ {room cs other}, 2 * cs.length < other →
        ExtendedBy (readValue limits bound room cs) (readValue limits other room cs)) ∧
      (∀ {room cs other}, 2 * cs.length + 1 < other →
        ExtendedBy (readItems limits bound room cs) (readItems limits other room cs)) ∧
      ∀ {room cs entries other}, 2 * cs.length < other →
        ExtendedBy (readEntries limits bound room entries cs) (readEntries limits other room entries cs) := by
  induction bound with
  | zero => exact ⟨fun _ => .malformed, fun _ => .malformed, fun _ => .malformed⟩
  | succ bound ih =>
    obtain ⟨hvalue, hitems, hentries⟩ := ih
    refine ⟨?_, ?_, ?_⟩
    · intro room cs other hlt
      obtain _ | other := other
      · cases hlt
      generalize hfirst : readValue limits (bound + 1) room cs = first
      unfold readValue at hfirst
      split at hfirst
      -- The bracket is taken off before the inside is read, which makes room for both bounds.
      next after =>
        rw [List.length_cons] at hlt
        rw [← hfirst, readValue]
        refine ExtendedBy.bind (.goInto fun room => hitems ?_) fun _ _ => .same
        omega
      next after =>
        have hblanks := (suffix_skipInline after).length_le
        rw [List.length_cons] at hlt
        rw [← hfirst, readValue]
        refine .goInto fun room => ?_
        split
        · exact .same
        · exact ExtendedBy.bind (hentries (by omega)) fun _ _ => .same
      -- The truth values and all that has no inside are read without a bound.
      next => exact hfirst ▸ .same
      next => exact hfirst ▸ .same
      next =>
        rw [← hfirst, readValue]
        · exact .same
        all_goals assumption
    -- The first value stands where the items start, so here the bound counts down and the text may
    -- stay as long as it was.
    · intro room cs other hlt
      obtain _ | other := other
      · cases hlt
      rw [readItems, readItems]
      refine .step fun start hstart => ?_
      have hfirst := (suffix_of_skipFiller (orMalformed_eq_ok_iff.mp hstart)).length_le
      split
      · exact .same
      · refine ExtendedBy.bind (hvalue (by omega)) fun read hread => ?_
        have hafter := (suffix_of_readValue hread).length_le
        refine .step fun next hnext => ?_
        have hlast := (suffix_of_skipFiller (orMalformed_eq_ok_iff.mp hnext)).length_le
        split
        · exact .same
        -- The comma before the next item is taken off.
        · rw [List.length_cons] at hlast
          exact ExtendedBy.bind (hitems (by omega)) fun _ _ => .same
        · exact .same
    -- The key takes a character before the value is read.
    · intro room cs entries other hlt
      obtain _ | other := other
      · cases hlt
      rw [readEntries, readEntries]
      refine .step fun read hkey => ?_
      have hafterKey := (isProperEnd_of_readKey (orMalformed_eq_ok_iff.mp hkey)).length_lt
      refine .step fun afterMark hmark => ?_
      have hafterMark := (isProperEnd_of_readMark? (orMalformed_eq_ok_iff.mp hmark)).length_lt
      have hblanks := (suffix_skipInline afterMark).length_le
      refine ExtendedBy.bind (hvalue (by omega)) fun found hfound => ?_
      have hafter := (suffix_of_readValue hfound).length_le
      refine .step fun added _ => ?_
      have hclose := (suffix_skipInline found.2).length_le
      split
      · exact .same
      next following hcomma =>
        have hnext := (suffix_skipInline following).length_le
        rw [hcomma, List.length_cons] at hclose
        exact hentries (by omega)
      · exact .same

/-- Of a value everything but malformed text shows under any bound past twice the length of the
text. -/
theorem readValue_extendedBy {bound other room : Nat} (hlt : 2 * cs.length < other) :
    ExtendedBy (readValue limits bound room cs) (readValue limits other room cs) :=
  (readValues_extendedBy limits bound).1 hlt

/-! ## Lines -/

/-- Each line but the last takes its line feed from the text, so a bound past the length is enough
for lines. -/
theorem readLines_extendedBy {bound other : Nat} {outline : Outline} (hlt : cs.length < other) :
    ExtendedBy (readLines limits bound outline cs) (readLines limits other outline cs) := by
  induction bound generalizing cs other outline with
  | zero => exact .malformed
  | succ bound ih =>
    obtain _ | other := other
    · cases hlt
    have hstart := (suffix_skipInline cs).length_le
    rw [readLines, readLines]
    split
    · exact .same
    next c after hcs =>
      rw [hcs, List.length_cons] at hstart
      split
      -- A blank line.
      · refine .step fun next hend => ?_
        apply ih
        rcases nil_or_isProperEnd_of_readLineEnd (orMalformed_eq_ok_iff.mp hend) with rfl | hnext
        · simp only [List.length_nil]
          omega
        · have hshorter := hnext.length_lt
          rw [List.length_cons] at hshorter
          omega
      -- A statement, which takes a character even if its line ends the text.
      · refine .step fun read hread => ?_
        have hstatement := (isProperEnd_of_readStatement hread).length_lt
        rw [List.length_cons] at hstatement
        refine .step fun _ _ => .step fun next hend => ?_
        have hnext := (suffix_of_readLineEnd (orMalformed_eq_ok_iff.mp hend)).length_le
        exact ih (by omega)

end DocLint.Toml
