import Mathlib.Data.List.Basic
import DocLint.Json.Quoted

/-!
# Quoted Text Read Off a Line

A quoted text keeps to printable ASCII and can be told from whatever follows it, since no character is written as
the start of another. Main statements: `isPrintable_of_mem_quoted`, `quotedChar_append_inj`, by which one character
is told from the text behind it, and `quoted_append_inj`, by which a whole text is.
-/

namespace DocLint.Json

/-- Whether a character is printable ASCII, the blank included. -/
def IsPrintable (c : Char) : Prop := 0x20 ≤ c.toNat ∧ c.toNat ≤ 0x7E

instance (c : Char) : Decidable (IsPrintable c) := inferInstanceAs (Decidable (_ ∧ _))

/-! ## Escapes of UTF-16 Units -/

theorem digitChar_injOn : ∀ m < 16, ∀ n < 16, Nat.digitChar m = Nat.digitChar n → m = n := by decide

theorem isPrintable_digitChar : ∀ n < 16, IsPrintable (Nat.digitChar n) := by decide

/-- A unit is told from the text behind its escape. -/
theorem unitEscape_append_inj {unit other : Nat} {rest behind : List Char} (hunit : unit < 0x10000)
    (hother : other < 0x10000) (h : unitEscape unit ++ rest = unitEscape other ++ behind) :
    unit = other ∧ rest = behind := by
  have hdigit : ∀ n : Nat, n % 16 < 16 := fun n => Nat.mod_lt n (by decide)
  simp only [unitEscape, List.cons_append, List.nil_append, List.cons.injEq, true_and] at h
  -- The four digits are the same, and they are all that a unit below 2¹⁶ has.
  obtain ⟨h₁, h₂, h₃, h₄, rfl⟩ := h
  have h₁ := digitChar_injOn _ (hdigit _) _ (hdigit _) h₁
  have h₂ := digitChar_injOn _ (hdigit _) _ (hdigit _) h₂
  have h₃ := digitChar_injOn _ (hdigit _) _ (hdigit _) h₃
  have h₄ := digitChar_injOn _ (hdigit _) _ (hdigit _) h₄
  exact ⟨by omega, rfl⟩

/-- The escape of a unit is a mark and four digits. -/
theorem isPrintable_of_mem_unitEscape {unit : Nat} {c : Char} (h : c ∈ unitEscape unit) :
    IsPrintable c := by
  have hdigit : ∀ n : Nat, IsPrintable (Nat.digitChar (n % 16)) := fun n =>
    isPrintable_digitChar _ (Nat.mod_lt n (by decide))
  simp only [unitEscape, List.mem_cons, List.not_mem_nil, or_false] at h
  rcases h with rfl | rfl | rfl | rfl | rfl | rfl
  · decide
  · decide
  all_goals exact hdigit _

/-- Whether a number lies outside of the units that come in pairs, as those of characters do. -/
theorem toNat_lt_or_lt (c : Char) : c.toNat < 0xD800 ∨ 0xDFFF < c.toNat ∧ c.toNat < 0x110000 := c.valid

/-- A character that is written by one unit is none that starts a pair. -/
theorem unit_ne_first_of_pair {c d : Char} (hd : 0x10000 ≤ d.toNat) :
    c.toNat ≠ 0xD800 + (d.toNat - 0x10000) / 1024 := by
  have hc := toNat_lt_or_lt c
  have hdvalid := toNat_lt_or_lt d
  omega

/-- A character is told from the text behind its escape, be it one unit or a pair of them. -/
theorem charEscape_append_inj {c d : Char} {rest behind : List Char}
    (h : charEscape c ++ rest = charEscape d ++ behind) : c = d ∧ rest = behind := by
  have hc := toNat_lt_or_lt c
  have hd := toNat_lt_or_lt d
  unfold charEscape at h
  by_cases hcs : c.toNat < 0x10000 <;> by_cases hds : d.toNat < 0x10000
  · rw [if_pos hcs, if_pos hds] at h
    obtain ⟨hunit, hrest⟩ := unitEscape_append_inj hcs hds h
    exact ⟨Char.toNat_inj.mp hunit, hrest⟩
  · -- One unit against a pair: no character has a number that starts a pair.
    rw [if_pos hcs, if_neg hds, List.append_assoc] at h
    obtain ⟨hunit, -⟩ := unitEscape_append_inj hcs (by omega) h
    exact absurd hunit (unit_ne_first_of_pair (by omega))
  · rw [if_neg hcs, if_pos hds, List.append_assoc] at h
    obtain ⟨hunit, -⟩ := unitEscape_append_inj (by omega) hds h
    exact absurd hunit.symm (unit_ne_first_of_pair (by omega))
  · -- Two pairs: the first units give the upper ten bits of the number, the second the lower ten.
    rw [if_neg hcs, if_neg hds, List.append_assoc, List.append_assoc] at h
    obtain ⟨hfirst, h⟩ := unitEscape_append_inj (by omega) (by omega) h
    obtain ⟨hsecond, hrest⟩ := unitEscape_append_inj (by omega) (by omega) h
    exact ⟨Char.toNat_inj.mp (by omega), hrest⟩

theorem exists_charEscape_eq (c : Char) : ∃ rest, charEscape c = '\\' :: 'u' :: rest := by
  unfold charEscape
  split
  · exact ⟨_, rfl⟩
  · exact ⟨_, rfl⟩

theorem isPrintable_of_mem_charEscape {c x : Char} (h : x ∈ charEscape c) : IsPrintable x := by
  unfold charEscape at h
  split at h
  · exact isPrintable_of_mem_unitEscape h
  · rcases List.mem_append.mp h with h | h <;> exact isPrintable_of_mem_unitEscape h

/-! ## Quoted Characters -/

/-- The letter behind the backslash in the short escape of a character, if it has one. -/
def shortEscape? (c : Char) : Option Char :=
  if c = '"' then some '"'
  else if c = '\\' then some '\\'
  else if c = '\n' then some 'n'
  else if c = '\r' then some 'r'
  else if c = '\t' then some 't'
  else if c.toNat = 0x08 then some 'b'
  else if c.toNat = 0x0C then some 'f'
  else none

/-- The code point that a short escape stands for. It undoes `shortEscape?`, so no letter serves two
characters. -/
def shortEscapeCode (letter : Char) : Nat :=
  if letter = 'n' then 0x0A
  else if letter = 'r' then 0x0D
  else if letter = 't' then 0x09
  else if letter = 'b' then 0x08
  else if letter = 'f' then 0x0C
  else letter.toNat

/-- A short escape stands for one character only, is not the mark of an escape by units, and is
printable. -/
theorem shortEscape?_eq_some {c letter : Char} (h : shortEscape? c = some letter) :
    shortEscapeCode letter = c.toNat ∧ letter ≠ 'u' ∧ IsPrintable letter := by
  unfold shortEscape? at h
  split_ifs at h with hquote hbackslash hlineFeed hreturn htab hbackspace hformFeed
  all_goals cases h
  · rw [hquote]; decide
  · rw [hbackslash]; decide
  · rw [hlineFeed]; decide
  · rw [hreturn]; decide
  · rw [htab]; decide
  · rw [hbackspace]; decide
  · rw [hformFeed]; decide

theorem quotedChar_of_short {c letter : Char} (h : shortEscape? c = some letter) :
    quotedChar c = ['\\', letter] := by
  unfold shortEscape? at h
  unfold quotedChar
  split_ifs at h ⊢ <;> cases h <;> rfl

/-- Any other character is written as it stands if it is printable, and else by units. -/
theorem quotedChar_of_not_short {c : Char} (h : shortEscape? c = none) :
    quotedChar c = if IsPrintable c then [c] else charEscape c := by
  unfold shortEscape? at h
  split_ifs at h with hquote hbackslash hlineFeed hreturn htab hbackspace hformFeed
  rw [quotedChar, if_neg hquote, if_neg hbackslash, if_neg hlineFeed, if_neg hreturn, if_neg htab,
    if_neg hbackspace, if_neg hformFeed]
  rfl

/-- The ways to write a character: by a short escape, as it stands, or by units. A character may
have more than one of them; the way that is taken is one of these. -/
inductive IsWrittenAs (c : Char) : List Char → Prop where
  | short {letter : Char} : shortEscape? c = some letter → IsWrittenAs c ['\\', letter]
  | itself : c ≠ '"' → c ≠ '\\' → IsPrintable c → IsWrittenAs c [c]
  /-- Each of its one or two units behind a backslash, in base sixteen. -/
  | units : IsWrittenAs c (charEscape c)

/-- A quoted character is written in one of these ways. -/
theorem isWrittenAs_quotedChar (c : Char) : IsWrittenAs c (quotedChar c) := by
  cases hshort : shortEscape? c with
  | some letter =>
    rw [quotedChar_of_short hshort]
    exact .short hshort
  | none =>
    rw [quotedChar_of_not_short hshort]
    split
    next hprintable =>
      refine .itself ?_ ?_ hprintable
      all_goals
        rintro rfl
        cases hshort
    next => exact .units

namespace IsWrittenAs

variable {c d : Char} {front other rest behind : List Char}

/-- No way to write a character is the start of a way to write another. -/
theorem append_inj (hc : IsWrittenAs c front) (hd : IsWrittenAs d other)
    (h : front ++ rest = other ++ behind) : c = d ∧ rest = behind := by
  obtain ⟨escapeOfC, hescapeOfC⟩ := exists_charEscape_eq c
  obtain ⟨escapeOfD, hescapeOfD⟩ := exists_charEscape_eq d
  -- A backslash tells escapes from the other characters, the mark behind it the two kinds of
  -- escapes.
  cases hc with
  | short hletter =>
    obtain ⟨hcode, hmark, -⟩ := shortEscape?_eq_some hletter
    cases hd with
    | short hother =>
      obtain ⟨hotherCode, -, -⟩ := shortEscape?_eq_some hother
      simp only [List.cons_append, List.nil_append, List.cons.injEq, true_and] at h
      obtain ⟨rfl, rfl⟩ := h
      exact ⟨Char.toNat_inj.mp (hcode.symm.trans hotherCode), rfl⟩
    | itself _ hbackslash _ => exact absurd (List.cons_eq_cons.mp h).1.symm hbackslash
    | units =>
      rw [hescapeOfD] at h
      exact absurd (List.cons_eq_cons.mp (List.cons_eq_cons.mp h).2).1 hmark
  | itself _ hbackslash _ =>
    cases hd with
    | short _ => exact absurd (List.cons_eq_cons.mp h).1 hbackslash
    | itself _ _ _ => exact List.cons_eq_cons.mp h
    | units =>
      rw [hescapeOfD] at h
      exact absurd (List.cons_eq_cons.mp h).1 hbackslash
  | units =>
    cases hd with
    | short hother =>
      obtain ⟨-, hmark, -⟩ := shortEscape?_eq_some hother
      rw [hescapeOfC] at h
      exact absurd (List.cons_eq_cons.mp (List.cons_eq_cons.mp h).2).1.symm hmark
    | itself _ hbackslash _ =>
      rw [hescapeOfC] at h
      exact absurd (List.cons_eq_cons.mp h).1.symm hbackslash
    | units => exact charEscape_append_inj h

/-- No way to write a character starts as the end of a quoted text does. -/
theorem append_ne_quote (hc : IsWrittenAs c front) : front ++ rest ≠ '"' :: behind := by
  intro h
  cases hc with
  | short _ => exact absurd (List.cons_eq_cons.mp h).1 (by decide)
  | itself hquote _ _ => exact hquote (List.cons_eq_cons.mp h).1
  | units =>
    obtain ⟨escape, hescape⟩ := exists_charEscape_eq c
    rw [hescape] at h
    exact absurd (List.cons_eq_cons.mp h).1 (by decide)

/-- Every way to write a character is printable. -/
theorem isPrintable_of_mem (hc : IsWrittenAs c front) {x : Char} (hx : x ∈ front) : IsPrintable x := by
  cases hc with
  | short hletter =>
    rcases List.mem_pair.mp hx with rfl | rfl
    · decide
    · exact (shortEscape?_eq_some hletter).2.2
  | itself _ _ hprintable => exact List.mem_singleton.mp hx ▸ hprintable
  | units => exact isPrintable_of_mem_charEscape hx

end IsWrittenAs

/-! ## Quoted Texts -/

/-- Characters are told from what follows their closing quote. -/
theorem flatMap_quotedChar_append_inj {cs ds rest behind : List Char}
    (h : cs.flatMap quotedChar ++ '"' :: rest = ds.flatMap quotedChar ++ '"' :: behind) :
    cs = ds ∧ rest = behind := by
  -- Character by character: one text cannot end where the other goes on, since no character is
  -- written with a bare quote.
  induction cs generalizing ds with
  | nil =>
    cases ds with
    | nil => exact ⟨rfl, (List.cons_eq_cons.mp h).2⟩
    | cons d ds =>
      rw [List.flatMap_cons, List.append_assoc] at h
      exact absurd h.symm (isWrittenAs_quotedChar d).append_ne_quote
  | cons c cs ih =>
    rw [List.flatMap_cons, List.append_assoc] at h
    cases ds with
    | nil => exact absurd h (isWrittenAs_quotedChar c).append_ne_quote
    | cons d ds =>
      rw [List.flatMap_cons, List.append_assoc] at h
      obtain ⟨rfl, htail⟩ := (isWrittenAs_quotedChar c).append_inj (isWrittenAs_quotedChar d) h
      obtain ⟨rfl, hrest⟩ := ih htail
      exact ⟨rfl, hrest⟩

theorem quoted_append_inj {s t : String} {rest behind : List Char}
    (h : quoted s ++ rest = quoted t ++ behind) : s = t ∧ rest = behind := by
  simp only [quoted, List.cons_append, List.append_assoc, List.nil_append, List.cons.injEq, true_and] at h
  obtain ⟨hchars, hrest⟩ := flatMap_quotedChar_append_inj h
  exact ⟨String.toList_inj.mp hchars, hrest⟩

theorem isPrintable_of_mem_quoted {s : String} {c : Char} (h : c ∈ quoted s) : IsPrintable c := by
  rw [quoted, List.mem_cons, List.mem_append, List.mem_singleton, List.mem_flatMap] at h
  rcases h with rfl | ⟨d, -, hd⟩ | rfl
  · decide
  · exact (isWrittenAs_quotedChar d).isPrintable_of_mem hd
  · decide

end DocLint.Json
