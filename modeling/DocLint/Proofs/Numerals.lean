import Mathlib.Data.List.Induction
import DocLint.Number.Notation
import DocLint.Text.Digit

/-!
# Numerals Read Back

A whole number that is not negative is written as a run of decimal digits. Main statement:
`digitsValue_naturalDigits`, by which the run stands for the number that was written.
-/

namespace DocLint

namespace Text

/-- A run of decimal digits, at least one. -/
structure IsDigits (digits : List Char) : Prop where
  ne_nil : digits ≠ []
  all_digits : ∀ c ∈ digits, isDigit c = true

theorem isDigits_singleton {c : Char} (h : isDigit c = true) : IsDigits [c] :=
  ⟨List.cons_ne_nil c [], List.forall_mem_singleton.mpr h⟩

theorem digitValue?_digitChar : ∀ d < 10, digitValue? (Nat.digitChar d) = some d := by decide

theorem isDigit_digitChar {d : Nat} (h : d < 10) : isDigit (Nat.digitChar d) = true := by
  rw [isDigit, digitValue?_digitChar d h, Option.isSome_some]

/-- A digit stands for less than ten, in whatever script: each script has a run of ten. -/
theorem digitValue?_lt {c : Char} {d : Nat} (h : digitValue? c = some d) : d < 10 := by
  obtain ⟨start, hstart, rfl⟩ := Option.map_eq_some_iff.mp h
  have hrun := List.find?_some hstart
  simp only [Bool.and_eq_true, decide_eq_true_eq] at hrun
  omega

/-- A digit behind a run multiplies its value by ten and adds its own. -/
theorem digitsValue_concat (digits : List Char) (c : Char) :
    digitsValue (digits ++ [c]) = 10 * digitsValue digits + (digitValue? c).getD 0 := by
  unfold digitsValue
  rw [List.foldl_append, List.foldl_cons, List.foldl_nil]

theorem IsDigits.not_mem {digits : List Char} (h : IsDigits digits) {c : Char}
    (hc : isDigit c = false) : c ∉ digits := by
  intro hmem
  rw [h.all_digits c hmem] at hc
  cases hc

end Text

namespace Number

open Text

theorem naturalDigits_of_lt {n : Nat} (h : n < 10) : naturalDigits n = [Nat.digitChar n] :=
  Nat.toDigits_of_lt_base h

theorem naturalDigits_of_le {n : Nat} (h : 10 ≤ n) :
    naturalDigits n = naturalDigits (n / 10) ++ [Nat.digitChar (n % 10)] := by
  unfold naturalDigits
  rw [Nat.toDigits_eq_if (by omega), if_neg (by omega)]

/-- A natural number is written in decimal digits, and in at least one. The induction takes off the
last digit, as the writing puts it on. -/
theorem isDigits_naturalDigits (n : Nat) : IsDigits (naturalDigits n) := by
  induction n using Nat.strongRecOn with
  | ind n ih =>
    by_cases hsmall : n < 10
    · rw [naturalDigits_of_lt hsmall]
      refine ⟨List.cons_ne_nil _ _, fun c hc => ?_⟩
      rw [List.mem_singleton.mp hc, isDigit_digitChar hsmall]
    · rw [naturalDigits_of_le (by omega)]
      have hfront := ih (n / 10) (by omega)
      refine ⟨List.append_ne_nil_of_left_ne_nil hfront.ne_nil _, fun c hc => ?_⟩
      rcases List.mem_append.mp hc with hc | hc
      · exact hfront.all_digits c hc
      · rw [List.mem_singleton.mp hc, isDigit_digitChar (Nat.mod_lt n (by omega))]

theorem digitsValue_naturalDigits (n : Nat) : digitsValue (naturalDigits n) = n := by
  induction n using Nat.strongRecOn with
  | ind n ih =>
    by_cases hsmall : n < 10
    · rw [naturalDigits_of_lt hsmall, ← List.nil_append [_], digitsValue_concat,
        digitValue?_digitChar n hsmall]
      exact Nat.zero_add n
    · rw [naturalDigits_of_le (by omega), digitsValue_concat, ih (n / 10) (by omega),
        digitValue?_digitChar _ (Nat.mod_lt n (by omega)), Option.getD_some]
      omega

/-- Each digit adds less than what ten times the place before it comes to. -/
theorem digitsValue_lt_pow (digits : List Char) : digitsValue digits < Nat.pow 10 digits.length := by
  -- By induction on the run from its end, where the last digit stands.
  induction digits using List.reverseRecOn with
  | nil => exact Nat.one_pos
  | append_singleton digits c ih =>
    have hdigit : (digitValue? c).getD 0 < 10 := by
      cases hc : digitValue? c with
      | none => exact Nat.succ_pos 9
      | some d => exact digitValue?_lt hc
    rw [digitsValue_concat, List.length_append, List.length_singleton]
    show 10 * digitsValue digits + (digitValue? c).getD 0 < Nat.pow 10 digits.length * 10
    omega

/-- A number is written in no more digits than it was read from: leading zeros go, and nothing is
added. -/
theorem length_naturalDigits_digitsValue_le {digits : List Char} (h : IsDigits digits) :
    (naturalDigits (digitsValue digits)).length ≤ digits.length := by
  have hlength := List.length_pos_iff.mpr h.ne_nil
  rw [naturalDigits, Nat.length_toDigits_le_iff (by decide) hlength]
  apply digitsValue_lt_pow

end Number

theorem toList_integerText {i : Int} (h : 0 ≤ i) :
    (integerText i).toList = Number.naturalDigits i.toNat := by
  obtain ⟨n, rfl⟩ := Int.eq_ofNat_of_zero_le h
  exact String.toList_ofList

theorem digitsValue_integerText {i : Int} (h : 0 ≤ i) :
    (Text.digitsValue (integerText i).toList : Int) = i := by
  rw [toList_integerText h, Number.digitsValue_naturalDigits, Int.toNat_of_nonneg h]

theorem isDigits_integerText {i : Int} (h : 0 ≤ i) : Text.IsDigits (integerText i).toList := by
  rw [toList_integerText h]
  apply Number.isDigits_naturalDigits

end DocLint
