import DocLint.Limits
import DocLint.Proofs.Numerals

/-!
# Runs That May Stop

A run that may stop is put together from steps that may, and ends at the first one that does. This file says
when such a run goes well and when it does not, for two steps after each other and for one step at every item
of a list, and then when the host reads and writes a number. Main statements: `bind_eq_ok_iff`,
`bind_eq_error_iff`, `mapM_eq_ok_iff` and `allowsInteger_digitsValue`, by which a number that could be read can
also be written.
-/

namespace DocLint

/-! ## Steps -/

section Steps

variable {ε α β : Type} {step : α → Except ε β}

/-- Two steps go well if the first does and the second does after it. -/
theorem bind_eq_ok_iff {first : Except ε α} {b : β} :
    first >>= step = .ok b ↔ ∃ a, first = .ok a ∧ step a = .ok b := by
  cases first with
  | error e => exact ⟨nofun, nofun⟩
  | ok a => exact ⟨fun h => ⟨a, rfl, h⟩, fun ⟨_, ha, h⟩ => Except.ok.inj ha ▸ h⟩

/-- Two steps stop where the first does, or where the second does after it. -/
theorem bind_eq_error_iff {first : Except ε α} {e : ε} :
    first >>= step = .error e ↔ first = .error e ∨ ∃ a, first = .ok a ∧ step a = .error e := by
  cases first with
  | error f =>
    constructor
    · intro h
      exact .inl (congrArg Except.error (Except.error.inj h))
    · rintro (h | ⟨_, h, -⟩)
      · exact congrArg Except.error (Except.error.inj h)
      · cases h
  | ok a =>
    constructor
    · intro h
      exact .inr ⟨a, rfl, h⟩
    · rintro (h | ⟨_, ha, h⟩)
      · cases h
      · exact Except.ok.inj ha ▸ h

/-- If it is known at which items a step goes well and with what result, a step at every item of a
list goes well exactly if all are such items, and has the results in order. -/
theorem mapM_eq_ok_iff {xs : List α} {p : α → Prop} {result : α → β} {ys : List β}
    (h : ∀ x ∈ xs, ∀ y, step x = .ok y ↔ p x ∧ result x = y) :
    xs.mapM step = .ok ys ↔ (∀ x ∈ xs, p x) ∧ xs.map result = ys := by
  -- By induction on the items: the first one goes well, and the others go well after it.
  induction xs generalizing ys with
  | nil => exact ⟨fun h => ⟨nofun, Except.ok.inj h⟩, fun h => congrArg Except.ok h.2⟩
  | cons x xs ih =>
    rw [List.forall_mem_cons] at h ⊢
    rw [List.mapM_cons, bind_eq_ok_iff, List.map_cons]
    constructor
    · rintro ⟨y, hy, hrest⟩
      obtain ⟨hx, rfl⟩ := (h.1 y).mp hy
      obtain ⟨ys, hys, hsame⟩ := bind_eq_ok_iff.mp hrest
      obtain ⟨hall, rfl⟩ := (ih h.2).mp hys
      exact ⟨⟨hx, hall⟩, Except.ok.inj hsame⟩
    · rintro ⟨⟨hx, hall⟩, rfl⟩
      refine ⟨result x, (h.1 _).mpr ⟨hx, rfl⟩, bind_eq_ok_iff.mpr ?_⟩
      exact ⟨xs.map result, (ih h.2).mpr ⟨hall, rfl⟩, rfl⟩

/-- Where a step at every item stops, it stops at one of them. -/
theorem exists_of_mapM_eq_error {xs : List α} {e : ε} (h : xs.mapM step = .error e) :
    ∃ x ∈ xs, step x = .error e := by
  induction xs with
  | nil => cases h
  | cons x xs ih =>
    rw [List.mapM_cons] at h
    rcases bind_eq_error_iff.mp h with hx | ⟨y, -, h⟩
    · exact ⟨x, List.mem_cons_self, hx⟩
    · rcases bind_eq_error_iff.mp h with hrest | ⟨_, -, ⟨⟩⟩
      obtain ⟨z, hz, hstop⟩ := ih hrest
      exact ⟨z, List.mem_cons_of_mem x hz, hstop⟩

end Steps

/-! ## Numbers -/

namespace Limits

open Text

variable {limits : Limits} {digits : List Char}

theorem readDigits_eq_ok_iff {n : Nat} :
    limits.readDigits digits = .ok n ↔ digits.length ≤ limits.digits ∧ digitsValue digits = n := by
  unfold readDigits
  split
  next h => simp [h]
  next h => simp [h]

/-- One digit too many stops the reading, whatever the digits are. -/
theorem readDigits_eq_error_iff {stop : Stop} :
    limits.readDigits digits = .error stop ↔ limits.digits < digits.length ∧ stop = .tooManyDigits := by
  unfold readDigits
  split
  next h => exact ⟨nofun, fun hlong => absurd h (Nat.not_le_of_lt hlong.1)⟩
  next h => simp [Nat.lt_of_not_le h, eq_comm]

theorem writeInteger_eq_ok_iff {i : Int} {text : String} :
    limits.writeInteger i = .ok text ↔ limits.allowsInteger i = true ∧ integerText i = text := by
  unfold writeInteger
  split
  next h => simp [h]
  next h => simp [h]

theorem writeInteger_eq_error_iff {i : Int} {stop : Stop} :
    limits.writeInteger i = .error stop ↔ limits.allowsInteger i = false ∧ stop = .tooManyDigits := by
  unfold writeInteger
  split
  next h => simp [h]
  next h => simp [h, eq_comm]

/-- The host writes a natural number if it takes no more digits than are allowed. -/
theorem allowsInteger_iff {i : Int} (h : 0 ≤ i) :
    limits.allowsInteger i = true ↔ (integerText i).toList.length ≤ limits.digits := by
  rw [toList_integerText h, allowsInteger, decide_eq_true_eq, ← Int.natAbs_of_nonneg h, Int.natAbs_natCast,
    Int.toNat_natCast]

/-- A number has no more digits than any text that it was read from, for the text may start with
zeros. -/
theorem allowsInteger_digitsValue (hdigits : IsDigits digits) (hlength : digits.length ≤ limits.digits) :
    limits.allowsInteger (digitsValue digits) = true := by
  rw [allowsInteger, decide_eq_true_eq, Int.natAbs_natCast]
  exact Nat.le_trans (Number.length_naturalDigits_digitsValue_le hdigits) hlength

end Limits

end DocLint
