import DocLint.Preference
import DocLint.Proofs.Fields

/-!
# Tables in Another Order

The keys of a table may be given in any order, and so may those of the tables in it. Main statements:
`Rearranged.get?`, by which look-ups give the same up to rearrangement, `Rearranged.ofValue?_eq`, by which a
rearranged value stands for the same preference, and `Settings.ofEntries_rearranged`, by which rearranged
settings are rejected alike or read as the same settings.
-/

namespace DocLint

namespace Value

/-- Whether two values differ at most in the order of the keys of tables: of the table that they
are, or of one that stands somewhere in it. The keys of a table that is rearranged have to be
distinct, or else a look-up could find another entry. -/
inductive Rearranged : Value → Value → Prop where
  | refl (value : Value) : Rearranged value value
  /-- The keys of this table are. -/
  | table {entries others : Dict Value} :
      (Dict.keys entries).Nodup → entries.Perm others → Rearranged (.table entries) (.table others)
  /-- It is something in the value of one entry. -/
  | entry {before after : Dict Value} {key : String} {value other : Value} :
      Rearranged value other →
      Rearranged (.table (before ++ (key, value) :: after)) (.table (before ++ (key, other) :: after))
  | trans {first second third : Value} :
      Rearranged first second → Rearranged second third → Rearranged first third

namespace Rearranged

/-! ## What Stays -/

section

variable {value other : Value} (h : Rearranged value other)

include h

/-- Only tables are rearranged. -/
theorem eq_or_tables :
    value = other ∨ ∃ entries others, value = .table entries ∧ other = .table others := by
  induction h with
  | refl value => exact Or.inl rfl
  | table _ _ => exact Or.inr ⟨_, _, rfl, rfl⟩
  | entry _ _ => exact Or.inr ⟨_, _, rfl, rfl⟩
  | trans _ _ ihFirst ihSecond =>
    -- A chain that changes anything goes from table to table.
    rcases ihFirst with rfl | ⟨entries, others, rfl, rfl⟩
    · exact ihSecond
    · rcases ihSecond with rfl | ⟨_, last, _, rfl⟩
      · exact Or.inr ⟨_, _, rfl, rfl⟩
      · exact Or.inr ⟨_, _, rfl, rfl⟩

theorem keys_perm : (Dict.keys value.entriesOrEmpty).Perm (Dict.keys other.entriesOrEmpty) := by
  induction h with
  | refl value => exact List.Perm.refl _
  | table _ hperm => exact hperm.map _
  | entry _ _ => simp [entriesOrEmpty, Dict.keys]
  | trans _ _ ihFirst ihSecond => exact ihFirst.trans ihSecond

/-- What is void stays so: only the number of its entries counts for a table. -/
theorem isVoid_eq : value.isVoid = other.isVoid := by
  rcases h.eq_or_tables with rfl | ⟨entries, others, rfl, rfl⟩
  · rfl
  · -- As many keys are held on both sides.
    have hlength : entries.length = others.length := by
      simpa [entriesOrEmpty, Dict.keys] using h.keys_perm.length_eq
    rw [isVoid, isVoid, Bool.eq_iff_iff, List.isEmpty_iff_length_eq_zero, List.isEmpty_iff_length_eq_zero,
      hlength]

/-- A look-up gives the same on both sides, up to rearrangement. -/
theorem get? (key : String) :
    Option.Rel Rearranged (Dict.get? value.entriesOrEmpty key) (Dict.get? other.entriesOrEmpty key) := by
  have hsame : ∀ found : Option Value, Option.Rel Rearranged found found := by
    intro found
    cases found with
    | none => exact .none
    | some value => exact .some (.refl value)
  -- By induction on the steps: one that goes into an entry shows only if the key is that of the
  -- entry.
  induction h with
  | refl value => exact hsame _
  | table hkeys hperm =>
    simp only [entriesOrEmpty]
    rw [Dict.get?_of_perm hperm hkeys]
    exact hsame _
  | @entry before after held value other hvalue _ =>
    simp only [entriesOrEmpty]
    rcases Dict.get?_replace_cases before after held value other key with heq | ⟨-, hfirst, hsecond⟩
    · rw [heq]
      exact hsame _
    · rw [hfirst, hsecond]
      exact .some hvalue
  | @trans first second third _ _ ihFirst ihSecond =>
    generalize Dict.get? first.entriesOrEmpty key = one at ihFirst ⊢
    generalize Dict.get? second.entriesOrEmpty key = two at ihFirst ihSecond
    generalize Dict.get? third.entriesOrEmpty key = three at ihSecond ⊢
    cases ihFirst with
    | some hfirst =>
      cases ihSecond with
      | some hsecond => exact .some (hfirst.trans hsecond)
    | none => exact ihSecond

/-! ## Preferences -/

/-- A rearranged value stands for the same preference, or is as malformed. -/
theorem ofValue?_eq : Preference.ofValue? value = Preference.ofValue? other := by
  rcases h.eq_or_tables with rfl | ⟨entries, others, rfl, rfl⟩
  · rfl
  · -- An object is read by two look-ups, and either gives the same up to rearrangement.
    have hmessage := h.get? "message"
    have hreplacement := h.get? "replacement"
    simp only [entriesOrEmpty] at hmessage hreplacement
    have hmessageOf : Preference.messageOf entries = Preference.messageOf others := by
      unfold Preference.messageOf
      generalize Dict.get? entries "message" = one at hmessage ⊢
      generalize Dict.get? others "message" = two at hmessage ⊢
      cases hmessage with
      | none => rfl
      | some hvalue =>
        rcases hvalue.eq_or_tables with rfl | ⟨_, _, rfl, rfl⟩
        · rfl
        · rfl
    simp only [Preference.ofValue?, Preference.ofEntries?, hmessageOf]
    generalize Dict.get? entries "replacement" = one at hreplacement ⊢
    generalize Dict.get? others "replacement" = two at hreplacement ⊢
    cases hreplacement with
    | none => rfl
    | some hvalue =>
      -- Whether a replacement is void is asked for before what it is.
      simp only [hvalue.isVoid_eq]
      rcases hvalue.eq_or_tables with rfl | ⟨_, _, rfl, rfl⟩
      · rfl
      · rfl

end

end Rearranged

end Value

/-! ## Settings -/

/-- A field is found under the same spelling, with a value that is the same up to rearrangement. -/
theorem findField_rearranged {first second : Dict Value}
    (h : (Value.table first).Rearranged (.table second)) (spellings : List String) :
    Option.Rel (fun one other => one.1 = other.1 ∧ one.2.Rearranged other.2)
      (findField first spellings) (findField second spellings) := by
  induction spellings with
  | nil => exact .none
  | cons spelling others ih =>
    have hget := h.get? spelling
    simp only [Value.entriesOrEmpty] at hget
    rw [findField_cons, findField_cons]
    generalize Dict.get? first spelling = one at hget ⊢
    generalize Dict.get? second spelling = two at hget ⊢
    cases hget with
    | some hvalue => exact .some ⟨rfl, hvalue⟩
    | none => exact ih

namespace Settings

/-- Whether settings are the same up to the order of keys. -/
structure Rearranged (first second : Settings) : Prop where
  mode_eq : first.mode = second.mode
  tagNamePreference : (Value.table first.tagNamePreference).Rearranged (.table second.tagNamePreference)
  structuredTags : (Value.table first.structuredTags).Rearranged (.table second.structuredTags)

section

variable {first second : Dict Value} (h : (Value.table first).Rearranged (.table second))

include h

/-- The mode is read alike, or complained about alike. -/
theorem mode_rearranged :
    modeComplaints first = modeComplaints second ∧ readMode first = readMode second := by
  have hfield := findField_rearranged h modeSpellings
  unfold modeComplaints readMode
  generalize findField first modeSpellings = one at hfield ⊢
  generalize findField second modeSpellings = two at hfield ⊢
  cases hfield with
  | none => exact ⟨rfl, rfl⟩
  | @some one other hfield =>
    obtain ⟨key, value⟩ := one
    obtain ⟨otherKey, otherValue⟩ := other
    obtain ⟨rfl, hvalue⟩ := hfield
    -- Only a text names a mode, and texts are not rearranged.
    have hmode : modeOf? value = modeOf? otherValue := by
      rcases hvalue.eq_or_tables with rfl | ⟨_, _, rfl, rfl⟩
      · rfl
      · rfl
    simp only [hmode, and_self]

/-- A table of the settings is read as the same up to the order of keys. -/
theorem table_rearranged (spellings : List String) :
    tableComplaints first spellings = tableComplaints second spellings ∧
      (Value.table (readTable first spellings)).Rearranged (.table (readTable second spellings)) := by
  have hfield := findField_rearranged h spellings
  unfold tableComplaints readTable
  generalize findField first spellings = one at hfield ⊢
  generalize findField second spellings = two at hfield ⊢
  cases hfield with
  | none => exact ⟨rfl, .refl _⟩
  | @some one other hfield =>
    obtain ⟨key, value⟩ := one
    obtain ⟨otherKey, otherValue⟩ := other
    obtain ⟨rfl, hvalue⟩ := hfield
    rcases hvalue.eq_or_tables with rfl | ⟨_, _, rfl, rfl⟩
    · exact ⟨rfl, .refl _⟩
    · exact ⟨rfl, hvalue⟩

/-- Rearranged settings are rejected with the same complaints, or read as the same settings up to
the order of keys. -/
theorem ofEntries_rearranged :
    (∃ rejection, ofEntries first = .error rejection ∧ ofEntries second = .error rejection) ∨
      ∃ settings others, ofEntries first = .ok settings ∧ ofEntries second = .ok others ∧
        settings.Rearranged others := by
  obtain ⟨hmode, hreadMode⟩ := mode_rearranged h
  obtain ⟨hpreference, hreadPreference⟩ := table_rearranged h preferenceSpellings
  obtain ⟨hstructured, hreadStructured⟩ := table_rearranged h structuredTagsSpellings
  have hcomplaints : complaints first = complaints second := by
    unfold complaints
    rw [hmode, hpreference, hstructured]
  unfold ofEntries
  rw [hcomplaints]
  cases complaints second with
  | nil => exact Or.inr ⟨_, _, rfl, rfl, hreadMode, hreadPreference, hreadStructured⟩
  | cons complaint others => exact Or.inl ⟨_, rfl, rfl⟩

end

end Settings

end DocLint
