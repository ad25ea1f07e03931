import DocLint.Config.Settings
import DocLint.Proofs.Lookup

/-!
# Fields of a Configuration

A field is read from the first of its spellings that a table gives, and everything that is read of a field
or said about it depends on that entry only. Main statements: `Options.ofEntries_eq_ok_iff` and
`Settings.ofEntries_eq_ok_iff`, which say what a table without a fault gives, and
`Options.keyComplaints_eq_nil_iff`, by which no key of such a table is left over.
-/

namespace DocLint

/-! ## Spellings -/

/-- The spelling under which a table gives a field. -/
def fieldSpelling? (entries : Dict Value) (spellings : List String) : Option String :=
  (findField entries spellings).map (·.1)

theorem findField_cons (entries : Dict Value) (first : String) (others : List String) :
    findField entries (first :: others) =
      match Dict.get? entries first with
      | some value => some (first, value)
      | none => findField entries others := rfl

/-- What is found for a field stands under one of its spellings, and is what the table gives
there. -/
theorem mem_and_get?_of_findField {entries : Dict Value} {spellings : List String} {spelling : String}
    {value : Value} (h : findField entries spellings = some (spelling, value)) :
    spelling ∈ spellings ∧ Dict.get? entries spelling = some value := by
  induction spellings with
  | nil => cases h
  | cons first others ih =>
    rw [findField_cons] at h
    cases hfirst : Dict.get? entries first with
    | some found =>
      simp only [hfirst, Option.some.injEq, Prod.mk.injEq] at h
      obtain ⟨rfl, rfl⟩ := h
      exact ⟨List.mem_cons_self .., hfirst⟩
    | none =>
      simp only [hfirst] at h
      exact ⟨List.mem_cons_of_mem _ (ih h).1, (ih h).2⟩

theorem mem_of_fieldSpelling? {entries : Dict Value} {spellings : List String} {spelling : String}
    (h : fieldSpelling? entries spellings = some spelling) :
    spelling ∈ spellings ∧ spelling ∈ Dict.keys entries := by
  obtain ⟨⟨found, value⟩, hfound, rfl⟩ := Option.map_eq_some_iff.mp h
  obtain ⟨hmem, hget⟩ := mem_and_get?_of_findField hfound
  exact ⟨hmem, List.mem_map.mpr ⟨_, Dict.mem_of_get? hget, rfl⟩⟩

/-- A field is found under the first of its spellings if a table gives that, and else under
another. -/
theorem fieldSpelling?_cons (entries : Dict Value) (first : String) (others : List String) :
    fieldSpelling? entries (first :: others) =
      if (Dict.get? entries first).isSome then some first else fieldSpelling? entries others := by
  unfold fieldSpelling?
  rw [findField_cons]
  cases Dict.get? entries first with
  | some value => rfl
  | none => rfl

/-- With another value in one of its entries, a table gives a field as before, unless the field is
found in that entry. -/
theorem findField_replace_cases (before after : Dict Value) (key : String) (value other : Value)
    (spellings : List String) :
    findField (before ++ (key, value) :: after) spellings =
        findField (before ++ (key, other) :: after) spellings ∨
      key ∈ spellings ∧ findField (before ++ (key, value) :: after) spellings = some (key, value) ∧
        findField (before ++ (key, other) :: after) spellings = some (key, other) := by
  induction spellings with
  | nil => exact Or.inl rfl
  | cons spelling others ih =>
    rw [findField_cons, findField_cons]
    -- Either this spelling reads the same from both tables, or it is the key of the changed entry.
    rcases Dict.get?_replace_cases before after key value other spelling with hsame | ⟨rfl, hfirst, hsecond⟩
    · rw [hsame]
      cases Dict.get? (before ++ (key, other) :: after) spelling with
      | some found => exact Or.inl rfl
      | none =>
        rcases ih with hrest | ⟨hmem, hfound⟩
        · exact Or.inl hrest
        · exact Or.inr ⟨List.mem_cons_of_mem _ hmem, hfound⟩
    · rw [hfirst, hsecond]
      exact Or.inr ⟨List.mem_cons_self .., rfl, rfl⟩

/-- Whether what is said about a field and what is read of it depend on the entry of the field only.
Each field is shown once to do so; changes elsewhere in a table are then invisible to it. -/
def DependsOnField {α : Type} (complain : Dict Value → List Complaint) (read : Dict Value → α)
    (spellings : List String) : Prop :=
  ∀ {first second : Dict Value}, findField first spellings = findField second spellings →
    complain first = complain second ∧ read first = read second

/-! ## Options -/

namespace Options

/-- The spellings of all options. -/
def fields : List (List String) := [definedTagsSpellings, jsxTagsSpellings, typedSpellings]

/-- No two options share a spelling. -/
theorem fields_apart : ∀ first ∈ fields, ∀ second ∈ fields, ∀ spelling ∈ first,
    spelling ∈ second → first = second := by
  decide

theorem definedTags_dependOnField :
    DependsOnField definedTagsComplaints readDefinedTags definedTagsSpellings := by
  intro first second h
  simp only [definedTagsComplaints, readDefinedTags, h, and_self]

theorem switch_dependsOnField (spellings : List String) :
    DependsOnField (switchComplaints · spellings) (readSwitch · spellings) spellings := by
  intro first second h
  simp only [switchComplaints, readSwitch, h, and_self]

theorem mem_usedKeys_iff {entries : Dict Value} {key : String} :
    key ∈ usedKeys entries ↔ ∃ spellings ∈ fields, fieldSpelling? entries spellings = some key :=
  List.mem_filterMap

/-- No key is complained about exactly if a field is read from each. The second spelling of a field
that is there under the first one is complained about, too. -/
theorem keyComplaints_eq_nil_iff {entries : Dict Value} :
    keyComplaints entries = [] ↔
      ∀ key ∈ Dict.keys entries, ∃ spellings ∈ fields, fieldSpelling? entries spellings = some key := by
  simp only [keyComplaints, List.map_eq_nil_iff, List.filter_eq_nil_iff, decide_eq_true_eq,
    Classical.not_not, mem_usedKeys_iff]

theorem complaints_eq_nil_iff {entries : Dict Value} :
    complaints entries = [] ↔
      definedTagsComplaints entries = [] ∧ switchComplaints entries jsxTagsSpellings = [] ∧
        switchComplaints entries typedSpellings = [] ∧ keyComplaints entries = [] := by
  simp only [complaints, List.append_eq_nil_iff, and_assoc]

/-- Options are read from a table exactly if there is nothing to complain about. -/
theorem ofEntries_eq_ok_iff {entries : Dict Value} {options : Options} :
    ofEntries entries = .ok options ↔
      complaints entries = [] ∧ options = ⟨readDefinedTags entries, readSwitch entries jsxTagsSpellings,
        readSwitch entries typedSpellings⟩ := by
  unfold ofEntries
  cases complaints entries with
  | nil => simp [eq_comm]
  | cons first others => simp

/-- All that there is to complain about is said at once. -/
theorem ofEntries_eq_error {entries : Dict Value} (h : complaints entries ≠ []) :
    ofEntries entries = .error ⟨.options, complaints entries⟩ := by
  unfold ofEntries
  cases hfound : complaints entries with
  | nil => exact absurd hfound h
  | cons first others => rfl

end Options

/-! ## Settings -/

namespace Settings

theorem mode_dependsOnField : DependsOnField modeComplaints readMode modeSpellings := by
  intro first second h
  simp only [modeComplaints, readMode, h, and_self]

theorem table_dependsOnField (spellings : List String) :
    DependsOnField (tableComplaints · spellings) (readTable · spellings) spellings := by
  intro first second h
  simp only [tableComplaints, readTable, h, and_self]

theorem complaints_eq_nil_iff {entries : Dict Value} :
    complaints entries = [] ↔
      modeComplaints entries = [] ∧ tableComplaints entries preferenceSpellings = [] ∧
        tableComplaints entries structuredTagsSpellings = [] := by
  simp only [complaints, List.append_eq_nil_iff, and_assoc]

/-- Settings are read from a table exactly if there is nothing to complain about. -/
theorem ofEntries_eq_ok_iff {entries : Dict Value} {settings : Settings} :
    ofEntries entries = .ok settings ↔
      complaints entries = [] ∧ settings = ⟨readMode entries, readTable entries preferenceSpellings,
        readTable entries structuredTagsSpellings⟩ := by
  unfold ofEntries
  cases complaints entries with
  | nil => simp [eq_comm]
  | cons first others => simp

end Settings

end DocLint
