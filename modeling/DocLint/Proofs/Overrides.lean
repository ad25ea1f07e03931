import DocLint.Config.File
import DocLint.Proofs.Fields

/-!
# Overrides over a File

Overrides are put over a file key by key, and fields are read only afterwards. So what becomes of a field
depends on how it is spelled on both sides. Main statements: `get?_override`, what a key has under
overrides, and `findField_override`, by which a field is found where the first spelling is that either side
gives.
-/

namespace DocLint

/-! ## Keys -/

/-- Whether a value is null, which overrides nothing. -/
def Value.isNull : Value → Bool
  | .null => true
  | _ => false

namespace Config

/-- A table without its nulls: what is left of overrides that are put over a file. -/
def withoutNulls (entries : Dict Value) : Dict Value := entries.filter fun entry => !entry.2.isNull

/-- The first override is put in, unless it is null, before the others are. -/
theorem override_cons (key : String) (value : Value) (rest defaults : Dict Value) :
    override ((key, value) :: rest) defaults =
      override rest (if value.isNull then defaults else Dict.set defaults key value) := by
  cases value <;> rfl

theorem withoutNulls_cons (key : String) (value : Value) (rest : Dict Value) :
    withoutNulls ((key, value) :: rest) =
      if value.isNull then withoutNulls rest else (key, value) :: withoutNulls rest := by
  unfold withoutNulls
  cases hnull : value.isNull <;> simp [hnull]

theorem get?_withoutNulls_of_not_mem {entries : Dict Value} {key : String}
    (h : key ∉ Dict.keys entries) : Dict.get? (withoutNulls entries) key = none := by
  rw [Dict.get?_eq_none_iff]
  intro hmem
  exact h ((List.filter_sublist.map _).subset hmem)

/-- Under overrides that hold each key once, a key has the value that they give it, unless that is
null, and else the value that it had. -/
theorem get?_override {overrides : Dict Value} (hkeys : (Dict.keys overrides).Nodup)
    (defaults : Dict Value) (key : String) :
    Dict.get? (override overrides defaults) key =
      (Dict.get? (withoutNulls overrides) key).or (Dict.get? defaults key) := by
  -- What was put in before is the default for the rest.
  induction overrides generalizing defaults with
  | nil => rfl
  | cons entry rest ih =>
    obtain ⟨other, value⟩ := entry
    have hparts : other ∉ Dict.keys rest ∧ (Dict.keys rest).Nodup := by
      simpa [Dict.keys] using hkeys
    rw [override_cons, withoutNulls_cons, ih hparts.2]
    cases hnull : value.isNull with
    | true => simp only [if_true]
    | false =>
      simp only [Bool.false_eq_true, if_false]
      -- The key is not among the rest, so nothing later takes the value away again.
      by_cases heq : other = key
      · subst heq
        simp [get?_withoutNulls_of_not_mem hparts.1, Dict.get?]
      · simp only [Dict.get?, if_neg heq, Dict.get?_set_of_ne defaults value heq]

/-- Under overrides the keys are those of either side, but for keys that are given as null only. -/
theorem mem_keys_override {overrides : Dict Value} (hkeys : (Dict.keys overrides).Nodup)
    {defaults : Dict Value} {key : String} :
    key ∈ Dict.keys (override overrides defaults) ↔
      key ∈ Dict.keys (withoutNulls overrides) ∨ key ∈ Dict.keys defaults := by
  -- What look-ups tell is which keys are not there, so both sides are negated.
  rw [← Decidable.not_iff_not, not_or, ← Dict.get?_eq_none_iff, ← Dict.get?_eq_none_iff,
    ← Dict.get?_eq_none_iff, get?_override hkeys, Option.or_eq_none_iff]

/-! ## Fields -/

/-- Whether a table gives a field. -/
def gives (entries : Dict Value) (spellings : List String) : Bool :=
  (fieldSpelling? entries spellings).isSome

/-- Whether two tables do not give a field under different spellings. -/
def spelledAlike (first second : Dict Value) (spellings : List String) : Bool :=
  match fieldSpelling? first spellings, fieldSpelling? second spellings with
  | some one, some other => one == other
  | _, _ => true

/-- Whether overrides give a field, and the file does not give it under an earlier spelling. Both
keys stand in the outcome then, and a field is read from the first of its spellings there. -/
def wins (overrides file : Dict Value) (spellings : List String) : Bool :=
  match fieldSpelling? overrides spellings, fieldSpelling? file spellings with
  | some given, some held => decide (spellings.idxOf given ≤ spellings.idxOf held)
  | some _, none => true
  | none, _ => false

/-- Overrides win every field that they give if both sides spell it alike. -/
theorem wins_of_spelledAlike {overrides file : Dict Value} {spellings : List String}
    (h : spelledAlike overrides file spellings = true) :
    wins overrides file spellings = gives overrides spellings := by
  unfold spelledAlike at h
  unfold wins gives
  cases hgiven : fieldSpelling? overrides spellings with
  | none => rfl
  | some given =>
    cases hheld : fieldSpelling? file spellings with
    | none => rfl
    | some held =>
      have heq : given = held := by simpa [hgiven, hheld] using h
      simp [heq]

/-- A spelling under which a field is found comes after one that is not given. -/
theorem idxOf_fieldSpelling? {entries : Dict Value} {first : String} {others : List String}
    {spelling : String} (hfirst : Dict.get? entries first = none)
    (h : fieldSpelling? entries others = some spelling) :
    (first :: others).idxOf spelling = others.idxOf spelling + 1 := by
  have hne : first ≠ spelling := by
    rintro rfl
    exact (Dict.get?_eq_none_iff entries first).mp hfirst (mem_of_fieldSpelling? h).2
  rw [List.idxOf_cons, beq_false_of_ne hne, cond_false]

/-- The first spelling that is given on either side decides who wins a field. -/
theorem wins_cons (overrides file : Dict Value) (first : String) (others : List String) :
    wins overrides file (first :: others) =
      if (Dict.get? overrides first).isSome then true
      else if (Dict.get? file first).isSome then false
      else wins overrides file others := by
  unfold wins
  rw [fieldSpelling?_cons, fieldSpelling?_cons]
  cases hoverrides : Dict.get? overrides first with
  | some value =>
    -- The first spelling is at no later place than any that the file may use.
    cases hfile : (if (Dict.get? file first).isSome then some first else fieldSpelling? file others) with
    | none => simp
    | some held => simp
  | none =>
    simp only [Option.isSome_none, Bool.false_eq_true, if_false]
    cases hgiven : fieldSpelling? overrides others with
    | none => simp
    | some given =>
      -- Without the first spelling all places are one later, on either side.
      have hlater := idxOf_fieldSpelling? hoverrides hgiven
      cases hfile : Dict.get? file first with
      | some value => simp [hlater]
      | none =>
        cases hheld : fieldSpelling? file others with
        | none => simp
        | some held => simp [hlater, idxOf_fieldSpelling? hfile hheld]

/-- A field under overrides is what they give, if they win it, and else what was there. -/
theorem findField_override {overrides : Dict Value} (hkeys : (Dict.keys overrides).Nodup)
    (file : Dict Value) (spellings : List String) :
    findField (override overrides file) spellings =
      if wins (withoutNulls overrides) file spellings then findField (withoutNulls overrides) spellings
      else findField file spellings := by
  -- By induction on the spellings, in the order in which they are tried on both sides.
  induction spellings with
  | nil => rfl
  | cons first others ih =>
    rw [wins_cons, findField_cons, findField_cons, findField_cons, get?_override hkeys, ih]
    cases hoverrides : Dict.get? (withoutNulls overrides) first with
    | some value => simp
    | none =>
      cases hfile : Dict.get? file first with
      | some value => simp
      | none => simp

/-- The spelling under which a field is found under overrides is that of the side that wins it. -/
theorem fieldSpelling?_override {overrides : Dict Value} (hkeys : (Dict.keys overrides).Nodup)
    (file : Dict Value) (spellings : List String) :
    fieldSpelling? (override overrides file) spellings =
      if wins (withoutNulls overrides) file spellings then
        fieldSpelling? (withoutNulls overrides) spellings
      else fieldSpelling? file spellings := by
  unfold fieldSpelling?
  rw [findField_override hkeys]
  split
  · rfl
  · rfl

/-- A field without a fault on either side has none under overrides, and it is read from the side
that wins it. -/
theorem read_override {α : Type} {complain : Dict Value → List Complaint} {read : Dict Value → α}
    {spellings : List String} (hfield : DependsOnField complain read spellings)
    {overrides : Dict Value} (hkeys : (Dict.keys overrides).Nodup) {file : Dict Value}
    (hoverrides : complain (withoutNulls overrides) = []) (hfile : complain file = []) :
    complain (override overrides file) = [] ∧
      read (override overrides file) =
        if wins (withoutNulls overrides) file spellings then read (withoutNulls overrides)
        else read file := by
  -- The field is found where one of the sides has it, and nothing else counts for it.
  have hfound := findField_override hkeys file spellings
  by_cases hwins : wins (withoutNulls overrides) file spellings = true
  · rw [if_pos hwins] at hfound ⊢
    obtain ⟨hcomplain, hread⟩ := hfield hfound
    exact ⟨hcomplain.trans hoverrides, hread⟩
  · rw [if_neg hwins] at hfound ⊢
    obtain ⟨hcomplain, hread⟩ := hfield hfound
    exact ⟨hcomplain.trans hfile, hread⟩

end Config

end DocLint
