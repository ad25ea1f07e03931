import Mathlib.Data.List.Forall2
import Mathlib.Data.List.Nodup
import DocLint.Proofs.JsonText
import DocLint.Proofs.Stops

/-!
# Lines That Stand for One Table Each

JSON Lines hold one table a line, its keys sorted. Main statements: `reordered_of_sortKeys_eq`, by which sorting the
keys loses nothing but their order, `lines_eq_ok_iff`, by which there are lines if every table can be written and
each is then ended by a line feed of its own, and `json_lines_unambiguous`.
-/

namespace DocLint

namespace Value

/-! ## Values up to the Order of Keys -/

/-- Whether two values differ at most in the order of the entries of tables: of the table that they
are, or of tables anywhere in them. -/
inductive Reordered : Value → Value → Prop where
  | refl (value : Value) : Reordered value value
  /-- The entries of this table are. -/
  | table {entries others : Dict Value} : entries.Perm others → Reordered (.table entries) (.table others)
  /-- It is something in the value of one entry. -/
  | entry {before after : Dict Value} {key : String} {value other : Value} :
      Reordered value other →
      Reordered (.table (before ++ (key, value) :: after)) (.table (before ++ (key, other) :: after))
  /-- It is something in one item of a list, whose items all keep their places. -/
  | item {before after : List Value} {value other : Value} :
      Reordered value other →
      Reordered (.list (before ++ value :: after)) (.list (before ++ other :: after))
  | trans {first second third : Value} :
      Reordered first second → Reordered second third → Reordered first third

/-- Each of the steps can be taken back. -/
theorem Reordered.symm {value other : Value} (h : Reordered value other) : Reordered other value := by
  induction h with
  | refl value => exact .refl value
  | table hperm => exact .table hperm.symm
  | entry _ ih => exact .entry ih
  | item _ ih => exact .item ih
  | trans _ _ ihFirst ihSecond => exact .trans ihSecond ihFirst

/-- Items may be reordered all at once. The items in front of them are those that are done, so that
the induction can take one item after the other. -/
theorem Reordered.items {change : Value → Value} {items : List Value}
    (h : ∀ item ∈ items, Reordered item (change item)) (before : List Value) :
    Reordered (.list (before ++ items)) (.list (before ++ items.map change)) := by
  induction items generalizing before with
  | nil => exact .refl _
  | cons item rest ih =>
    rw [List.forall_mem_cons] at h
    -- The first item is done now, and stands in front of the others.
    have hrest := ih h.2 (before ++ [change item])
    rw [List.append_assoc, List.append_assoc] at hrest
    exact .trans (.item h.1) hrest

/-- The values of entries may be reordered all at once, in the same way and under their keys. -/
theorem Reordered.entries {change : Value → Value} {entries : Dict Value}
    (h : ∀ entry ∈ entries, Reordered entry.2 (change entry.2)) (before : Dict Value) :
    Reordered (.table (before ++ entries))
      (.table (before ++ entries.map fun entry => (entry.1, change entry.2))) := by
  induction entries generalizing before with
  | nil => exact .refl _
  | cons entry rest ih =>
    rw [List.forall_mem_cons] at h
    have hrest := ih h.2 (before ++ [(entry.1, change entry.2)])
    rw [List.append_assoc, List.append_assoc] at hrest
    exact .trans (.entry h.1) hrest

/-! ## Sorted Keys -/

theorem sortKeysOfItems_eq (items : List Value) : sortKeysOfItems items = items.map sortKeys := by
  induction items with
  | nil => rfl
  | cons item rest ih => rw [sortKeysOfItems, ih, List.map_cons]

theorem sortKeysOfEntries_eq (entries : Dict Value) :
    sortKeysOfEntries entries = entries.map fun entry => (entry.1, entry.2.sortKeys) := by
  induction entries with
  | nil => rfl
  | cons entry rest ih => rw [sortKeysOfEntries, ih, List.map_cons]

/-- Sorting adds nothing that a plain value does not hold. -/
theorem IsPlain.sortKeys {value : Value} (h : value.IsPlain) : value.sortKeys.IsPlain := by
  induction h with
  | null => exact .null
  | bool b => exact .bool b
  | int i => exact .int i
  | text s => exact .text s
  | list _ ih =>
    rw [Value.sortKeys, sortKeysOfItems_eq]
    refine .list fun item hitem => ?_
    obtain ⟨original, hmem, rfl⟩ := List.mem_map.mp hitem
    exact ih original hmem
  | table _ ih =>
    rw [Value.sortKeys, sortKeysOfEntries_eq]
    refine .table fun entry hentry => ?_
    obtain ⟨original, hmem, rfl⟩ := List.mem_map.mp ((List.mergeSort_perm _ _).mem_iff.mp hentry)
    exact ih original hmem

/-- Sorting changes the order of entries only: of those inside first, and then of those around
them. -/
theorem IsPlain.reordered_sortKeys {value : Value} (h : value.IsPlain) : value.Reordered value.sortKeys := by
  induction h with
  | null => exact .refl _
  | bool b => exact .refl _
  | int i => exact .refl _
  | text s => exact .refl _
  | list _ ih =>
    rw [Value.sortKeys, sortKeysOfItems_eq]
    exact .items ih []
  | table _ ih =>
    rw [Value.sortKeys, sortKeysOfEntries_eq]
    exact .trans (.entries ih []) (.table (List.mergeSort_perm _ _).symm)

/-- Values that are the same with their keys sorted differ at most in the order of keys. -/
theorem reordered_of_sortKeys_eq {value other : Value} (hvalue : value.IsPlain) (hother : other.IsPlain)
    (h : value.sortKeys = other.sortKeys) : value.Reordered other := by
  -- The sorted value is the way from the one to the other.
  have hback := hother.reordered_sortKeys.symm
  rw [← h] at hback
  exact .trans hvalue.reordered_sortKeys hback

/-! ## Values That Can Be Written -/

/-- Whether a value can be written under limits, with some levels left for lists and tables: its
whole numbers are not too long, and no list or table stands on a level that is not left. A list or a
table takes a level even if it is empty. -/
inductive IsWritable (limits : Limits) : Nat → Value → Prop where
  | null {levels : Nat} : IsWritable limits levels .null
  | bool {levels : Nat} (b : Bool) : IsWritable limits levels (.bool b)
  /-- Of a whole number the digits count, its sign does not. -/
  | int {levels : Nat} {i : Int} : limits.allowsInteger i = true → IsWritable limits levels (.int i)
  | float {levels : Nat} (x : Binary64) : IsWritable limits levels (.float x)
  | text {levels : Nat} (s : String) : IsWritable limits levels (.text s)
  /-- The items stand one level further in. -/
  | list {levels : Nat} {items : List Value} :
      (∀ item ∈ items, IsWritable limits levels item) → IsWritable limits (levels + 1) (.list items)
  /-- So do the values of the entries; their keys are texts, which are always written. -/
  | table {levels : Nat} {entries : Dict Value} :
      (∀ entry ∈ entries, IsWritable limits levels entry.2) → IsWritable limits (levels + 1) (.table entries)

section Writable

variable {limits : Limits} {levels : Nat}

attribute [simp] IsWritable.null IsWritable.bool IsWritable.float IsWritable.text

@[simp] theorem isWritable_int_iff {i : Int} :
    (int i).IsWritable limits levels ↔ limits.allowsInteger i = true := by
  constructor
  · rintro ⟨⟩
    assumption
  · exact IsWritable.int

@[simp] theorem isWritable_list_iff {items : List Value} :
    (list items).IsWritable limits (levels + 1) ↔ ∀ item ∈ items, item.IsWritable limits levels := by
  constructor
  · rintro ⟨⟩
    assumption
  · exact IsWritable.list

@[simp] theorem isWritable_table_iff {entries : Dict Value} :
    (table entries).IsWritable limits (levels + 1) ↔
      ∀ entry ∈ entries, entry.2.IsWritable limits levels := by
  constructor
  · rintro ⟨⟩
    assumption
  · exact IsWritable.table

/-- The order of keys has no say in whether a value can be written. -/
theorem IsPlain.isWritable_sortKeys_iff {value : Value} (h : value.IsPlain) :
    value.sortKeys.IsWritable limits levels ↔ value.IsWritable limits levels := by
  induction h generalizing levels with
  | null => exact Iff.rfl
  | bool b => exact Iff.rfl
  | int i => exact Iff.rfl
  | text s => exact Iff.rfl
  | list _ ih =>
    rw [Value.sortKeys, sortKeysOfItems_eq]
    cases levels with
    | zero => exact ⟨nofun, nofun⟩
    | succ levels =>
      -- The same items stand there, each sorted inside, with one level less left for them.
      rw [isWritable_list_iff, isWritable_list_iff, List.forall_mem_map]
      exact forall₂_congr fun item hitem => ih item hitem
  | table _ ih =>
    rw [Value.sortKeys, sortKeysOfEntries_eq]
    cases levels with
    | zero => exact ⟨nofun, nofun⟩
    | succ levels =>
      rw [isWritable_table_iff, isWritable_table_iff]
      simp only [Dict.sortByKey, (List.mergeSort_perm _ _).mem_iff, List.forall_mem_map]
      exact forall₂_congr fun entry hentry => ih entry hentry

end Writable

/-! ## Distinct Keys -/

/-- Whether no table in a value holds a key twice. A host hands such tables in; in others the order
of two entries for one key would be told by their line. -/
inductive HasDistinctKeys : Value → Prop where
  | null : HasDistinctKeys .null
  | bool (b : Bool) : HasDistinctKeys (.bool b)
  | int (i : Int) : HasDistinctKeys (.int i)
  | float (x : Binary64) : HasDistinctKeys (.float x)
  | text (s : String) : HasDistinctKeys (.text s)
  | moment (m : Moment) : HasDistinctKeys (.moment m)
  | list {items : List Value} : (∀ item ∈ items, HasDistinctKeys item) → HasDistinctKeys (.list items)
  | table {entries : Dict Value} : (Dict.keys entries).Nodup → (∀ entry ∈ entries, HasDistinctKeys entry.2) →
      HasDistinctKeys (.table entries)

attribute [simp] HasDistinctKeys.null HasDistinctKeys.bool HasDistinctKeys.int HasDistinctKeys.float
  HasDistinctKeys.text HasDistinctKeys.moment

@[simp] theorem hasDistinctKeys_list_iff {items : List Value} :
    (list items).HasDistinctKeys ↔ ∀ item ∈ items, item.HasDistinctKeys := by
  constructor
  · rintro ⟨⟩
    assumption
  · exact HasDistinctKeys.list

@[simp] theorem hasDistinctKeys_table_iff {entries : Dict Value} :
    (table entries).HasDistinctKeys ↔
      (Dict.keys entries).Nodup ∧ ∀ entry ∈ entries, entry.2.HasDistinctKeys := by
  constructor
  · rintro ⟨⟩
    constructor <;> assumption
  · rintro ⟨hkeys, hentries⟩
    exact .table hkeys hentries

/-- Entries with distinct keys are sorted alike, whatever order they come in. -/
theorem sortByKey_eq_of_perm {entries others : Dict Value} (hkeys : (Dict.keys entries).Nodup)
    (hperm : entries.Perm others) : Dict.sortByKey entries = Dict.sortByKey others := by
  -- Sorting by keys orders the entries by them, since the order of texts is total and transitive.
  have hsorted : ∀ d : Dict Value, (Dict.sortByKey d).Pairwise fun a b => decide (a.1 ≤ b.1) = true := by
    intro d
    apply List.pairwise_mergeSort
    · intro a b c hab hbc
      simp only [decide_eq_true_eq] at hab hbc ⊢
      exact String.le_trans hab hbc
    · intro a b
      simpa using String.le_total a.1 b.1
  -- The same entries stand in both, each in the place that its key gives it.
  have hsame : (Dict.sortByKey entries).Perm (Dict.sortByKey others) :=
    ((List.mergeSort_perm _ _).trans hperm).trans (List.mergeSort_perm _ _).symm
  refine List.Perm.eq_of_pairwise ?_ (hsorted entries) (hsorted others) hsame
  -- Entries that could change places have the same key, so they are the same entry.
  intro a b ha hb hab hba
  simp only [decide_eq_true_eq] at hab hba
  have ha := (List.mergeSort_perm _ _).mem_iff.mp ha
  have hb := hperm.mem_iff.mpr ((List.mergeSort_perm _ _).mem_iff.mp hb)
  exact List.inj_on_of_nodup_map hkeys ha hb (String.le_antisymm hab hba)

/-- Distinct keys stay distinct in another order. -/
theorem HasDistinctKeys.reordered {value other : Value} (h : value.HasDistinctKeys)
    (hsame : value.Reordered other) : other.HasDistinctKeys := by
  induction hsame with
  | refl value => exact h
  | table hperm =>
    rw [hasDistinctKeys_table_iff] at h ⊢
    exact ⟨(hperm.map _).nodup_iff.mp h.1, fun entry hentry => h.2 entry (hperm.mem_iff.mpr hentry)⟩
  | entry _ ih =>
    simp only [hasDistinctKeys_table_iff, List.forall_mem_append, List.forall_mem_cons] at h ⊢
    obtain ⟨hkeys, hbefore, hvalue, hafter⟩ := h
    exact ⟨by simpa [Dict.keys] using hkeys, hbefore, ih hvalue, hafter⟩
  | item _ ih =>
    simp only [hasDistinctKeys_list_iff, List.forall_mem_append, List.forall_mem_cons] at h ⊢
    obtain ⟨hbefore, hvalue, hafter⟩ := h
    exact ⟨hbefore, ih hvalue, hafter⟩
  | trans _ _ ihFirst ihSecond => exact ihSecond (ihFirst h)

/-- With distinct keys, values that differ at most in the order of keys are the same with their keys
sorted. -/
theorem sortKeys_eq_of_reordered {value other : Value} (hsame : value.Reordered other)
    (h : value.HasDistinctKeys) : value.sortKeys = other.sortKeys := by
  induction hsame with
  | refl value => rfl
  -- Here the keys decide: of two entries for one key the order would stay.
  | @table entries others hperm =>
    obtain ⟨hkeys, -⟩ := hasDistinctKeys_table_iff.mp h
    rw [sortKeys, sortKeys, sortKeysOfEntries_eq, sortKeysOfEntries_eq]
    refine congrArg table (sortByKey_eq_of_perm ?_ (hperm.map _))
    simpa [Dict.keys, Function.comp_def] using hkeys
  | entry _ ih =>
    simp only [hasDistinctKeys_table_iff, List.forall_mem_append, List.forall_mem_cons] at h
    simp only [sortKeys, sortKeysOfEntries_eq, List.map_append, List.map_cons, ih h.2.2.1]
  | item _ ih =>
    simp only [hasDistinctKeys_list_iff, List.forall_mem_append, List.forall_mem_cons] at h
    simp only [sortKeys, sortKeysOfItems_eq, List.map_append, List.map_cons, ih h.2.1]
  | trans hfirst _ ihFirst ihSecond => exact (ihFirst h).trans (ihSecond (h.reordered hfirst))

end Value

namespace Json

/-! ## What Stops a Line -/

section Stopping

variable {limits : Limits} {levels : Nat}

theorem firstStopOfItems?_eq_none_iff {items : List Value} :
    firstStopOfItems? limits levels items = none ↔ ∀ item ∈ items, firstStop? limits levels item = none := by
  induction items with
  | nil => exact ⟨fun _ => nofun, fun _ => rfl⟩
  | cons item rest ih => rw [firstStopOfItems?, Option.or_eq_none_iff, ih, List.forall_mem_cons]

theorem firstStopOfEntries?_eq_none_iff {entries : Dict Value} :
    firstStopOfEntries? limits levels entries = none ↔
      ∀ entry ∈ entries, firstStop? limits levels entry.2 = none := by
  induction entries with
  | nil => exact ⟨fun _ => nofun, fun _ => rfl⟩
  | cons entry rest ih => rw [firstStopOfEntries?, Option.or_eq_none_iff, ih, List.forall_mem_cons]

theorem exists_of_firstStopOfItems? {items : List Value} {stop : Stop}
    (h : firstStopOfItems? limits levels items = some stop) :
    ∃ item ∈ items, firstStop? limits levels item = some stop := by
  induction items with
  | nil => cases h
  | cons item rest ih =>
    rw [firstStopOfItems?, Option.or_eq_some_iff] at h
    rcases h with hitem | ⟨-, hrest⟩
    · exact ⟨item, List.mem_cons_self, hitem⟩
    · obtain ⟨later, hlater, hstop⟩ := ih hrest
      exact ⟨later, List.mem_cons_of_mem item hlater, hstop⟩

theorem exists_of_firstStopOfEntries? {entries : Dict Value} {stop : Stop}
    (h : firstStopOfEntries? limits levels entries = some stop) :
    ∃ entry ∈ entries, firstStop? limits levels entry.2 = some stop := by
  induction entries with
  | nil => cases h
  | cons entry rest ih =>
    rw [firstStopOfEntries?, Option.or_eq_some_iff] at h
    rcases h with hentry | ⟨-, hrest⟩
    · exact ⟨entry, List.mem_cons_self, hentry⟩
    · obtain ⟨later, hlater, hstop⟩ := ih hrest
      exact ⟨later, List.mem_cons_of_mem entry hlater, hstop⟩

/-- Nothing stops the writing of a value exactly if it can be written. -/
theorem firstStop?_eq_none_iff {value : Value} (h : value.IsPlain) :
    firstStop? limits levels value = none ↔ value.IsWritable limits levels := by
  -- By induction on the value; each level that a list or a table takes is one less for what is in
  -- it.
  induction h generalizing levels with
  | null => exact iff_of_true (by rw [firstStop?]) .null
  | bool b => exact iff_of_true (by rw [firstStop?]) (.bool b)
  | int i =>
    rw [firstStop?, Value.isWritable_int_iff]
    cases limits.allowsInteger i <;> decide
  | text s => exact iff_of_true (by rw [firstStop?]) (.text s)
  | list _ ih =>
    cases levels with
    | zero => exact iff_of_false (by rw [firstStop?]; exact nofun) nofun
    | succ levels =>
      rw [firstStop?, firstStopOfItems?_eq_none_iff, Value.isWritable_list_iff]
      exact forall₂_congr fun item hitem => ih item hitem
  | table _ ih =>
    cases levels with
    | zero => exact iff_of_false (by rw [firstStop?]; exact nofun) nofun
    | succ levels =>
      rw [firstStop?, firstStopOfEntries?_eq_none_iff, Value.isWritable_table_iff]
      exact forall₂_congr fun entry hentry => ih entry hentry

/-- A plain value is stopped by a long number or by its depth. -/
theorem firstStop?_eq_some {value : Value} (h : value.IsPlain) {stop : Stop}
    (hstop : firstStop? limits levels value = some stop) : stop = .tooManyDigits ∨ stop = .tooDeep := by
  -- A plain value holds no moment, which is the one thing that has no form.
  induction h generalizing levels with
  | null => rw [firstStop?] at hstop; cases hstop
  | bool b => rw [firstStop?] at hstop; cases hstop
  | int i =>
    rw [firstStop?] at hstop
    split at hstop
    next => cases hstop
    next => exact .inl (Option.some.inj hstop).symm
  | text s => rw [firstStop?] at hstop; cases hstop
  | list _ ih =>
    cases levels with
    | zero => rw [firstStop?] at hstop; exact .inr (Option.some.inj hstop).symm
    | succ levels =>
      rw [firstStop?] at hstop
      obtain ⟨item, hitem, hstop⟩ := exists_of_firstStopOfItems? hstop
      exact ih item hitem hstop
  | table _ ih =>
    cases levels with
    | zero => rw [firstStop?] at hstop; exact .inr (Option.some.inj hstop).symm
    | succ levels =>
      rw [firstStop?] at hstop
      obtain ⟨entry, hentry, hstop⟩ := exists_of_firstStopOfEntries? hstop
      exact ih entry hentry hstop

end Stopping

/-! ## Lines -/

theorem lineChars_ne_nil (table : Dict Value) : lineChars table ≠ [] := by
  rw [lineChars, Value.sortKeys, chars]
  exact List.cons_ne_nil _ _

/-- Whether a table can be written on a line of its own. -/
def IsWritableLine (limits : Limits) (table : Dict Value) : Prop :=
  (Value.table table).IsWritable limits limits.writingLevels

theorem writeLine_eq_ok_iff {limits : Limits} {table : Dict Value} (htable : (Value.table table).IsPlain)
    {row : List Char} :
    writeLine limits table = .ok row ↔ IsWritableLine limits table ∧ lineChars table = row := by
  rw [IsWritableLine, ← htable.isWritable_sortKeys_iff, ← firstStop?_eq_none_iff htable.sortKeys, writeLine]
  cases firstStop? limits limits.writingLevels (Value.table table).sortKeys <;> simp

/-- A line is not written for one of two reasons only. -/
theorem eq_of_writeLine_eq_error {limits : Limits} {table : Dict Value} (htable : (Value.table table).IsPlain)
    {stop : Stop} (h : writeLine limits table = .error stop) : stop = .tooManyDigits ∨ stop = .tooDeep := by
  unfold writeLine at h
  split at h
  next found hfound => exact Except.error.inj h ▸ firstStop?_eq_some htable.sortKeys hfound
  next => cases h

/-- Lines with line feeds between them and one behind the last are lines with a line feed behind
each. -/
theorem intercalate_append_newline {rows : List (List Char)} (h : rows ≠ []) :
    List.intercalate ['\n'] rows ++ ['\n'] = rows.flatMap fun row => row ++ ['\n'] := by
  induction rows with
  | nil => exact absurd rfl h
  | cons row rest ih =>
    cases rest with
    | nil => simp
    | cons next rest =>
      rw [List.intercalate_cons_cons, List.append_assoc, ih (List.cons_ne_nil _ _)]
      rfl

/-- The text of tables that stand on a line each, which a line feed ends. -/
def linesText (tables : List (Dict Value)) : String :=
  String.ofList (tables.flatMap fun table => lineChars table ++ ['\n'])

theorem toList_linesText (tables : List (Dict Value)) :
    (linesText tables).toList = tables.flatMap fun table => lineChars table ++ ['\n'] :=
  String.toList_ofList

/-- The rows of tables, put together, are their text. No row is empty, so only without tables is
there no text. -/
theorem ofList_intercalate_map_lineChars (tables : List (Dict Value)) :
    let payload := List.intercalate ['\n'] (tables.map lineChars)
    String.ofList (if payload.isEmpty then [] else payload ++ ['\n']) = linesText tables := by
  intro payload
  cases tables with
  | nil => rfl
  | cons table rest =>
    have hpayload : ¬ payload.isEmpty = true := by
      cases rest <;> simp [payload, List.intercalate_cons_cons, lineChars_ne_nil]
    rw [if_neg hpayload, intercalate_append_newline (by simp), List.flatMap_map]
    rfl

/-- There are lines if every table can be written, and then each table stands on one. -/
theorem lines_eq_ok_iff {limits : Limits} {tables : List (Dict Value)}
    (htables : ∀ table ∈ tables, (Value.table table).IsPlain) {text : String} :
    lines limits tables = .ok text ↔
      (∀ table ∈ tables, IsWritableLine limits table) ∧ linesText tables = text := by
  rw [← ofList_intercalate_map_lineChars, lines, bind_eq_ok_iff]
  -- The rows are those of the tables, one by one.
  simp only [mapM_eq_ok_iff fun table htable _ => writeLine_eq_ok_iff (htables table htable)]
  constructor
  · rintro ⟨rows, ⟨hwritable, rfl⟩, htext⟩
    exact ⟨hwritable, Except.ok.inj htext⟩
  · rintro ⟨hwritable, rfl⟩
    exact ⟨_, ⟨hwritable, rfl⟩, rfl⟩

/-- What stops the lines is what stops one of them. -/
theorem eq_of_lines_eq_error {limits : Limits} {tables : List (Dict Value)}
    (htables : ∀ table ∈ tables, (Value.table table).IsPlain) {stop : Stop}
    (h : lines limits tables = .error stop) : stop = .tooManyDigits ∨ stop = .tooDeep := by
  rcases bind_eq_error_iff.mp h with hrows | ⟨_, -, ⟨⟩⟩
  obtain ⟨table, htable, hstop⟩ := exists_of_mapM_eq_error hrows
  exact eq_of_writeLine_eq_error (htables table htable) hstop

section

variable {table : Dict Value} (htable : (Value.table table).IsPlain)

include htable

theorem isPrintable_of_mem_lineChars {c : Char} (h : c ∈ lineChars table) : IsPrintable c :=
  isPrintable_of_mem_chars htable.sortKeys h

/-- A line feed is not printable, so no line holds one. -/
theorem newline_not_mem_lineChars : '\n' ∉ lineChars table := by
  intro h
  exact absurd (isPrintable_of_mem_lineChars htable h) (by decide)

end

/-- There is a line feed for each table and no other. -/
theorem count_newline_linesText {tables : List (Dict Value)}
    (htables : ∀ table ∈ tables, (Value.table table).IsPlain) :
    (linesText tables).toList.count '\n' = tables.length := by
  rw [toList_linesText]
  induction tables with
  | nil => rfl
  | cons table rest ih =>
    rw [List.forall_mem_cons] at htables
    have hline := List.count_eq_zero.mpr (newline_not_mem_lineChars htables.1)
    rw [List.flatMap_cons, List.count_append, List.count_append, hline, ih htables.2, List.length_cons]
    exact Nat.add_comm 1 _

/-- Whether two tables hold the same, up to the order of keys. -/
def SameTable (table other : Dict Value) : Prop := (Value.table table).Reordered (.table other)

/-- The lines give the tables back, up to the order of keys. Each line is told from the text behind
it, so one list of lines is taken off the other line by line. -/
theorem forall₂_sameTable_of_flatMap_eq {tables others : List (Dict Value)}
    (htables : ∀ table ∈ tables, (Value.table table).IsPlain)
    (hothers : ∀ other ∈ others, (Value.table other).IsPlain)
    (h : (tables.flatMap fun table => lineChars table ++ ['\n']) =
      others.flatMap fun other => lineChars other ++ ['\n']) :
    List.Forall₂ SameTable tables others := by
  induction tables generalizing others with
  | nil =>
    cases others with
    | nil => exact .nil
    | cons other others =>
      rw [List.flatMap_cons, List.append_assoc] at h
      exact absurd h.symm (List.append_ne_nil_of_left_ne_nil (lineChars_ne_nil other) _)
  | cons table tables ih =>
    cases others with
    | nil =>
      rw [List.flatMap_cons, List.append_assoc] at h
      exact absurd h (List.append_ne_nil_of_left_ne_nil (lineChars_ne_nil table) _)
    | cons other others =>
      simp only [List.flatMap_cons, List.append_assoc, List.singleton_append] at h
      rw [List.forall_mem_cons] at htables hothers
      -- The line feed ends what the line says, so the values on the first lines are the same.
      have hends : ∀ rest : List Char, EndsNumber ('\n' :: rest) := endsNumber_cons (by decide)
      obtain ⟨hsorted, hrest⟩ :=
        chars_append_inj htables.1.sortKeys hothers.1.sortKeys _ _ (hends _) (hends _) h
      exact .cons (Value.reordered_of_sortKeys_eq htables.1 hothers.1 hsorted)
        (ih htables.2 hothers.2 (List.cons_eq_cons.mp hrest).2)

/-- With distinct keys, tables that are the same up to the order of keys have the same lines. -/
theorem linesText_eq_of_forall₂_sameTable {tables others : List (Dict Value)}
    (hkeys : ∀ table ∈ tables, (Value.table table).HasDistinctKeys)
    (h : List.Forall₂ SameTable tables others) : linesText tables = linesText others := by
  unfold linesText
  congr 1
  -- Table by table: each is the same with its keys sorted, and so is its line.
  induction h with
  | nil => rfl
  | cons hsame _ ih =>
    rw [List.forall_mem_cons] at hkeys
    rw [List.flatMap_cons, List.flatMap_cons, ih hkeys.2, lineChars,
      Value.sortKeys_eq_of_reordered hsame hkeys.1]
    rfl

/-- A null inside of a number of lists. -/
def nestedNull : Nat → Value
  | 0 => .null
  | depth + 1 => .list [nestedNull depth]

theorem isPlain_nestedNull (depth : Nat) : (nestedNull depth).IsPlain := by
  induction depth with
  | zero => exact .null
  | succ depth ih => exact .list (List.forall_mem_singleton.mpr ih)

theorem sortKeys_nestedNull (depth : Nat) : (nestedNull depth).sortKeys = nestedNull depth := by
  induction depth with
  | zero => rfl
  | succ depth ih => rw [nestedNull, Value.sortKeys, Value.sortKeysOfItems, Value.sortKeysOfItems, ih]

/-- One list more than there are levels is too many. -/
theorem firstStop?_nestedNull (limits : Limits) (levels : Nat) :
    firstStop? limits levels (nestedNull (levels + 1)) = some .tooDeep := by
  induction levels with
  | zero => rw [nestedNull, firstStop?]
  | succ levels ih => rw [nestedNull, firstStop?, firstStopOfItems?, ih, Option.some_or]

end Json

end DocLint
