import DocLint.Dict

/-!
# Look-Ups in Dictionaries

What a look-up says about the entries of a dictionary, and the other way round. A dictionary that holds
each key once is determined by its look-ups; setting and erasing keys keeps it so. Main statements:
`mem_of_get?` with its converse `get?_of_mem`, `get?_of_perm`, by which the order of entries does not matter,
and the two theorems on the keys after `set` and `erase`.
-/

namespace DocLint.Dict

variable {α : Type}

/-! ## Keys and Entries -/

theorem get?_eq_none_iff (d : Dict α) (key : String) : get? d key = none ↔ key ∉ keys d := by
  -- A look-up goes through the entries in order, and so does the induction.
  induction d with
  | nil => simp [get?, keys]
  | cons entry rest ih =>
    obtain ⟨k, v⟩ := entry
    by_cases h : k = key
    · simp [get?, keys, h]
    · have h' : key ≠ k := fun heq => h heq.symm
      simp only [get?, if_neg h, ih]
      simp [keys, h']

/-- What a look-up gives stands in the dictionary. -/
theorem mem_of_get? {d : Dict α} {key : String} {value : α} (h : get? d key = some value) :
    (key, value) ∈ d := by
  induction d with
  | nil => simp [get?] at h
  | cons entry rest ih =>
    obtain ⟨k, v⟩ := entry
    by_cases hk : k = key
    · simp only [get?, if_pos hk, Option.some.injEq] at h
      rw [hk, h]
      exact List.mem_cons_self ..
    · simp only [get?, if_neg hk] at h
      exact List.mem_cons_of_mem _ (ih h)

/-- In a dictionary that holds each key once, an entry is what the look-up of its key gives. -/
theorem get?_of_mem {d : Dict α} (hd : (keys d).Nodup) {key : String} {value : α}
    (h : (key, value) ∈ d) : get? d key = some value := by
  induction d with
  | nil => simp at h
  | cons entry rest ih =>
    obtain ⟨k, v⟩ := entry
    have hparts : k ∉ keys rest ∧ (keys rest).Nodup := by
      simpa [keys] using hd
    rcases List.mem_cons.mp h with heq | hrest
    · cases heq
      simp [get?]
    · -- The first entry is of another key, since the key is held once and comes later.
      have hkey : key ∈ keys rest := List.mem_map.mpr ⟨_, hrest, rfl⟩
      have hne : k ≠ key := fun heq => hparts.1 (heq ▸ hkey)
      simp only [get?, if_neg hne]
      exact ih hparts.2 hrest

/-- The order of entries does not matter to look-ups if each key is held once. -/
theorem get?_of_perm {d other : Dict α} (h : d.Perm other) (hd : (keys d).Nodup) (key : String) :
    get? d key = get? other key := by
  have hother : (keys other).Nodup := (h.map _).nodup_iff.mp hd
  cases hget : get? other key with
  | some value => exact get?_of_mem hd (h.mem_iff.mpr (mem_of_get? hget))
  | none =>
    -- The same keys are held on both sides.
    rw [get?_eq_none_iff] at hget ⊢
    exact fun hmem => hget ((h.map _).mem_iff.mp hmem)

/-- With another value in one of its entries, a dictionary has the same look-ups, but for that
key. -/
theorem get?_replace_cases (before after : Dict α) (held : String) (value other : α) (key : String) :
    get? (before ++ (held, value) :: after) key = get? (before ++ (held, other) :: after) key ∨
      held = key ∧ get? (before ++ (held, value) :: after) key = some value ∧
        get? (before ++ (held, other) :: after) key = some other := by
  induction before with
  | nil =>
    by_cases h : held = key
    · exact Or.inr ⟨h, by simp [get?, h], by simp [get?, h]⟩
    · exact Or.inl (by simp [get?, h])
  | cons entry before ih =>
    obtain ⟨k, v⟩ := entry
    by_cases h : k = key
    · exact Or.inl (by simp [get?, h])
    · simpa [get?, h] using ih

/-! ## Keys after Changes -/

theorem mem_keys_set {d : Dict α} {key other : String} {value : α} :
    other ∈ keys (set d key value) ↔ other = key ∨ other ∈ keys d := by
  -- A key that is not held is one whose look-up fails, and look-ups after `set` are known.
  rw [← Decidable.not_iff_not, not_or, ← get?_eq_none_iff, ← get?_eq_none_iff]
  by_cases h : other = key
  · simp [h]
  · rw [get?_set_of_ne d value (Ne.symm h)]
    simp [h]

/-- Setting a key replaces its entry or adds one at the end, so no key is held twice. -/
theorem nodup_keys_set {d : Dict α} (hd : (keys d).Nodup) (key : String) (value : α) :
    (keys (set d key value)).Nodup := by
  induction d with
  | nil => simp [set, keys]
  | cons entry rest ih =>
    obtain ⟨k, v⟩ := entry
    have hparts : k ∉ keys rest ∧ (keys rest).Nodup := by
      simpa [keys] using hd
    by_cases h : k = key
    · simpa [set, h, keys] using hd
    · have hk : k ∉ keys (set rest key value) := by
        rw [mem_keys_set, not_or]
        exact ⟨h, hparts.1⟩
      simpa [set, h, keys] using And.intro hk (ih hparts.2)

theorem erase_eq_filter (d : Dict α) (key : String) :
    erase d key = d.filter fun entry => entry.1 != key := by
  induction d with
  | nil => rfl
  | cons entry rest ih =>
    obtain ⟨k, v⟩ := entry
    by_cases h : k = key <;> simp [erase, h, ih]

theorem nodup_keys_erase {d : Dict α} (hd : (keys d).Nodup) (key : String) :
    (keys (erase d key)).Nodup := by
  rw [erase_eq_filter]
  exact hd.sublist (List.filter_sublist.map _)

end DocLint.Dict
