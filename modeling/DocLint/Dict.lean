/-!
# Dictionaries in Order of Insertion

A dictionary is the list of its entries, in the order in which their keys were first given. Setting a key
that is held already changes its value in place. Main statements: what a look-up gives after `set` and
after `erase`.
-/

namespace DocLint

/-- Values under text keys, in the order in which the keys were first given. -/
abbrev Dict (α : Type) := List (String × α)

namespace Dict

variable {α : Type}

/-- The value of a key. If a key stands in the list more than once, its first entry counts. -/
def get? : Dict α → String → Option α
  | [], _ => none
  | (k, v) :: rest, key => if k = key then some v else get? rest key

/-- Whether a key is held. -/
def contains (d : Dict α) (key : String) : Bool := (get? d key).isSome

/-- The keys in the order in which they were first given. -/
def keys (d : Dict α) : List String := d.map (·.1)

/-- The values in the order of their keys. -/
def values (d : Dict α) : List α := d.map (·.2)

/-- Gives a key a value: in place when the key is held, after all others when it is not. -/
def set : Dict α → String → α → Dict α
  | [], key, value => [(key, value)]
  | (k, v) :: rest, key, value =>
    if k = key then (k, value) :: rest else (k, v) :: set rest key value

/-- Takes a key and its value out. -/
def erase : Dict α → String → Dict α
  | [], _ => []
  | (k, v) :: rest, key => if k = key then erase rest key else (k, v) :: erase rest key

@[simp] theorem get?_set_self (d : Dict α) (key : String) (value : α) :
    get? (set d key value) key = some value := by
  induction d with
  | nil => simp [set, get?]
  | cons entry rest ih =>
    obtain ⟨k, v⟩ := entry
    by_cases h : k = key <;> simp [set, get?, h, ih]

theorem get?_set_of_ne (d : Dict α) {key other : String} (value : α) (h : key ≠ other) :
    get? (set d key value) other = get? d other := by
  induction d with
  | nil => simp [set, get?, h]
  | cons entry rest ih =>
    obtain ⟨k, v⟩ := entry
    by_cases hk : k = key
    · simp [set, get?, hk, h]
    · by_cases ho : k = other <;> simp_all [set, get?]

@[simp] theorem get?_erase_self (d : Dict α) (key : String) : get? (erase d key) key = none := by
  induction d with
  | nil => rfl
  | cons entry rest ih =>
    obtain ⟨k, v⟩ := entry
    by_cases h : k = key <;> simp [erase, get?, h, ih]

theorem get?_erase_of_ne (d : Dict α) {key other : String} (h : key ≠ other) :
    get? (erase d key) other = get? d other := by
  induction d with
  | nil => rfl
  | cons entry rest ih =>
    obtain ⟨k, v⟩ := entry
    by_cases hk : k = key
    · simp_all [erase, get?]
    · by_cases ho : k = other <;> simp_all [erase, get?]

end Dict

end DocLint
