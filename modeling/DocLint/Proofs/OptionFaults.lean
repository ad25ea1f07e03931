import DocLint.Proofs.Relisting
import Mathlib.Data.List.Forall2
import Mathlib.Data.List.Nodup

/-!
# Faults of Options

All that can be wrong with options, said without reference to how they are checked: a field is read under one
of its spellings, what is read has to fit, and a key that no field is read from is a fault too. Main
statements: `Enumerates.eq`, by which a list of faults in order is determined, and
`rejection_lists_every_fault`, by which a rejection lists all faults in order and nothing else, and options
without a fault stand for what was given.
-/

namespace DocLint

/-! ## Lists in Order -/

/-- Whether a list holds the lines that a relation gives to numbers, each number once and in order.
Faults of one kind are stated as such a relation, and the list is what a rejection says. -/
def Enumerates (line : Nat → String → Prop) (lines : List String) : Prop :=
  ∃ numbers : List Nat, numbers.Pairwise (· < ·) ∧ List.Forall₂ line numbers lines ∧
    ∀ number text, line number text → number ∈ numbers

namespace Enumerates

variable {line other : Nat → String → Prop} {lines others : List String}

/-- The same lines may be told in other words. -/
theorem congr (h : Enumerates line lines) (hline : ∀ number text, line number text ↔ other number text) :
    Enumerates other lines := by
  have heq : line = other := funext fun number => funext fun text => propext (hline number text)
  exact heq ▸ h

theorem nil (hnone : ∀ number text, ¬ line number text) : Enumerates line [] :=
  ⟨[], List.Pairwise.nil, List.Forall₂.nil, fun number text h => absurd h (hnone number text)⟩

theorem singleton {text : String}
    (hline : ∀ number found, line number found ↔ number = 0 ∧ found = text) : Enumerates line [text] := by
  have hfirst : line 0 text := (hline 0 text).mpr ⟨rfl, rfl⟩
  refine ⟨[0], List.pairwise_singleton _ _, .cons hfirst .nil, ?_⟩
  intro number found h
  simp [((hline number found).mp h).1]

theorem mem_iff {numbers : List Nat} (hlines : List.Forall₂ line numbers lines)
    (hall : ∀ number text, line number text → number ∈ numbers) {number : Nat} :
    number ∈ numbers ↔ ∃ text, line number text := by
  constructor
  · intro hmem
    obtain ⟨index, hindex⟩ := List.getElem?_of_mem hmem
    obtain ⟨hlt, rfl⟩ := List.getElem?_eq_some_iff.mp hindex
    exact ⟨_, hlines.get hlt (hlines.length_eq ▸ hlt)⟩
  · rintro ⟨text, htext⟩
    exact hall number text htext

theorem ne_nil_iff (h : Enumerates line lines) : lines ≠ [] ↔ ∃ number text, line number text := by
  obtain ⟨numbers, -, hlines, hall⟩ := h
  constructor
  · intro hne
    cases hlines with
    | nil => exact absurd rfl hne
    | cons hline _ => exact ⟨_, _, hline⟩
  · rintro ⟨number, text, htext⟩ rfl
    cases hlines
    cases hall number text htext

/-- There is one list of lines in order if each number has one line at most. -/
theorem eq (h : Enumerates line lines) (hother : Enumerates line others)
    (hone : ∀ {number text found}, line number text → line number found → text = found) :
    lines = others := by
  obtain ⟨numbers, hsorted, hlines, hall⟩ := h
  obtain ⟨otherNumbers, hotherSorted, hotherLines, hotherAll⟩ := hother
  -- The numbers are the same in either list, and both times in order.
  have hperm : numbers.Perm otherNumbers :=
    (List.perm_ext_iff_of_nodup (hsorted.imp Nat.ne_of_lt) (hotherSorted.imp Nat.ne_of_lt)).mpr
      fun number => by rw [mem_iff hlines hall, mem_iff hotherLines hotherAll]
  have hnumbers : numbers = otherNumbers :=
    hperm.eq_of_pairwise (fun _ _ _ _ hlt hgt => absurd hgt (Nat.lt_asymm hlt)) hsorted hotherSorted
  subst hnumbers
  -- Now the lists stand beside the same numbers, and agree line by line.
  clear hsorted hall hotherSorted hotherAll hperm
  induction hlines generalizing others with
  | nil => cases hotherLines; rfl
  | cons hhead _ ih =>
    cases hotherLines with
    | cons hotherHead hotherTail => rw [hone hhead hotherHead, ih hotherTail]

/-- What is said of numbered items is said of some of their numbers, in order. -/
theorem exists_numbers_filterMap {α : Type} (entries : List (α × Nat))
    (describe : α × Nat → Option String) :
    ∃ numbers : List Nat, numbers.Sublist (entries.map Prod.snd) ∧
      List.Forall₂
        (fun number text => ∃ item, (item, number) ∈ entries ∧ describe (item, number) = some text)
        numbers (entries.filterMap describe) ∧
      ∀ entry ∈ entries, ∀ text, describe entry = some text → entry.2 ∈ numbers := by
  induction entries with
  | nil => exact ⟨[], List.Sublist.refl _, .nil, by simp⟩
  | cons entry entries ih =>
    obtain ⟨numbers, hsublist, hlines, hall⟩ := ih
    -- What is said of the others is said of members of the longer list, too.
    have hlater : List.Forall₂
        (fun number text =>
          ∃ item, (item, number) ∈ entry :: entries ∧ describe (item, number) = some text)
        numbers (entries.filterMap describe) := by
      refine hlines.imp ?_
      rintro number text ⟨item, hmem, hitem⟩
      exact ⟨item, List.mem_cons_of_mem entry hmem, hitem⟩
    cases hentry : describe entry with
    | none =>
      refine ⟨numbers, hsublist.cons _, by simpa [hentry] using hlater, ?_⟩
      intro found hfound text htext
      rcases List.mem_cons.mp hfound with rfl | hrest
      · rw [hentry] at htext
        cases htext
      · exact hall found hrest text htext
    | some text =>
      refine ⟨entry.2 :: numbers, hsublist.cons_cons _, ?_, ?_⟩
      · rw [List.filterMap_cons_some hentry]
        exact .cons ⟨entry.1, List.mem_cons_self .., hentry⟩ hlater
      · intro found hfound text htext
        rcases List.mem_cons.mp hfound with rfl | hrest
        · exact List.mem_cons_self ..
        · exact List.mem_cons_of_mem _ (hall found hrest text htext)

/-- What is said of the items of a list, in order, is said of their numbers in the list. -/
theorem of_zipIdx {α : Type} (items : List α) (describe : α × Nat → Option String) :
    Enumerates
      (fun number text => ∃ item, items[number]? = some item ∧ describe (item, number) = some text)
      (items.zipIdx.filterMap describe) := by
  obtain ⟨numbers, hsublist, hlines, hall⟩ := exists_numbers_filterMap items.zipIdx describe
  rw [List.zipIdx_map_snd] at hsublist
  refine ⟨numbers, (List.pairwise_lt_range' 1).sublist hsublist, ?_, ?_⟩
  · simpa only [List.mem_zipIdx_iff_getElem?] using hlines
  · rintro number text ⟨item, hitem, htext⟩
    exact hall (item, number) (List.mem_zipIdx_iff_getElem?.mpr hitem) text htext

end Enumerates

/-! ## What a Field Is Read From -/

/-- Whether a field with some spellings is read from an entry: that of the first spelling that is
given. -/
inductive IsReadFrom (entries : Dict Value) : List String → String → Value → Prop where
  /-- A spelling that is given hides all later ones. -/
  | first {spelling : String} {others : List String} {value : Value} :
      Dict.get? entries spelling = some value → IsReadFrom entries (spelling :: others) spelling value
  /-- A spelling that is not given is passed over. -/
  | later {spelling : String} {others : List String} {found : String} {value : Value} :
      Dict.get? entries spelling = none → IsReadFrom entries others found value →
        IsReadFrom entries (spelling :: others) found value

/-- Looking for a field finds the entry that it is read from. -/
theorem findField_eq_some_iff {entries : Dict Value} {spellings : List String} {key : String}
    {value : Value} :
    findField entries spellings = some (key, value) ↔ IsReadFrom entries spellings key value := by
  induction spellings with
  | nil => exact ⟨nofun, nofun⟩
  | cons spelling others ih =>
    rw [findField_cons]
    cases hget : Dict.get? entries spelling with
    -- A spelling that is given ends the search, and rules out that a later one is read.
    | some held =>
      constructor
      · intro h
        cases h
        exact .first hget
      · intro h
        cases h with
        | first hfirst => rw [Option.some.inj (hget.symm.trans hfirst)]
        | later hnone => rw [hget] at hnone; cases hnone
    | none =>
      constructor
      · exact fun h => .later hget (ih.mp h)
      · intro h
        cases h with
        | first hfirst => rw [hget] at hfirst; cases hfirst
        | later _ hlater => exact ih.mpr hlater

theorem findField_eq_none_iff {entries : Dict Value} {spellings : List String} :
    findField entries spellings = none ↔ ∀ key value, ¬ IsReadFrom entries spellings key value := by
  simp only [← findField_eq_some_iff, Option.eq_none_iff_forall_ne_some, Prod.forall, ne_eq]

theorem IsReadFrom.unique {entries : Dict Value} {spellings : List String} {key other : String}
    {value held : Value} (h : IsReadFrom entries spellings key value)
    (hother : IsReadFrom entries spellings other held) : other = key ∧ held = value := by
  rw [← findField_eq_some_iff] at h hother
  rw [h, Option.some.injEq, Prod.mk.injEq] at hother
  exact ⟨hother.1.symm, hother.2.symm⟩

theorem fieldSpelling?_eq_some_iff {entries : Dict Value} {spellings : List String} {key : String} :
    fieldSpelling? entries spellings = some key ↔ ∃ value, IsReadFrom entries spellings key value := by
  simp [fieldSpelling?, findField_eq_some_iff]

namespace Options

/-! ## Faults -/

section

variable (entries : Dict Value)

/-- What is wrong with the defined names, by number: that they are no list, a text being one of
names, or that the item of the number is no text. -/
inductive TagsFault : Nat → String → Prop where
  /-- Then nothing is said about items. -/
  | noList {key : String} {value : Value} :
      IsReadFrom entries definedTagsSpellings key value → (∀ s, value ≠ .text s) →
      (∀ items, value ≠ .list items) → TagsFault 0 (key ++ ": " ++ "Input should be a valid list")
  /-- Each item that is no text is a fault of its own. -/
  | noText {key : String} {items : List Value} {item : Value} {index : Nat} :
      IsReadFrom entries definedTagsSpellings key (.list items) → items[index]? = some item →
      (∀ s, item ≠ .text s) →
      TagsFault index (key ++ "." ++ integerText index ++ ": " ++ "Input should be a valid string")

/-- What is wrong with a field that has to be true or false. -/
inductive SwitchFault (spellings : List String) : Nat → String → Prop where
  | noBoolean {key : String} {value : Value} :
      IsReadFrom entries spellings key value → (∀ b, value ≠ .bool b) →
      SwitchFault spellings 0 (key ++ ": " ++ "Input should be a valid boolean")

/-- What is wrong with the key of a number: that no field is read from it. An empty location is
written as that of the whole. -/
inductive KeyFault : Nat → String → Prop where
  | unread {key : String} {index : Nat} :
      (Dict.keys entries)[index]? = some key →
      (∀ spellings ∈ fields, ∀ value, ¬ IsReadFrom entries spellings key value) →
      KeyFault index ((if key = "" then "<root>" else key) ++ ": " ++ "Extra inputs are not permitted")

/-- Whether anything is wrong with options. -/
def HasFault : Prop :=
  ∃ number text, TagsFault entries number text ∨ SwitchFault entries jsxTagsSpellings number text ∨
    SwitchFault entries typedSpellings number text ∨ KeyFault entries number text

/-- Whether a list holds all faults of options: those of the fields in turn, and those of the keys
last. -/
inductive ListsFaults : List String → Prop where
  | inOrder {tags jsx typed keys : List String} :
      Enumerates (TagsFault entries) tags → Enumerates (SwitchFault entries jsxTagsSpellings) jsx →
      Enumerates (SwitchFault entries typedSpellings) typed → Enumerates (KeyFault entries) keys →
      ListsFaults (tags ++ jsx ++ typed ++ keys)

end

/-! ## Faults Are Complained About -/

/-- No field has an empty spelling. -/
theorem ne_empty_of_isReadFrom {entries : Dict Value} {spellings : List String}
    (hfield : spellings ∈ fields) {key : String} {value : Value}
    (h : IsReadFrom entries spellings key value) : key ≠ "" := by
  have hnone : ∀ spellings ∈ fields, "" ∉ spellings := by decide
  rintro rfl
  exact hnone spellings hfield (mem_and_get?_of_findField (findField_eq_some_iff.mpr h)).1

theorem text_of_key (key : String) (problem : Problem) :
    (Complaint.mk key none problem).text = (if key = "" then "<root>" else key) ++ ": " ++ problem.text := rfl

theorem text_of_key_of_ne {key : String} (hkey : key ≠ "") (problem : Problem) :
    (Complaint.mk key none problem).text = key ++ ": " ++ problem.text := by
  rw [text_of_key, if_neg hkey]

theorem text_of_item (key : String) (index : Nat) (problem : Problem) :
    (Complaint.mk key (some index) problem).text =
      key ++ "." ++ integerText index ++ ": " ++ problem.text := by
  simp [Complaint.text, Complaint.location]

/-- The line about a numbered item, if it is no text. -/
def itemLine? (key : String) : Value × Nat → Option String
  | (.text _, _) => none
  | (_, index) => some (Complaint.mk key (some index) .notAText).text

/-- The lines about items, one for each that is no text. -/
theorem map_text_itemComplaints (key : String) (items : List Value) :
    (itemComplaints key items).map Complaint.text = items.zipIdx.filterMap (itemLine? key) := by
  unfold itemComplaints
  rw [List.map_filterMap]
  refine List.filterMap_congr ?_
  rintro ⟨item, index⟩ -
  cases item <;> rfl

/-- An item has a line exactly if it is no text. -/
theorem itemLine?_eq_some_iff {key text : String} {item : Value} {index : Nat} :
    itemLine? key (item, index) = some text ↔ (∀ s, item ≠ .text s) ∧
      text = key ++ "." ++ integerText index ++ ": " ++ "Input should be a valid string" := by
  have hline : (Complaint.mk key (some index) .notAText).text =
      key ++ "." ++ integerText index ++ ": " ++ "Input should be a valid string" :=
    text_of_item key index _
  cases item <;> simp [itemLine?, hline, eq_comm]

/-- The lines about the defined names are those of their faults. -/
theorem enumerates_definedTags (entries : Dict Value) :
    Enumerates (TagsFault entries) ((definedTagsComplaints entries).map Complaint.text) := by
  unfold definedTagsComplaints
  cases hfound : findField entries definedTagsSpellings with
  | none =>
    have hnone := findField_eq_none_iff.mp hfound
    refine Enumerates.nil ?_
    rintro number text (⟨hread, -, -⟩ | ⟨hread, -, -⟩)
    · exact hnone _ _ hread
    · exact hnone _ _ hread
  | some entry =>
    obtain ⟨key, value⟩ := entry
    have hread := findField_eq_some_iff.mp hfound
    -- Any other kind of value has one fault, that it is no list.
    have hsingle : (∀ s, value ≠ .text s) → (∀ items, value ≠ .list items) →
        Enumerates (TagsFault entries) [(Complaint.mk key none .notAList).text] := by
      intro htext hlist
      rw [text_of_key_of_ne (ne_empty_of_isReadFrom (by simp [fields]) hread)]
      refine Enumerates.singleton fun number found => ⟨?_, ?_⟩
      · rintro (⟨hother, -, -⟩ | ⟨hother, -, -⟩)
        · exact ⟨rfl, by rw [(hread.unique hother).1]; rfl⟩
        · exact absurd (hread.unique hother).2.symm (hlist _)
      · rintro ⟨rfl, rfl⟩
        exact .noList hread htext hlist
    cases value with
    | text s =>
      -- Every name that a text lists is a text.
      have hnil : itemComplaints key ((Text.namesOf s).map .text) = [] :=
        itemComplaints_eq_nil_iff.mpr (by simp [Value.text?])
      simp only [asList, hnil, List.map_nil]
      refine Enumerates.nil ?_
      rintro number text (⟨hother, htext, -⟩ | ⟨hother, -, -⟩)
      · exact htext s (hread.unique hother).2
      · cases (hread.unique hother).2
    | list items =>
      -- Each item that is no text has a fault of its own, under its own number.
      simp only [asList, map_text_itemComplaints]
      refine (Enumerates.of_zipIdx items (itemLine? key)).congr fun number text => ⟨?_, ?_⟩
      · rintro ⟨item, hitem, hline⟩
        obtain ⟨htext, rfl⟩ := itemLine?_eq_some_iff.mp hline
        exact .noText hread hitem htext
      · rintro (⟨hother, -, hlist⟩ | ⟨hother, hitem, htext⟩)
        · exact absurd (hread.unique hother).2 (hlist items)
        · obtain ⟨rfl, hitems⟩ := hread.unique hother
          cases hitems
          exact ⟨_, hitem, itemLine?_eq_some_iff.mpr ⟨htext, rfl⟩⟩
    | _ => exact hsingle (by simp) (by simp)

/-- The lines about a field that has to be true or false are those of its faults. -/
theorem enumerates_switch (entries : Dict Value) {spellings : List String}
    (hfield : spellings ∈ fields) :
    Enumerates (SwitchFault entries spellings)
      ((switchComplaints entries spellings).map Complaint.text) := by
  unfold switchComplaints
  cases hfound : findField entries spellings with
  | none =>
    have hnone := findField_eq_none_iff.mp hfound
    refine Enumerates.nil ?_
    rintro number text ⟨hread, -⟩
    exact hnone _ _ hread
  | some entry =>
    obtain ⟨key, value⟩ := entry
    have hread := findField_eq_some_iff.mp hfound
    -- Any value but a truth value has one fault.
    have hsingle : (∀ b, value ≠ .bool b) →
        Enumerates (SwitchFault entries spellings) [(Complaint.mk key none .notABoolean).text] := by
      intro hbool
      rw [text_of_key_of_ne (ne_empty_of_isReadFrom hfield hread)]
      refine Enumerates.singleton fun number found => ⟨?_, ?_⟩
      · rintro ⟨hother, -⟩
        exact ⟨rfl, by rw [(hread.unique hother).1]; rfl⟩
      · rintro ⟨rfl, rfl⟩
        exact .noBoolean hread hbool
    cases value with
    | bool b =>
      refine Enumerates.nil ?_
      rintro number text ⟨hother, hbool⟩
      exact hbool b (hread.unique hother).2
    | _ => exact hsingle (by simp)

/-- The line about a key, if no field is read from it. -/
def keyLine? (entries : Dict Value) (key : String) : Option String :=
  if key ∈ usedKeys entries then none else some (Complaint.mk key none .unknownKey).text

/-- The lines about keys, one for each that no field is read from. -/
theorem map_text_keyComplaints (entries : Dict Value) :
    (keyComplaints entries).map Complaint.text = (Dict.keys entries).filterMap (keyLine? entries) := by
  unfold keyComplaints
  induction Dict.keys entries with
  | nil => rfl
  | cons key keys ih =>
    by_cases hused : key ∈ usedKeys entries
    · simp [keyLine?, hused, ← ih]
    · simp [keyLine?, hused, ← ih]

/-- A key has a line exactly if no field is read from it. -/
theorem keyLine?_eq_some_iff {entries : Dict Value} {key text : String} :
    keyLine? entries key = some text ↔
      (∀ spellings ∈ fields, ∀ value, ¬ IsReadFrom entries spellings key value) ∧
        text = (if key = "" then "<root>" else key) ++ ": " ++ "Extra inputs are not permitted" := by
  have hline : (Complaint.mk key none .unknownKey).text =
      (if key = "" then "<root>" else key) ++ ": " ++ "Extra inputs are not permitted" :=
    text_of_key key _
  have hunread : key ∉ usedKeys entries ↔
      ∀ spellings ∈ fields, ∀ value, ¬ IsReadFrom entries spellings key value := by
    simp only [mem_usedKeys_iff, fieldSpelling?_eq_some_iff, not_exists, not_and]
  rw [← hunread, ← hline]
  by_cases hused : key ∈ usedKeys entries
  · simp [keyLine?, hused]
  · simp [keyLine?, hused, eq_comm]

/-- The lines about keys are those of the keys that no field is read from. -/
theorem enumerates_keys (entries : Dict Value) :
    Enumerates (KeyFault entries) ((keyComplaints entries).map Complaint.text) := by
  -- The line about a key does not say its number, which only keeps the keys in order.
  have hlines : (keyComplaints entries).map Complaint.text =
      (Dict.keys entries).zipIdx.filterMap fun entry => keyLine? entries entry.1 := by
    show _ = (Dict.keys entries).zipIdx.filterMap (keyLine? entries ∘ Prod.fst)
    rw [← List.filterMap_map, List.zipIdx_map_fst, map_text_keyComplaints]
  rw [hlines]
  refine (Enumerates.of_zipIdx (Dict.keys entries) _).congr fun number text => ⟨?_, ?_⟩
  · rintro ⟨key, hkey, hline⟩
    obtain ⟨hunread, rfl⟩ := keyLine?_eq_some_iff.mp hline
    exact .unread hkey hunread
  · rintro ⟨hkey, hunread⟩
    exact ⟨_, hkey, keyLine?_eq_some_iff.mpr ⟨hunread, rfl⟩⟩

/-- The lines of all complaints are all faults in order. -/
theorem listsFaults_complaints (entries : Dict Value) :
    ListsFaults entries ((complaints entries).map Complaint.text) := by
  simp only [complaints, List.map_append]
  exact .inOrder (enumerates_definedTags entries) (enumerates_switch entries (by simp [fields]))
    (enumerates_switch entries (by simp [fields])) (enumerates_keys entries)

/-! ## One List of Faults -/

/-- The defined names have one fault for each number. -/
theorem TagsFault.eq {entries : Dict Value} {number : Nat} {text found : String}
    (h : TagsFault entries number text) (hfound : TagsFault entries number found) : text = found := by
  cases h with
  | noList hread htext hlist =>
    cases hfound with
    | noList hother => rw [(hread.unique hother).1]
    | noText hother => exact absurd (hread.unique hother).2.symm (hlist _)
  | noText hread =>
    cases hfound with
    | noList hother _ hlist => exact absurd (hread.unique hother).2 (hlist _)
    | noText hother => rw [(hread.unique hother).1]

theorem SwitchFault.eq {entries : Dict Value} {spellings : List String} {number : Nat}
    {text found : String} (h : SwitchFault entries spellings number text)
    (hfound : SwitchFault entries spellings number found) : text = found := by
  obtain ⟨hread, -⟩ := h
  obtain ⟨hother, -⟩ := hfound
  rw [(hread.unique hother).1]

theorem KeyFault.eq {entries : Dict Value} {number : Nat} {text found : String}
    (h : KeyFault entries number text) (hfound : KeyFault entries number found) : text = found := by
  obtain ⟨hkey, -⟩ := h
  obtain ⟨hother, -⟩ := hfound
  rw [Option.some.inj (hkey.symm.trans hother)]

/-- All faults in order are one list: each of the four kinds has one list, and they stand in
turn. -/
theorem ListsFaults.eq {entries : Dict Value} {errors others : List String}
    (h : ListsFaults entries errors) (hother : ListsFaults entries others) : errors = others := by
  obtain ⟨htags, hjsx, htyped, hkeys⟩ := h
  obtain ⟨hotherTags, hotherJsx, hotherTyped, hotherKeys⟩ := hother
  rw [htags.eq hotherTags TagsFault.eq, hjsx.eq hotherJsx SwitchFault.eq,
    htyped.eq hotherTyped SwitchFault.eq, hkeys.eq hotherKeys KeyFault.eq]

theorem ListsFaults.hasFault_iff {entries : Dict Value} {errors : List String}
    (h : ListsFaults entries errors) : HasFault entries ↔ errors ≠ [] := by
  obtain ⟨htags, hjsx, htyped, hkeys⟩ := h
  simp only [HasFault, exists_or, ← htags.ne_nil_iff, ← hjsx.ne_nil_iff, ← htyped.ne_nil_iff,
    ← hkeys.ne_nil_iff, ne_eq, List.append_eq_nil_iff]
  tauto

/-! ## Options without a Fault -/

/-- Whether a truth value is what a field gives, and false if the field is not given. -/
structure IsSwitchOf (entries : Dict Value) (spellings : List String) (b : Bool) : Prop where
  given : ∀ key value, IsReadFrom entries spellings key value → value = .bool b
  /-- A switch is off until it is turned on. -/
  standard : (∀ key value, ¬ IsReadFrom entries spellings key value) → b = false

/-- Whether options are what a table gives: the items of a list or the names of a text, and what the
switches say; and the standard options where it gives nothing. -/
structure StandsFor (options : Options) (entries : Dict Value) : Prop where
  /-- A list is taken as it is, with blanks and repetitions. -/
  tags_of_list : ∀ key items, IsReadFrom entries definedTagsSpellings key (.list items) →
    items = options.definedTags.map .text
  /-- A text is split at its commas. -/
  tags_of_text : ∀ key s, IsReadFrom entries definedTagsSpellings key (.text s) →
    options.definedTags = Text.namesOf s
  tags_standard : (∀ key value, ¬ IsReadFrom entries definedTagsSpellings key value) →
    options.definedTags = []
  jsx : IsSwitchOf entries jsxTagsSpellings options.jsxTags
  typed : IsSwitchOf entries typedSpellings options.typed

/-- Options are rejected for all complaints at once, if there is one. -/
theorem ofEntries_eq_error_iff {entries : Dict Value} {rejection : Rejection} :
    ofEntries entries = .error rejection ↔
      complaints entries ≠ [] ∧ rejection = ⟨.options, complaints entries⟩ := by
  by_cases hnone : complaints entries = []
  · rw [ofEntries_eq_ok_iff.mpr ⟨hnone, rfl⟩]
    exact ⟨nofun, fun h => absurd hnone h.1⟩
  · rw [ofEntries_eq_error hnone, Except.error.injEq, eq_comm]
    exact ⟨fun h => ⟨hnone, h⟩, fun h => h.2⟩

theorem isSwitchOf_readSwitch {entries : Dict Value} {spellings : List String}
    (hnone : switchComplaints entries spellings = []) :
    IsSwitchOf entries spellings (readSwitch entries spellings) := by
  constructor
  · intro key value hread
    have hfound := findField_eq_some_iff.mpr hread
    cases value <;> simp [switchComplaints, readSwitch, hfound] at hnone ⊢
  · intro hread
    simp [readSwitch, findField_eq_none_iff.mpr hread]

/-- Options that are read stand for what was given. -/
theorem standsFor_of_ofEntries {entries : Dict Value} {options : Options}
    (h : ofEntries entries = .ok options) : options.StandsFor entries := by
  obtain ⟨hnone, rfl⟩ := ofEntries_eq_ok_iff.mp h
  obtain ⟨htags, hjsx, htyped, -⟩ := complaints_eq_nil_iff.mp hnone
  refine ⟨?_, ?_, ?_, isSwitchOf_readSwitch hjsx, isSwitchOf_readSwitch htyped⟩
  · intro key items hread
    have hfound := findField_eq_some_iff.mpr hread
    simp only [definedTagsComplaints, readDefinedTags, hfound, asList] at htags ⊢
    rw [List.map_filterMap]
    -- No item is dropped, since each is a text.
    have hitems : items.filterMap (fun item => item.text?.map .text) = items.filterMap some := by
      refine List.filterMap_congr ?_
      intro item hmem
      have htext := itemComplaints_eq_nil_iff.mp htags item hmem
      cases item <;> simp [Value.text?] at htext ⊢
    rw [hitems, List.filterMap_some]
  · intro key s hread
    have hfound := findField_eq_some_iff.mpr hread
    simp only [readDefinedTags, hfound, asList, List.filterMap_map]
    exact List.filterMap_some
  · intro hread
    simp [readDefinedTags, findField_eq_none_iff.mpr hread]

end Options

/-- **A rejection of options lists every fault and nothing else.** Options are rejected exactly if
there is a fault; the errors of the rejection are then the one list of all faults, those of the
defined names first and those of unread keys last. Options that are not rejected hold what was
given, or the standard. -/
theorem rejection_lists_every_fault (entries : Dict Value) :
    ((∃ rejection, Options.ofEntries entries = .error rejection) ↔ Options.HasFault entries) ∧
      (∀ rejection, Options.ofEntries entries = .error rejection → rejection.part = .options ∧
        ∀ errors, Options.ListsFaults entries errors ↔ errors = rejection.errors) ∧
      ∀ options, Options.ofEntries entries = .ok options → options.StandsFor entries := by
  have hlists := Options.listsFaults_complaints entries
  have hfault : Options.HasFault entries ↔ Options.complaints entries ≠ [] := by
    rw [hlists.hasFault_iff, ne_eq, List.map_eq_nil_iff]
  refine ⟨?_, ?_, fun options => Options.standsFor_of_ofEntries⟩
  · simp only [Options.ofEntries_eq_error_iff, exists_and_left, exists_eq, and_true, hfault]
  · intro rejection hrejection
    obtain ⟨-, rfl⟩ := Options.ofEntries_eq_error_iff.mp hrejection
    refine ⟨rfl, fun errors => ⟨fun herrors => herrors.eq hlists, ?_⟩⟩
    rintro rfl
    exact hlists

/-- A key that another spelling goes before is reported among the unknown ones, where it stands. -/
theorem rejection_lists_every_fault_of_five_keys :
    let entries : Dict Value :=
      [("note", .null), ("defined_tags", .list []), ("typed", .int 1), ("jsx_tags", .bool true),
        ("definedTags", .list [.text "a", .int 1])]
    Options.HasFault entries ∧ Options.ListsFaults entries
      ["definedTags.1: Input should be a valid string", "typed: Input should be a valid boolean",
        "note: Extra inputs are not permitted", "defined_tags: Extra inputs are not permitted"] := by
  intro entries
  have hrejected : Options.ofEntries entries = .error ⟨.options, Options.complaints entries⟩ := rfl
  obtain ⟨hfault, hlisted, -⟩ := rejection_lists_every_fault entries
  refine ⟨hfault.mp ⟨_, hrejected⟩, ((hlisted _ hrejected).2 _).mpr ?_⟩
  decide

end DocLint
