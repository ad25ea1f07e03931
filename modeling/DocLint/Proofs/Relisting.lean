import DocLint.Proofs.Fields

/-!
# Options with Their Names Listed Otherwise

The defined names may be listed in any order and repeatedly, as a list or as one text. Main statement:
`ofEntries_relisted`, by which options are then accepted as before and read as the same names.
-/

namespace DocLint

namespace Options

/-- Whether options are the same up to the order and repetition of the defined names. -/
structure Alike (first second : Options) : Prop where
  mem_definedTags_iff : ∀ name, name ∈ first.definedTags ↔ name ∈ second.definedTags
  jsxTags_eq : first.jsxTags = second.jsxTags
  typed_eq : first.typed = second.typed

/-- Whether two tables of options differ at most in what they list as defined names, and there at
most in order and repetition. -/
inductive Relisted : Dict Value → Dict Value → Prop where
  | refl (entries : Dict Value) : Relisted entries entries
  /-- They are listed anew, as a list or as a text, under the key that they stood under. -/
  | list {before after : Dict Value} {key : String} {value other : Value} {items others : List Value} :
      key ∈ definedTagsSpellings → asList value = .list items → asList other = .list others →
      (∀ item, item ∈ items ↔ item ∈ others) →
      Relisted (before ++ (key, value) :: after) (before ++ (key, other) :: after)

/-- No item is complained about exactly if all are texts. -/
theorem itemComplaints_eq_nil_iff {key : String} {items : List Value} :
    itemComplaints key items = [] ↔ ∀ item ∈ items, item.text?.isSome := by
  unfold itemComplaints
  rw [List.filterMap_eq_nil_iff]
  constructor
  · intro h item hmem
    obtain ⟨index, hindex⟩ := List.getElem?_of_mem hmem
    have hnone := h (item, index) (List.mem_zipIdx_iff_getElem?.mpr hindex)
    cases item <;> simp [Value.text?] at hnone ⊢
  · rintro h ⟨item, index⟩ hmem
    have hsome := h item (List.mem_of_getElem? (List.mem_zipIdx_iff_getElem?.mp hmem))
    cases item <;> simp [Value.text?] at hsome ⊢

section

variable {before after : Dict Value} {key : String} {value other : Value}

/-- Other options are found as before: the entry that is changed is under no spelling of theirs. -/
theorem findField_relisted (hkey : key ∈ definedTagsSpellings) {spellings : List String}
    (hfield : spellings ∈ fields) (hne : spellings ≠ definedTagsSpellings) :
    findField (before ++ (key, value) :: after) spellings =
      findField (before ++ (key, other) :: after) spellings := by
  rcases findField_replace_cases before after key value other spellings with hsame | ⟨hmem, -⟩
  · exact hsame
  · exact absurd (fields_apart spellings hfield definedTagsSpellings (by simp [fields]) key hmem hkey) hne

/-- The same keys are left over, since the spelling of a field does not depend on its value. -/
theorem keyComplaints_relisted :
    keyComplaints (before ++ (key, value) :: after) = keyComplaints (before ++ (key, other) :: after) := by
  have hspelling : ∀ spellings, fieldSpelling? (before ++ (key, value) :: after) spellings =
      fieldSpelling? (before ++ (key, other) :: after) spellings := by
    intro spellings
    unfold fieldSpelling?
    -- The field is read elsewhere, or from the key whose value is another now.
    rcases findField_replace_cases before after key value other spellings with hsame | ⟨-, hfirst, hsecond⟩
    · rw [hsame]
    · rw [hfirst, hsecond]
      rfl
  have hused : usedKeys (before ++ (key, value) :: after) = usedKeys (before ++ (key, other) :: after) :=
    congrArg (List.filterMap · fields) (funext hspelling)
  have hkeys : Dict.keys (before ++ (key, value) :: after) = Dict.keys (before ++ (key, other) :: after) := by
    simp [Dict.keys]
  unfold keyComplaints
  rw [hused, hkeys]

/-- The defined names stay, up to order and repetition. -/
theorem definedTags_relisted {items others : List Value} (hvalue : asList value = .list items)
    (hother : asList other = .list others) (hitems : ∀ item, item ∈ items ↔ item ∈ others)
    (hnone : definedTagsComplaints (before ++ (key, value) :: after) = []) :
    definedTagsComplaints (before ++ (key, other) :: after) = [] ∧
      ∀ name, name ∈ readDefinedTags (before ++ (key, value) :: after) ↔
        name ∈ readDefinedTags (before ++ (key, other) :: after) := by
  rcases findField_replace_cases before after key value other definedTagsSpellings with
    hsame | ⟨-, hfirst, hsecond⟩
  · obtain ⟨hcomplaints, hread⟩ := definedTags_dependOnField hsame
    exact ⟨hcomplaints.symm.trans hnone, fun name => by rw [hread]⟩
  · simp only [definedTagsComplaints, hfirst, hsecond, hvalue, hother, itemComplaints_eq_nil_iff] at hnone ⊢
    refine ⟨fun item hmem => hnone item ((hitems item).mpr hmem), fun name => ?_⟩
    simp only [readDefinedTags, hfirst, hsecond, hvalue, hother, List.mem_filterMap, hitems]

end

/-- Relisted options are read as the same options, up to the order and repetition of the defined
names. -/
theorem ofEntries_relisted {first second : Dict Value} (h : Relisted first second) {options : Options}
    (hread : ofEntries first = .ok options) :
    ∃ others, ofEntries second = .ok others ∧ options.Alike others := by
  cases h with
  | refl entries => exact ⟨options, hread, fun _ => Iff.rfl, rfl, rfl⟩
  | list hkey hvalue hother hitems =>
    obtain ⟨hnone, rfl⟩ := ofEntries_eq_ok_iff.mp hread
    obtain ⟨hdefined, hjsx, htyped, hkeys⟩ := complaints_eq_nil_iff.mp hnone
    obtain ⟨hdefinedNone, hdefinedRead⟩ := definedTags_relisted hvalue hother hitems hdefined
    -- The switches are fields of their own, read from other keys.
    obtain ⟨hjsxSame, hjsxRead⟩ := switch_dependsOnField jsxTagsSpellings
      (findField_relisted hkey (by simp [fields]) (by decide))
    obtain ⟨htypedSame, htypedRead⟩ := switch_dependsOnField typedSpellings
      (findField_relisted hkey (by simp [fields]) (by decide))
    refine ⟨_, ofEntries_eq_ok_iff.mpr ⟨complaints_eq_nil_iff.mpr ⟨hdefinedNone, ?_, ?_, ?_⟩, rfl⟩,
      hdefinedRead, hjsxRead, htypedRead⟩
    · exact hjsxSame.symm.trans hjsx
    · exact htypedSame.symm.trans htyped
    · exact keyComplaints_relisted.symm.trans hkeys

end Options

end DocLint
