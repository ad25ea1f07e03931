import DocLint.Proofs.Lookup
import DocLint.Vocabulary

/-!
# Synonyms

In every mode a synonym leads to a known name that is no synonym itself. So following the synonyms of a
mode ends after one step.
-/

namespace DocLint.Mode

/-- The synonyms of a mode are listed in its table beside the tags that they lead to. -/
theorem mem_synonyms_iff {mode : Mode} {synonym canonical : String} :
    (synonym, canonical) ∈ mode.synonyms ↔
      ∃ synonyms, (canonical, synonyms) ∈ mode.tags ∧ synonym ∈ synonyms := by
  unfold synonyms
  rw [List.mem_flatMap]
  constructor
  · rintro ⟨⟨name, others⟩, htag, hmem⟩
    obtain ⟨other, hother, heq⟩ := List.mem_map.mp hmem
    cases heq
    exact ⟨others, htag, hother⟩
  · rintro ⟨others, htag, hmem⟩
    exact ⟨(canonical, others), htag, List.mem_map.mpr ⟨synonym, hmem, rfl⟩⟩

/-- A name is known in a mode if it is in the table of the mode, be it as a tag or as a synonym. -/
theorem mem_names_iff {mode : Mode} {name : String} :
    name ∈ mode.names ↔ ∃ tag synonyms, (tag, synonyms) ∈ mode.tags ∧ (name = tag ∨ name ∈ synonyms) := by
  unfold names
  rw [List.mem_eraseDups, List.mem_flatMap]
  constructor
  · rintro ⟨⟨tag, synonyms⟩, htag, hmem⟩
    exact ⟨tag, synonyms, htag, List.mem_cons.mp hmem⟩
  · rintro ⟨tag, synonyms, htag, hmem⟩
    exact ⟨(tag, synonyms), htag, List.mem_cons.mpr hmem⟩

/-- No name that a synonym leads to is empty or a synonym itself. -/
theorem canonical_of_mem_synonyms {mode : Mode} :
    ∀ entry ∈ mode.synonyms, entry.2 ≠ "" ∧ Dict.get? mode.synonyms entry.2 = none := by
  -- The tables are closed, and there is one for each mode.
  cases mode <;> decide +kernel

section

variable {mode : Mode} {synonym canonical : String}

theorem canonical_mem_names (h : Dict.get? mode.synonyms synonym = some canonical) :
    canonical ∈ mode.names := by
  obtain ⟨synonyms, htag, -⟩ := mem_synonyms_iff.mp (Dict.mem_of_get? h)
  exact mem_names_iff.mpr ⟨canonical, synonyms, htag, Or.inl rfl⟩

theorem synonym_mem_names (h : Dict.get? mode.synonyms synonym = some canonical) :
    synonym ∈ mode.names := by
  obtain ⟨synonyms, htag, hmem⟩ := mem_synonyms_iff.mp (Dict.mem_of_get? h)
  exact mem_names_iff.mpr ⟨canonical, synonyms, htag, Or.inr hmem⟩

theorem canonical_ne_empty (h : Dict.get? mode.synonyms synonym = some canonical) :
    canonical ≠ "" :=
  (canonical_of_mem_synonyms _ (Dict.mem_of_get? h)).1

theorem canonical_not_synonym (h : Dict.get? mode.synonyms synonym = some canonical) :
    Dict.get? mode.synonyms canonical = none :=
  (canonical_of_mem_synonyms _ (Dict.mem_of_get? h)).2

theorem canonical_ne_synonym (h : Dict.get? mode.synonyms synonym = some canonical) :
    canonical ≠ synonym := by
  rintro rfl
  rw [canonical_not_synonym h] at h
  cases h

end

end DocLint.Mode
