import DocLint.Proofs.PreferenceMerge
import DocLint.Rule

/-!
# Notices of Malformed Preferences

Raw preferences are taken in one after the other, and whether one of them was malformed is kept along, also if
another one replaces it. Main statements: `ofValue?_eq_none_iff`, which says what a malformed value is,
`hasMalformed_iff`, by which none is lost on the way, and `malformed_preferences_announced_once`, by which
a sink takes one message in if any value is malformed, and changes nothing about the policy.
-/

namespace DocLint

/-! ## Malformed Values -/

namespace Preference

/-- Whether a value stands for no preference: it is neither void nor a text nor an object, or it is
an object with such a replacement. -/
inductive IsMalformed : Value → Prop where
  /-- Of the truth values only this one, as the other stands for a block. -/
  | yes : IsMalformed (.bool true)
  /-- Zero stands for a block too. -/
  | int {i : Int} : i ≠ 0 → IsMalformed (.int i)
  /-- As does zero of either sign. -/
  | float {x : Binary64} : x.isZero = false → IsMalformed (.float x)
  | moment (m : Moment) : IsMalformed (.moment m)
  /-- Even an empty list: it is void only as a replacement. -/
  | list (items : List Value) : IsMalformed (.list items)
  /-- A replacement that is neither void nor a text names nothing. -/
  | replacement {entries : Dict Value} {value : Value} :
      Dict.get? entries "replacement" = some value → value.isVoid = false → (∀ s, value ≠ .text s) →
      IsMalformed (.table entries)

/-- An object stands for no preference exactly if its replacement is neither void nor a text. -/
theorem ofEntries?_eq_none_iff {entries : Dict Value} :
    ofEntries? entries = none ↔ IsMalformed (.table entries) := by
  unfold ofEntries?
  cases hreplacement : Dict.get? entries "replacement" with
  | none =>
    refine ⟨nofun, ?_⟩
    rintro (_ | _ | _ | _ | _ | ⟨hheld, -, -⟩)
    rw [hreplacement] at hheld
    cases hheld
  | some value =>
    -- Voidness is asked for first, and a text that is not void is a name.
    constructor
    · intro h
      by_cases hvoid : value.isVoid = true
      · simp [hvoid] at h
      · refine .replacement hreplacement (by simpa using hvoid) ?_
        rintro s rfl
        simp [hvoid] at h
    · rintro (_ | _ | _ | _ | _ | ⟨hheld, hvoid, htext⟩)
      cases hreplacement.symm.trans hheld
      cases value with
      | text s => exact absurd rfl (htext s)
      | _ => simp [hvoid]

/-- A value stands for no preference exactly if it is malformed. -/
theorem ofValue?_eq_none_iff {value : Value} : ofValue? value = none ↔ IsMalformed value := by
  -- One case for each shape of a value; only an object has to be looked into.
  cases value with
  | null => exact ⟨by simp [ofValue?], fun h => by cases h⟩
  | bool b =>
    cases b with
    | false => exact ⟨by simp [ofValue?], fun h => by cases h⟩
    | true => exact ⟨fun _ => .yes, fun _ => rfl⟩
  | int i =>
    by_cases hzero : i = 0
    · exact ⟨by simp [ofValue?, hzero], fun h => by cases h; contradiction⟩
    · exact ⟨fun _ => .int hzero, fun _ => by simp [ofValue?, hzero]⟩
  | float x =>
    cases hzero : x.isZero with
    | true => exact ⟨by simp [ofValue?, hzero], fun h => by cases h; simp_all⟩
    | false => exact ⟨fun _ => .float hzero, fun _ => by simp [ofValue?, hzero]⟩
  | text s => exact ⟨by simp [ofValue?], fun h => by cases h⟩
  | moment m => exact ⟨fun _ => .moment m, fun _ => rfl⟩
  | list items => exact ⟨fun _ => .list items, fun _ => rfl⟩
  | table entries => exact ofEntries?_eq_none_iff

end Preference

/-! ## Taking Preferences In -/

namespace Policy

/-- No malformed value is lost on the way, whatever key it stands under. -/
theorem hasMalformed_iff (raw : Dict Value) :
    hasMalformed raw = true ↔ ∃ entry ∈ raw, Preference.IsMalformed entry.2 := by
  simp [hasMalformed, Preference.ofValue?_eq_none_iff]

end Policy

/-- **Malformed preferences are announced once.** A sink takes the message in once if some value
among the raw preferences is malformed, whatever else is among them, and is left alone otherwise.
The policy is the same without a sink, so every name is resolved alike; it is the policy that a
check goes by, and a check announces as the sink is told. -/
theorem malformed_preferences_announced_once {σ : Type} (sink : String → σ → σ) (options : Options)
    (settings : Settings) (state : σ) :
    let malformed := ∃ entry ∈ settings.tagNamePreference, Preference.IsMalformed entry.2
    let announced := Policy.build (some sink) options settings state
    let silent := Policy.build none options settings state
    (malformed → announced.2 = sink Policy.malformedPreferenceMessage state) ∧
      (¬ malformed → announced.2 = state) ∧ silent.2 = state ∧ announced.1 = silent.1 ∧
      (∀ name, announced.1.resolve name = silent.1.resolve name) ∧
      announced.1 = Policy.ofConfig options settings ∧
      ∀ collector : Collector, (Rule.setUp options settings collector).2 =
        (Policy.build (some fun message told => told.addSettings [message]) options settings collector).2 := by
  intro malformed announced silent
  -- All that a build tells its sink is in the two lemmas about it.
  have hmalformed := Policy.hasMalformed_iff settings.tagNamePreference
  have hannounced : announced.2 = _ := Policy.build_snd options settings sink state
  have hsame : announced.1 = silent.1 := by
    rw [Policy.build_fst, Policy.build_fst]
  refine ⟨?_, ?_, rfl, hsame, fun name => by rw [hsame], Policy.build_fst .., ?_⟩
  · intro h
    rw [hannounced, if_pos (hmalformed.mpr h)]
  · intro h
    rw [hannounced, if_neg (mt hmalformed.mp h)]
  · intro collector
    rfl

/-- Two malformed values, one of them under a bare name whose other key overrides it, are announced
once. -/
theorem malformed_preferences_announced_once_overridden :
    let settings : Settings :=
      { tagNamePreference := [("tag note", .text "remark"), ("note", .int 5), ("todo", .bool true)] }
    (∃ entry ∈ settings.tagNamePreference, Preference.IsMalformed entry.2) ∧
      (Policy.build (some List.cons) {} settings []).2 = [Policy.malformedPreferenceMessage] ∧
      (Policy.build none {} settings ([] : List String)).1.resolve "note" = .preferred "remark" none := by
  intro settings
  have hmalformed : ∃ entry ∈ settings.tagNamePreference, Preference.IsMalformed entry.2 :=
    ⟨("note", .int 5), List.mem_cons_of_mem _ (List.mem_cons_self ..), .int (by decide)⟩
  have hbuilt := malformed_preferences_announced_once List.cons {} settings []
  refine ⟨hmalformed, hbuilt.1 hmalformed, ?_⟩
  rw [← hbuilt.2.2.2.2.1 "note", hbuilt.2.2.2.2.2.1]
  decide +kernel

end DocLint
