import DocLint.Preference

/-!
# Bare Preferences and Objects

A preference may be written as a bare value or as an object with that value for its replacement. What is void is
told in two ways: a bare value is compared with certain values, a replacement is asked whether it stands for
nothing. Main statements: `ofEntries?_eq_withMessage_iff`, by which the two ways agree on every value but the
empty list, and `object_means_as_bare`.
-/

namespace DocLint

namespace Preference

/-- The same preference with another message, or none. What it asks for, and the name to use if
there is one, stay. -/
def withMessage (message : Option String) : Preference → Preference
  | .block _ => .block message
  | .rename target _ => .rename target message

/-! ## Bare Values -/

section

variable {value : Value}

/-- A bare value that is void blocks the tag, unless it is the empty list. Each kind of value is
compared with its own void one; that of lists is left out. -/
theorem ofValue?_of_isVoid (hbare : ∀ inner, value ≠ .table inner) (hlist : value ≠ .list [])
    (hvoid : value.isVoid = true) : ofValue? value = some (.block none) := by
  cases value with
  | null => rfl
  | bool b => simpa [ofValue?, Value.isVoid] using hvoid
  | int i => simpa [ofValue?, Value.isVoid] using hvoid
  | float x => simpa [ofValue?, Value.isVoid] using hvoid
  | text s => simpa [ofValue?, Value.isVoid] using hvoid
  | moment m => cases hvoid
  | list items =>
    -- Only an empty list is void.
    obtain rfl : items = [] := List.isEmpty_iff.mp hvoid
    exact absurd rfl hlist
  | table inner => exact absurd rfl (hbare inner)

/-- A bare value that is not void is the name to use if it is a text, and malformed if not. -/
theorem ofValue?_of_not_isVoid (hbare : ∀ inner, value ≠ .table inner) (hvoid : value.isVoid = false) :
    ofValue? value = value.text?.map fun target => .rename target none := by
  cases value with
  | null => cases hvoid
  | bool b => simpa [ofValue?, Value.isVoid, Value.text?] using hvoid
  | int i => simpa [ofValue?, Value.isVoid, Value.text?] using hvoid
  | float x => simpa [ofValue?, Value.isVoid, Value.text?] using hvoid
  | text s => simpa [ofValue?, Value.isVoid, Value.text?] using hvoid
  | moment m => rfl
  | list items => rfl
  | table inner => exact absurd rfl (hbare inner)

/-- A bare value brings no message. -/
theorem map_withMessage_none (hbare : ∀ inner, value ≠ .table inner) :
    (ofValue? value).map (withMessage none) = ofValue? value := by
  by_cases hlist : value = .list []
  · rw [hlist]
    rfl
  · cases hvoid : value.isVoid with
    | true =>
      rw [ofValue?_of_isVoid hbare hlist hvoid]
      rfl
    | false =>
      rw [ofValue?_of_not_isVoid hbare hvoid, Option.map_map]
      rfl

end

/-! ## Objects -/

section

variable {entries : Dict Value} {value : Value}

theorem messageOf_eq_none (h : ∀ text, Dict.get? entries "message" = some (.text text) → text = "") :
    messageOf entries = none := by
  unfold messageOf
  split
  next text heq => rw [if_pos (h text heq)]
  next => rfl

theorem messageOf_eq_some {message : String} (h : Dict.get? entries "message" = some (.text message))
    (hne : message ≠ "") : messageOf entries = some message := by
  simp [messageOf, h, hne]

/-- An object with a replacement blocks the tag if that is void; else the replacement is the name to
use if it is a text, and malformed if not. -/
theorem ofEntries?_of_replacement (h : Dict.get? entries "replacement" = some value) :
    ofEntries? entries =
      if value.isVoid then some (.block (messageOf entries))
      else value.text?.map fun target => .rename target (messageOf entries) := by
  simp only [ofEntries?, h]
  cases value <;> rfl

/-- An object means what its replacement means by itself, with the message of the object, exactly if
the replacement is not the empty list. -/
theorem ofEntries?_eq_withMessage_iff (hbare : ∀ inner, value ≠ .table inner)
    (h : Dict.get? entries "replacement" = some value) :
    ofEntries? entries = (ofValue? value).map (withMessage (messageOf entries)) ↔ value ≠ .list [] := by
  rw [ofEntries?_of_replacement h]
  -- The two readings of a void value are the same but for the one that was left out.
  constructor
  · rintro heq rfl
    cases heq
  · intro hlist
    cases hvoid : value.isVoid with
    | true =>
      rw [ofValue?_of_isVoid hbare hlist hvoid]
      rfl
    | false =>
      rw [ofValue?_of_not_isVoid hbare hvoid, Option.map_map]
      rfl

end

end Preference

/-- **A preference means the same bare and as an object, but for the empty list.** Without a message
the object is read as the bare value; with one it is read alike and carries the message: what is
malformed stays malformed, what blocks the tag still does, and a name to use is kept. The empty list
is malformed by itself, and blocks the tag as the replacement of an object. -/
theorem object_means_as_bare {value : Value} {entries : Dict Value}
    (hbare : ∀ inner, value ≠ .table inner)
    (hreplacement : Dict.get? entries "replacement" = some value) :
    let bare := Preference.ofValue? value
    let object := Preference.ofValue? (.table entries)
    ((∀ text, Dict.get? entries "message" = some (.text text) → text = "") →
        (object = bare ↔ value ≠ .list [])) ∧
      (∀ message, Dict.get? entries "message" = some (.text message) → message ≠ "" →
        (object = bare.map (Preference.withMessage (some message)) ↔ value ≠ .list [])) ∧
      (value = .list [] → bare = none ∧ object = some (.block (Preference.messageOf entries))) := by
  intro bare object
  have hforms := Preference.ofEntries?_eq_withMessage_iff hbare hreplacement
  refine ⟨?_, ?_, ?_⟩
  · intro hnone
    rwa [Preference.messageOf_eq_none hnone, Preference.map_withMessage_none hbare] at hforms
  · intro message hmessage hne
    rwa [Preference.messageOf_eq_some hmessage hne] at hforms
  · rintro rfl
    exact ⟨rfl, Preference.ofEntries?_of_replacement hreplacement⟩

/-- A zero with a minus sign blocks the tag by itself, and with a message as the replacement of an
object. -/
theorem object_means_as_bare_negative_zero :
    let value : Value := .float (.zero true)
    let entries : Dict Value := [("note", .int 1), ("replacement", value), ("message", .text "Gone")]
    (∀ inner, value ≠ .table inner) ∧ Dict.get? entries "replacement" = some value ∧
      Preference.ofValue? value = some (.block none) ∧
      Preference.ofValue? (.table entries) = some (.block (some "Gone")) := by
  intro value entries
  have hbare : ∀ inner, value ≠ .table inner := nofun
  have hreplacement : Dict.get? entries "replacement" = some value := rfl
  have hcarries := (object_means_as_bare hbare hreplacement).2.1 "Gone" rfl (by decide)
  exact ⟨hbare, hreplacement, rfl, hcarries.mpr nofun⟩

/-- An empty list means one thing by itself and another as the replacement of an object. -/
theorem empty_list_has_two_meanings :
    ¬ ∀ (value : Value) (entries : Dict Value), (∀ inner, value ≠ .table inner) →
      Dict.get? entries "replacement" = some value → Dict.get? entries "message" = none →
      Preference.ofValue? (.table entries) = Preference.ofValue? value := by
  intro h
  have hsame := h (.list []) [("replacement", .list [])] nofun rfl rfl
  cases hsame

end DocLint
