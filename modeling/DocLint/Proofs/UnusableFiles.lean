import DocLint.Proofs.LayeredConfig
import DocLint.Proofs.TomlStops

/-!
# Unusable Configuration Files

What becomes of a configuration file that is of no use: one that is missing, is a folder, or holds a text that
is no document counts as empty. Two kinds of file stop the host: one whose bytes are no text, and one whose text
passes the limits of the host. Main statements: `load_eq_notUtf8_iff` and `load_eq_stopped_iff`, which say when
nothing is loaded, and `only_unreadable_files_stop_loading`.
-/

namespace DocLint

/-! ## Contents of a File -/

namespace FileContent

/-- Whether there is a file whose bytes are those of no text. -/
inductive IsUndecodable : FileContent → Prop where
  /-- What is no file has no bytes to decode. -/
  | bytes {data : ByteArray} : (∀ text : String, text.toUTF8 ≠ data) → IsUndecodable (.bytes data)

/-- Whether there is a file that holds the text of a document, and the table that the document
stands for. -/
inductive IsDocument (limits : Limits) : FileContent → Dict Value → Prop where
  /-- Line ends of all kinds are made line feeds before the text is read. -/
  | text {text : String} {table : Dict Value} :
      Toml.IsDocument limits (Config.normalizeLineEnds text.toList) table →
      IsDocument limits (.bytes text.toUTF8) table

/-- Whether there is a file that holds a text in which the host stops. -/
inductive StopsReading (limits : Limits) : FileContent → Stop → Prop where
  /-- The text that is read is the one with its line ends made alike. -/
  | text {text : String} {stop : Stop} :
      Toml.StopsReading limits (Config.normalizeLineEnds text.toList) stop →
      StopsReading limits (.bytes text.toUTF8) stop

/-- Whether no document can be read, for want of a file or because of what it holds. -/
def IsUnusable (limits : Limits) (content : FileContent) : Prop :=
  ∀ table, ¬ content.IsDocument limits table

/-- Whether a content is read to its end, be it a document or not: its bytes are a text, and the
host does not stop in that text. What is no file has nothing to read and no end to miss. -/
structure IsReadable (limits : Limits) (content : FileContent) : Prop where
  decodable : ¬ content.IsUndecodable
  not_stopsReading : ∀ stop, ¬ content.StopsReading limits stop

section

variable {limits : Limits} {text : String} {data : ByteArray} {table : Dict Value} {stop : Stop}

theorem IsUndecodable.isUnusable {content : FileContent} (h : content.IsUndecodable) :
    content.IsUnusable limits := by
  intro table hdocument
  cases hdocument with
  | text => cases h with | bytes hnone => exact hnone _ rfl

/-- Bytes are read as a text exactly if they are the bytes of that text. -/
theorem fromUTF8?_eq_some_iff : String.fromUTF8? data = some text ↔ text.toUTF8 = data := by
  constructor
  · intro h
    unfold String.fromUTF8? at h
    split at h
    · rw [← Option.some.inj h]
      rfl
    · cases h
  · rintro rfl
    rw [String.toUTF8, String.fromUTF8?, dif_pos text.isValidUTF8]
    rfl

theorem isUndecodable_bytes_iff : (bytes data).IsUndecodable ↔ String.fromUTF8? data = none := by
  simp only [Option.eq_none_iff_forall_ne_some, ne_eq, fromUTF8?_eq_some_iff]
  exact ⟨fun h => by cases h; assumption, .bytes⟩

theorem not_isUndecodable_toUTF8 : ¬ (bytes text.toUTF8).IsUndecodable := by
  intro h
  cases h with | bytes hnone => exact hnone text rfl

/-- A text is a document as it is, whatever file holds it. -/
theorem isDocument_toUTF8_iff :
    (bytes text.toUTF8).IsDocument limits table ↔
      Toml.read limits (Config.normalizeLineEnds text.toList) = .ok table := by
  rw [Toml.read_eq_ok_iff]
  refine ⟨fun h => ?_, .text⟩
  -- Texts with the same bytes are the same.
  generalize hdata : text.toUTF8 = data at h
  cases h with
  | text hread => rwa [String.toByteArray_inj.mp hdata]

/-- Likewise the host stops in a text as it is, whatever file holds it. -/
theorem stopsReading_toUTF8_iff :
    (bytes text.toUTF8).StopsReading limits stop ↔
      Toml.read limits (Config.normalizeLineEnds text.toList) = .error (.stopped stop) := by
  rw [Toml.read_eq_stopped_iff]
  refine ⟨fun h => ?_, .text⟩
  generalize hdata : text.toUTF8 = data at h
  cases h with
  | text hread => rwa [String.toByteArray_inj.mp hdata]

/-- A text that is found malformed has been read so far, and is no document. -/
theorem isReadable_and_isUnusable_of_read
    (h : Toml.read limits (Config.normalizeLineEnds text.toList) = .error .malformed) :
    (bytes text.toUTF8).IsReadable limits ∧ (bytes text.toUTF8).IsUnusable limits := by
  refine ⟨⟨not_isUndecodable_toUTF8, fun stop hstop => ?_⟩, fun table hdocument => ?_⟩
  · cases h.symm.trans (stopsReading_toUTF8_iff.mp hstop)
  · cases h.symm.trans (isDocument_toUTF8_iff.mp hdocument)

end

end FileContent

/-! ## Loading -/

namespace Config

open FileContent

variable {limits other : Limits} {content : FileContent} {stop : Stop}

/-- Loading fails for undecodable bytes, and for this reason for nothing else. -/
theorem load_eq_notUtf8_iff : load limits content = .error .notUtf8 ↔ content.IsUndecodable := by
  constructor
  · intro h
    cases content with
    | missing => cases h
    | folder => cases h
    | bytes data =>
      cases hread : String.fromUTF8? data with
      | none => exact isUndecodable_bytes_iff.mpr hread
      | some text =>
        -- What stops the host later on is no matter of the bytes.
        obtain rfl := fromUTF8?_eq_some_iff.mp hread
        rw [load_toUTF8] at h
        cases htable : tableOfText limits text <;> rw [htable] at h <;> cases h
  · rintro ⟨hnone⟩
    have hread := isUndecodable_bytes_iff.mp (.bytes hnone)
    simp only [load, hread]

/-- Loading is stopped exactly by a text in which the host stops. -/
theorem load_eq_stopped_iff : load limits content = .error (.stopped stop) ↔ content.StopsReading limits stop := by
  constructor
  · intro h
    cases content with
    | missing => cases h
    | folder => cases h
    | bytes data =>
      cases hdecode : String.fromUTF8? data with
      | none =>
        simp only [load, hdecode] at h
        cases h
      | some text =>
        obtain rfl := fromUTF8?_eq_some_iff.mp hdecode
        rw [load_toUTF8, tableOfText] at h
        cases hread : Toml.read limits (normalizeLineEnds text.toList) with
        | ok table =>
          rw [hread] at h
          cases h
        | error failure =>
          rw [hread] at h
          cases failure with
          -- Malformed text is loaded as an empty table.
          | malformed => cases h
          | stopped found =>
            cases h
            exact stopsReading_toUTF8_iff.mpr hread
  · rintro ⟨hstop⟩
    rw [load_toUTF8, tableOfText, Toml.read_eq_stopped_iff.mpr hstop]
    rfl

/-- Nothing but a content that cannot be read stops the host. -/
theorem exists_load_of_isReadable (h : content.IsReadable limits) :
    ∃ table, load limits content = .ok table := by
  cases hload : load limits content with
  | ok table => exact ⟨table, rfl⟩
  | error error =>
    cases error with
    | notUtf8 => exact absurd (load_eq_notUtf8_iff.mp hload) h.decodable
    | stopped stop => exact absurd (load_eq_stopped_iff.mp hload) (h.not_stopsReading stop)
    | rejected rejection =>
      -- A rejection is of options or settings, and none have been looked at yet.
      cases content with
      | missing => cases hload
      | folder => cases hload
      | bytes data =>
        rw [load] at hload
        split at hload
        next text _ =>
          cases htable : tableOfText limits text <;> rw [htable] at hload <;> cases hload
        next => cases hload

theorem load_of_isDocument {table : Dict Value} (h : content.IsDocument limits table) :
    load limits content = .ok table := by
  obtain ⟨hdocument⟩ := h
  rw [load_toUTF8, tableOfText, Toml.read_eq_ok_iff.mpr hdocument]
  rfl

/-- From a content of no use an empty table is loaded, if it can be read to its end: a file that is
missing, a folder, and malformed text. -/
theorem load_of_isUnusable (h : content.IsUnusable limits) (hreadable : content.IsReadable limits) :
    load limits content = .ok [] := by
  cases content with
  | missing => rfl
  | folder => rfl
  | bytes data =>
    cases hdecode : String.fromUTF8? data with
    | none => exact absurd (isUndecodable_bytes_iff.mpr hdecode) hreadable.decodable
    | some text =>
      obtain rfl := fromUTF8?_eq_some_iff.mp hdecode
      rw [load_toUTF8, tableOfText]
      cases hread : Toml.read limits (normalizeLineEnds text.toList) with
      | ok table => exact absurd (isDocument_toUTF8_iff.mpr hread) (h table)
      | error failure =>
        cases failure with
        | malformed => rfl
        | stopped stop =>
          exact absurd (stopsReading_toUTF8_iff.mpr hread) (hreadable.not_stopsReading stop)

/-- Two hosts that both read a content to its end load the same table from it. -/
theorem load_eq_of_isReadable (h : content.IsReadable limits) (hother : content.IsReadable other) :
    load other content = load limits content := by
  cases content with
  | missing => rfl
  | folder => rfl
  | bytes data =>
    cases hdecode : String.fromUTF8? data with
    | none => exact absurd (isUndecodable_bytes_iff.mpr hdecode) h.decodable
    | some text =>
      obtain rfl := fromUTF8?_eq_some_iff.mp hdecode
      -- Neither host stops in the text, and limits decide nothing else.
      have hsame : Toml.read limits (normalizeLineEnds text.toList) =
          Toml.read other (normalizeLineEnds text.toList) :=
        Toml.read_eq_of_not_stopsReading (fun stop hstop => h.not_stopsReading stop (.text hstop))
          fun stop hstop => hother.not_stopsReading stop (.text hstop)
      rw [load_toUTF8, load_toUTF8, tableOfText, tableOfText, hsame]

/-- What stops the loading of a file stops it under all overrides. -/
theorem loadResolved_of_load_eq_error {error : LoadError} (h : load limits content = .error error)
    (optionsOverrides settingsOverrides : Dict Value) :
    loadResolved limits content optionsOverrides settingsOverrides = .error error := by
  rw [loadResolved, h]
  rfl

/-- Where a host stops in a file, the text of the file holds the cause. -/
theorem exists_hasCause_of_stopsReading (h : content.StopsReading limits stop) :
    ∃ text : String, content = .bytes text.toUTF8 ∧
      Toml.HasCause limits limits.readingCalls (normalizeLineEnds text.toList) stop := by
  obtain ⟨hstop⟩ := h
  exact ⟨_, rfl, hstop.hasCause⟩

/-- A text without carriage returns has its lines ended as they should be. -/
theorem normalizeLineEnds_of_not_mem {cs : List Char} (h : '\r' ∉ cs) : normalizeLineEnds cs = cs := by
  induction cs with
  | nil => rfl
  | cons c cs ih =>
    obtain ⟨hc, hcs⟩ := not_or.mp (mt List.mem_cons.mpr h)
    rw [normalizeLineEnds, if_neg (Ne.symm hc), ih hcs]
    rintro after heq -
    exact hc heq.symm

/-- Every host stops in some file that holds a text: its value has one digit more than the host
allows. -/
theorem exists_stopsReading (limits : Limits) :
    ∃ content : FileContent, ¬ content.IsUndecodable ∧ content.StopsReading limits .tooManyDigits := by
  have hstop := Toml.stopsReading_long_number limits
  have hplain : '\r' ∉ 'a' :: '=' :: List.replicate (limits.digits + 1) '1' := by
    simp [List.mem_replicate]
  rw [← normalizeLineEnds_of_not_mem hplain, ← String.toList_ofList (l := _ :: _)] at hstop
  exact ⟨_, not_isUndecodable_toUTF8, .text hstop⟩

end Config

end DocLint
