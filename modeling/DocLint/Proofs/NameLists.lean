import DocLint.Config.Options
import DocLint.Proofs.Trimming

/-!
# Names in Comma Lists

A text that lists names is joined from pieces at commas: some hold a name with white space around it, the others
white space alone. Main statements: `namesOf_intercalate`, by which joined texts list what each of them lists,
`namesOf_eq_iff`, by which a text lists the names that its pieces hold and no others, and
`comma_lists_are_canonical`.
-/

namespace DocLint

namespace Text

/-! ## Names -/

/-- Whether a text can be a name in a comma list: there is something in it, but no comma, and no
white space at its ends. -/
structure IsName (name : String) : Prop where
  ne_empty : name ≠ ""
  noComma : ',' ∉ name.toList
  startsBlank : Text.startsBlank name.toList = false
  endsBlank : Text.endsBlank name.toList = false

instance (name : String) : Decidable (IsName name) :=
  decidable_of_iff (name ≠ "" ∧ ',' ∉ name.toList ∧ Text.startsBlank name.toList = false ∧
      Text.endsBlank name.toList = false)
    ⟨fun ⟨hne, hcomma, hstart, hend⟩ => ⟨hne, hcomma, hstart, hend⟩,
      fun h => ⟨h.ne_empty, h.noComma, h.startsBlank, h.endsBlank⟩⟩

/-- Whether names are held by pieces of text, in order: each in a piece of its own with white space
around it, while all other pieces are white space. -/
inductive AreHeldBy : List String → List String → Prop where
  | nil : AreHeldBy [] []
  /-- A piece of white space holds none, and neither does an empty one. -/
  | blank {piece : String} {pieces names : List String} :
      isBlankText piece = true → AreHeldBy names pieces → AreHeldBy names (piece :: pieces)
  /-- Any other piece holds what stands between the white space at its ends. -/
  | name {front name back : String} {pieces names : List String} :
      isBlankText front = true → isBlankText back = true → AreHeldBy names pieces →
        AreHeldBy (name :: names) ((front ++ name ++ back) :: pieces)

theorem AreHeldBy.refl (names : List String) : AreHeldBy names names := by
  induction names with
  | nil => exact .nil
  | cons name names ih =>
    have hheld : AreHeldBy (name :: names) (("" ++ name ++ "") :: names) := .name rfl rfl ih
    simpa using hheld

/-! ## Pieces between Commas -/

/-- The pieces between commas are those of any text that is split at one character. -/
theorem splitCommas_eq (cs : List Char) : splitCommas cs = cs.splitOn ',' := by
  induction cs with
  | nil => rfl
  | cons c rest ih =>
    rw [List.splitOn_cons_eq_if_modifyHead, splitCommas, ih]
    by_cases hc : c = ','
    · simp [hc]
    · obtain ⟨piece, pieces, hpieces⟩ := List.exists_cons_of_ne_nil (List.splitOn_ne_nil ',' rest)
      simp [hc, hpieces]

/-- No piece between commas holds one. -/
theorem comma_not_mem_of_mem_splitCommas {cs piece : List Char} (h : piece ∈ splitCommas cs) :
    ',' ∉ piece := by
  rw [splitCommas_eq] at h
  induction cs generalizing piece with
  | nil => simp_all
  | cons c rest ih =>
    rw [List.splitOn_cons_eq_if_modifyHead] at h
    by_cases hc : c = ','
    · -- The comma ends an empty piece.
      rw [if_pos (by simpa using hc)] at h
      rcases List.mem_cons.mp h with rfl | hlater
      · exact List.not_mem_nil
      · exact ih hlater
    · -- Any other character goes in front of the first piece.
      obtain ⟨first, pieces, hpieces⟩ := List.exists_cons_of_ne_nil (List.splitOn_ne_nil ',' rest)
      rw [if_neg (by simpa using hc), hpieces, List.modifyHead_cons] at h
      rw [hpieces] at ih
      rcases List.mem_cons.mp h with rfl | hlater
      · rw [List.mem_cons, not_or]
        exact ⟨Ne.symm hc, ih List.mem_cons_self⟩
      · exact ih (List.mem_cons_of_mem _ hlater)

theorem intercalate_splitCommas (s : String) :
    ",".intercalate ((splitCommas s.toList).map String.ofList) = s := by
  rw [← String.toList_inj, String.toList_intercalate, List.map_map]
  simp [Function.comp_def, splitCommas_eq, List.intercalate_splitOn]

/-! ## What a Text Lists -/

/-- A comma between two texts ends what the first lists, since no piece reaches past a comma. -/
theorem namesOf_append_comma (s t : String) : namesOf (s ++ "," ++ t) = namesOf s ++ namesOf t := by
  have hsplit : splitCommas (s ++ "," ++ t).toList = splitCommas s.toList ++ splitCommas t.toList := by
    simp [splitCommas_eq, List.splitOn_append_cons_self]
  simp only [namesOf, hsplit, List.map_append, List.filter_append]

/-- Joined texts list what each of them lists. -/
theorem namesOf_intercalate (texts : List String) :
    namesOf (",".intercalate texts) = texts.flatMap namesOf := by
  induction texts with
  | nil => rfl
  | cons first texts ih =>
    cases texts with
    | nil => simp
    | cons second texts =>
      rw [String.intercalate_cons_cons, namesOf_append_comma, ih]
      rfl

theorem namesOf_of_noComma {s : String} (h : ',' ∉ s.toList) :
    namesOf s = if trim s.toList = [] then [] else [String.ofList (trim s.toList)] := by
  rw [namesOf, splitCommas_eq, List.splitOn_eq_singleton h]
  by_cases htrim : trim s.toList = [] <;> simp [htrim]

theorem comma_not_mem_of_isBlankText {s : String} (h : isBlankText s = true) : ',' ∉ s.toList := by
  intro hmem
  have hcomma : isBlank ',' = true := List.all_eq_true.mp h ',' hmem
  revert hcomma
  decide

theorem namesOf_of_isBlankText {s : String} (h : isBlankText s = true) : namesOf s = [] := by
  rw [namesOf_of_noComma (comma_not_mem_of_isBlankText h), if_pos (trim_eq_nil_iff.mpr h)]

/-- A name with white space around it is all that is listed. -/
theorem IsName.namesOf_between {name front back : String} (h : IsName name)
    (hfront : isBlankText front = true) (hback : isBlankText back = true) :
    namesOf (front ++ name ++ back) = [name] := by
  have hcomma : ',' ∉ (front ++ name ++ back).toList := by
    simp [comma_not_mem_of_isBlankText hfront, comma_not_mem_of_isBlankText hback, h.noComma]
  have hne : name.toList ≠ [] := by simpa using h.ne_empty
  have htrim : trim (front ++ name ++ back).toList = name.toList := by
    simp only [String.toList_append]
    exact trim_between hfront hback hne h.startsBlank h.endsBlank
  rw [namesOf_of_noComma hcomma, htrim, if_neg hne, String.ofList_toList]

/-- Joined pieces list the names that they hold: each piece is listed alone, and it holds one name
or none. -/
theorem namesOf_of_areHeldBy {names pieces : List String} (hnames : ∀ name ∈ names, IsName name)
    (h : AreHeldBy names pieces) : namesOf (",".intercalate pieces) = names := by
  rw [namesOf_intercalate]
  induction h with
  | nil => rfl
  | blank hpiece _ ih => rw [List.flatMap_cons, namesOf_of_isBlankText hpiece, ih hnames, List.nil_append]
  | name hfront hback _ ih =>
    obtain ⟨hname, hrest⟩ := List.forall_mem_cons.mp hnames
    rw [List.flatMap_cons, hname.namesOf_between hfront hback, ih hrest]
    rfl

/-- What is listed can be a name: it is a piece between commas, trimmed, and not empty. -/
theorem isName_of_mem_namesOf {s name : String} (h : name ∈ namesOf s) : IsName name := by
  simp only [namesOf, List.mem_map, List.mem_filter] at h
  obtain ⟨_, ⟨⟨piece, hpiece, rfl⟩, hne⟩, rfl⟩ := h
  refine ⟨?_, ?_, ?_, ?_⟩
  · simpa using hne
  · rw [String.toList_ofList]
    exact fun hcomma => comma_not_mem_of_mem_splitCommas hpiece (mem_of_mem_trim hcomma)
  · rw [String.toList_ofList, startsBlank_trim]
  · rw [String.toList_ofList, endsBlank_trim]

theorem isBlankText_ofList (cs : List Char) : isBlankText (String.ofList cs) = cs.all isBlank := by
  rw [isBlankText, String.toList_ofList]

/-- Pieces hold what trimming leaves of them, those of white space apart, which hold nothing. -/
theorem areHeldBy_trimmed (pieces : List (List Char)) :
    AreHeldBy (((pieces.map trim).filter fun piece => !piece.isEmpty).map String.ofList)
      (pieces.map String.ofList) := by
  induction pieces with
  | nil => exact .nil
  | cons piece pieces ih =>
    by_cases htrim : trim piece = []
    · -- A piece of white space is dropped and holds nothing.
      have hdropped : (!(trim piece).isEmpty) = false := by simp [htrim]
      simp only [List.map_cons, List.filter_cons, hdropped]
      refine .blank ?_ ih
      rw [isBlankText_ofList, trim_eq_nil_iff.mp htrim]
    · -- Any other piece holds what is left of it, between the two ends that are taken off.
      have hkept : (!(trim piece).isEmpty) = true := by simpa using htrim
      obtain ⟨front, back, hfront, hback, haround⟩ := exists_blank_around piece
      have hpiece : String.ofList piece =
          String.ofList front ++ String.ofList (trim piece) ++ String.ofList back := by
        rw [← String.ofList_append, ← String.ofList_append, ← haround]
      simp only [List.map_cons, List.filter_cons, hkept, if_true, hpiece]
      exact .name (by rw [isBlankText_ofList, hfront]) (by rw [isBlankText_ofList, hback]) ih

/-- A text lists exactly the names that the pieces hold from which it is joined. -/
theorem namesOf_eq_iff {s : String} {names : List String} :
    namesOf s = names ↔ (∀ name ∈ names, IsName name) ∧
      ∃ pieces, AreHeldBy names pieces ∧ s = ",".intercalate pieces := by
  constructor
  · -- The pieces between the commas of the text are those that hold the names.
    rintro rfl
    exact ⟨fun name => isName_of_mem_namesOf, _, areHeldBy_trimmed _, (intercalate_splitCommas s).symm⟩
  · rintro ⟨hnames, pieces, hheld, rfl⟩
    exact namesOf_of_areHeldBy hnames hheld

end Text

/-! ## What a Value Lists -/

namespace Value

/-- A list gives the names of its texts, and passes over what is no text. -/
theorem names_list (items : List Value) :
    (list items).names = (items.filterMap text?).flatMap Text.namesOf := by
  rw [names]
  induction items with
  | nil => rfl
  | cons item items ih => cases item <;> simp_all [text?, List.filterMap_cons]

/-- What a value lists can be a name, whether the value is a text or a list of texts. -/
theorem isName_of_mem_names {value : Value} {name : String} (h : name ∈ value.names) :
    Text.IsName name := by
  cases value with
  | text s => exact Text.isName_of_mem_namesOf h
  | list items =>
    rw [names_list] at h
    obtain ⟨s, -, hs⟩ := List.mem_flatMap.mp h
    exact Text.isName_of_mem_namesOf hs
  | _ => cases h

end Value

/-- **Comma lists have one normal form**, the names joined by commas. Every name that a value lists
can be one, and the names joined list themselves. A comma between two texts puts their names one
after the other, and a list gives the names of its texts in order, as the texts joined do. A text
lists certain names exactly if they can be names and it is joined from pieces that hold them, with
any white space around each of them and any pieces of white space besides. -/
theorem comma_lists_are_canonical :
    (∀ value : Value, (∀ name ∈ value.names, Text.IsName name) ∧
      (Value.text (",".intercalate value.names)).names = value.names) ∧
    (∀ s t : String, (Value.text (s ++ "," ++ t)).names = (Value.text s).names ++ (Value.text t).names) ∧
    (∀ items : List Value, let texts := items.filterMap Value.text?
      (Value.list items).names = (texts.flatMap fun s => (Value.text s).names) ∧
        (Value.list items).names = (Value.text (",".intercalate texts)).names) ∧
    ∀ (s : String) (names : List String), (Value.text s).names = names ↔
      (∀ name ∈ names, Text.IsName name) ∧
        ∃ pieces, Text.AreHeldBy names pieces ∧ s = ",".intercalate pieces := by
  refine ⟨?_, Text.namesOf_append_comma, ?_, fun s names => Text.namesOf_eq_iff⟩
  · intro value
    have hnames : ∀ name ∈ value.names, Text.IsName name := fun name => Value.isName_of_mem_names
    exact ⟨hnames, Text.namesOf_of_areHeldBy hnames (.refl value.names)⟩
  · intro items texts
    have hlist : (Value.list items).names = texts.flatMap Text.namesOf := Value.names_list items
    exact ⟨hlist, hlist.trans (Text.namesOf_intercalate texts).symm⟩

/-- Inner white space stays, and pieces of white space are passed over. -/
example : (∀ name ∈ ["a b", "c"], Text.IsName name) ∧
    (Value.text "\u3000a b ,,\u2003\t,c\u00A0,").names = ["a b", "c"] := by decide

end DocLint
