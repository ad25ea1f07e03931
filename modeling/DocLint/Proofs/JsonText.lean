import DocLint.Json.Text
import DocLint.Proofs.JsonQuoting
import DocLint.Proofs.Numerals

/-!
# Values Read Off a Line

A value that is made of truth values, whole numbers and texts has a JSON text of its own: it can be told from
whatever follows it, as long as that does not go on with a digit. Main statements: `separated_append_inj`, by which
the items of a list or the entries of a table are told apart, `chars_append_inj` and `isPrintable_of_mem_chars`.
-/

namespace DocLint

/-- Whether a value is made of nulls, truth values, whole numbers, texts, lists and tables only. -/
inductive Value.IsPlain : Value → Prop where
  | null : IsPlain .null
  | bool (b : Bool) : IsPlain (.bool b)
  | int (i : Int) : IsPlain (.int i)
  | text (s : String) : IsPlain (.text s)
  | list {items : List Value} : (∀ item ∈ items, IsPlain item) → IsPlain (.list items)
  | table {entries : Dict Value} : (∀ entry ∈ entries, IsPlain entry.2) → IsPlain (.table entries)

namespace Value

attribute [simp] IsPlain.null IsPlain.bool IsPlain.int IsPlain.text

@[simp] theorem isPlain_list_iff {items : List Value} : (list items).IsPlain ↔ ∀ item ∈ items, item.IsPlain := by
  constructor
  · rintro ⟨⟩
    assumption
  · exact IsPlain.list

@[simp] theorem isPlain_table_iff {entries : Dict Value} :
    (table entries).IsPlain ↔ ∀ entry ∈ entries, entry.2.IsPlain := by
  constructor
  · rintro ⟨⟩
    assumption
  · exact IsPlain.table

end Value

namespace Json

open Text

/-! ## Whole Numbers -/

/-- Whether a text does not go on with a digit, so that a number in front of it ends there. -/
def EndsNumber (rest : List Char) : Prop := ∀ c, rest.head? = some c → isDigit c = false

theorem endsNumber_cons {c : Char} (h : isDigit c = false) (rest : List Char) : EndsNumber (c :: rest) := by
  intro d hd
  rw [← Option.some.inj hd, h]

theorem takeWhile_isDigit_append {digits rest : List Char} (hdigits : IsDigits digits)
    (hrest : EndsNumber rest) : (digits ++ rest).takeWhile isDigit = digits := by
  rw [List.takeWhile_append_of_pos hdigits.all_digits]
  cases rest with
  | nil => rw [List.takeWhile_nil, List.append_nil]
  | cons c rest =>
    rw [List.takeWhile_cons_of_neg (by rw [hrest c rfl]; decide), List.append_nil]

/-- A natural number is told from a text behind it that ends it. -/
theorem naturalDigits_append_inj {m n : Nat} {rest behind : List Char} (hrest : EndsNumber rest)
    (hbehind : EndsNumber behind)
    (h : Number.naturalDigits m ++ rest = Number.naturalDigits n ++ behind) : m = n ∧ rest = behind := by
  -- The digits of both are the digits that the whole text starts with.
  have hdigits : Number.naturalDigits m = Number.naturalDigits n := by
    rw [← takeWhile_isDigit_append (Number.isDigits_naturalDigits m) hrest, h,
      takeWhile_isDigit_append (Number.isDigits_naturalDigits n) hbehind]
  constructor
  · rw [← Number.digitsValue_naturalDigits m, hdigits, Number.digitsValue_naturalDigits]
  · rw [hdigits] at h
    exact List.append_cancel_left h

theorem exists_naturalDigits_eq (n : Nat) :
    ∃ c rest, Number.naturalDigits n = c :: rest ∧ isDigit c = true := by
  have hdigits := Number.isDigits_naturalDigits n
  obtain ⟨c, rest, hcons⟩ := List.exists_cons_of_ne_nil hdigits.ne_nil
  exact ⟨c, rest, hcons, hdigits.all_digits c (hcons ▸ List.mem_cons_self)⟩

/-- A natural number has no sign, so it is told from a negative one. -/
theorem naturalDigits_append_ne_minus {n : Nat} {rest behind : List Char} :
    Number.naturalDigits n ++ rest ≠ '-' :: behind := by
  obtain ⟨c, digits, hcons, hc⟩ := exists_naturalDigits_eq n
  intro h
  rw [hcons] at h
  rw [(List.cons_eq_cons.mp h).1] at hc
  cases hc

/-- A whole number is told from a text behind it that ends it. -/
theorem integerChars_append_inj {i j : Int} {rest behind : List Char} (hrest : EndsNumber rest)
    (hbehind : EndsNumber behind)
    (h : Number.integerChars i ++ rest = Number.integerChars j ++ behind) : i = j ∧ rest = behind := by
  -- The signs are the same since digits and a minus start differently; then the digits decide.
  cases i with
  | ofNat m =>
    cases j with
    | ofNat n =>
      obtain ⟨rfl, hbehind⟩ := naturalDigits_append_inj hrest hbehind h
      exact ⟨rfl, hbehind⟩
    | negSucc n => exact absurd h naturalDigits_append_ne_minus
  | negSucc m =>
    cases j with
    | ofNat n => exact absurd h.symm naturalDigits_append_ne_minus
    | negSucc n =>
      obtain ⟨hnumber, hbehind⟩ := naturalDigits_append_inj hrest hbehind (List.cons_eq_cons.mp h).2
      rw [Nat.add_right_cancel hnumber]
      exact ⟨rfl, hbehind⟩

/-! ## Items in a Row -/

section Separated

variable {α : Type} {write : α → List Char}

/-- Items in a row, each but the first behind a comma and a blank. -/
def separated (write : α → List Char) : List α → List Char
  | [] => []
  | item :: rest => write item ++ rest.flatMap fun next => ',' :: ' ' :: write next

theorem separated_cons_cons (item next : α) (rest : List α) :
    separated write (item :: next :: rest) = write item ++ ',' :: ' ' :: separated write (next :: rest) := by
  simp [separated]

/-- What stands in a row is of one of the items, or stands between two of them. -/
theorem mem_separated {items : List α} {c : Char} (h : c ∈ separated write items) :
    c = ',' ∨ c = ' ' ∨ ∃ item ∈ items, c ∈ write item := by
  cases items with
  | nil => cases h
  | cons item rest =>
    simp only [separated, List.mem_append, List.mem_flatMap, List.mem_cons] at h
    rcases h with h | ⟨next, hnext, rfl | rfl | h⟩
    · exact Or.inr (Or.inr ⟨item, List.mem_cons_self, h⟩)
    · exact Or.inl rfl
    · exact Or.inr (Or.inl rfl)
    · exact Or.inr (Or.inr ⟨next, List.mem_cons_of_mem item hnext, h⟩)

/-- Whether an item is told from one of others by what is written for it, whatever follows that ends
a number. -/
def IsToldFrom (write : α → List Char) (item other : α) : Prop :=
  ∀ rest behind, EndsNumber rest → EndsNumber behind → write item ++ rest = write other ++ behind →
    item = other ∧ rest = behind

variable {close : Char} {rest behind : List Char} (hdigit : isDigit close = false) (hcomma : close ≠ ',')

include hdigit hcomma

/-- The items behind the first are told apart, and from what follows the bracket that closes the
row. -/
theorem flatMap_separated_append_inj {items others : List α}
    (htold : ∀ item ∈ items, ∀ other ∈ others, IsToldFrom write item other)
    (h : (items.flatMap fun next => ',' :: ' ' :: write next) ++ close :: rest =
      (others.flatMap fun next => ',' :: ' ' :: write next) ++ close :: behind) :
    items = others ∧ rest = behind := by
  -- Behind an item stands a comma or the bracket, either of which ends a number.
  have hends : ∀ (row : List α) (last : List Char),
      EndsNumber ((row.flatMap fun next => ',' :: ' ' :: write next) ++ close :: last) := by
    intro row last
    cases row with
    | nil => exact endsNumber_cons hdigit last
    | cons first row => exact endsNumber_cons (by decide) _
  induction items generalizing others with
  | nil =>
    cases others with
    | nil => exact ⟨rfl, (List.cons_eq_cons.mp h).2⟩
    | cons other others => exact absurd (List.cons_eq_cons.mp h).1 hcomma
  | cons item items ih =>
    cases others with
    | nil => exact absurd (List.cons_eq_cons.mp h).1.symm hcomma
    | cons other others =>
      -- The first items are told apart from all that is behind them, the others by the hypothesis.
      simp only [List.flatMap_cons, List.cons_append, List.append_assoc, List.cons.injEq, true_and] at h
      obtain ⟨rfl, htail⟩ := htold item List.mem_cons_self other List.mem_cons_self _ _
        (hends items rest) (hends others behind) h
      obtain ⟨rfl, hbehind⟩ := ih
        (fun next hnext last hlast =>
          htold next (List.mem_cons_of_mem _ hnext) last (List.mem_cons_of_mem _ hlast)) htail
      exact ⟨rfl, hbehind⟩

/-- Rows of items are told apart, and from what follows the bracket that closes them. The first item
has no comma in front of it, so no item may start as the bracket does. -/
theorem separated_append_inj {items others : List α}
    (htold : ∀ item ∈ items, ∀ other ∈ others, IsToldFrom write item other)
    (hitems : ∀ item ∈ items, ∀ last rest, write item ++ last ≠ close :: rest)
    (hothers : ∀ other ∈ others, ∀ last rest, write other ++ last ≠ close :: rest)
    (h : separated write items ++ close :: rest = separated write others ++ close :: behind) :
    items = others ∧ rest = behind := by
  cases items with
  | nil =>
    cases others with
    | nil => exact ⟨rfl, (List.cons_eq_cons.mp h).2⟩
    | cons other others =>
      rw [separated, separated, List.append_assoc] at h
      exact absurd h.symm (hothers other List.mem_cons_self _ _)
  | cons item items =>
    cases others with
    | nil =>
      rw [separated, separated, List.append_assoc] at h
      exact absurd h (hitems item List.mem_cons_self _ _)
    | cons other others =>
      -- With a comma and a blank in front, the first items are as those behind them.
      refine flatMap_separated_append_inj hdigit hcomma htold ?_
      exact congrArg (',' :: ' ' :: ·) h

end Separated

/-! ## Values -/

theorem itemsChars_eq (items : List Value) : itemsChars items = separated chars items := by
  induction items with
  | nil => rfl
  | cons item rest ih =>
    cases rest with
    | nil => simp [itemsChars, separated]
    | cons next rest => rw [itemsChars, ih, separated_cons_cons]

/-- An entry as it stands in a table. -/
def entryChars (entry : String × Value) : List Char := quoted entry.1 ++ ':' :: ' ' :: chars entry.2

theorem entriesChars_eq (entries : Dict Value) : entriesChars entries = separated entryChars entries := by
  induction entries with
  | nil => rfl
  | cons entry rest ih =>
    obtain ⟨key, value⟩ := entry
    cases rest with
    | nil => simp [entriesChars, separated, entryChars]
    | cons next rest =>
      rw [entriesChars, ih, separated_cons_cons, entryChars]

/-- What the first character of a value's text tells of the value. The two truth values are told
apart by it, so that only five kinds of values are left to be told apart inside. -/
inductive Shape where
  | null
  | truth (b : Bool)
  | number
  | text
  | list
  | table

/-- The shape of a value. -/
def shape : Value → Shape
  | .null => .null
  | .bool b => .truth b
  | .int _ => .number
  | .float _ => .number
  | .text _ => .text
  | .moment _ => .text
  | .list _ => .list
  | .table _ => .table

/-- The shape of a value whose text starts with a character. -/
def shapeOf (c : Char) : Shape :=
  if c = 'n' then .null
  else if c = 't' then .truth true
  else if c = 'f' then .truth false
  else if c = '"' then .text
  else if c = '[' then .list
  else if c = '{' then .table
  else .number

theorem shapeOf_of_isDigit {c : Char} (h : isDigit c = true) : shapeOf c = .number := by
  have hne : ∀ d, isDigit d = false → c ≠ d := by
    rintro d hd rfl
    rw [h] at hd
    cases hd
  unfold shapeOf
  rw [if_neg (hne _ (by decide)), if_neg (hne _ (by decide)), if_neg (hne _ (by decide)),
    if_neg (hne _ (by decide)), if_neg (hne _ (by decide)), if_neg (hne _ (by decide))]

/-- The text of a value starts by its shape, and never as a list or a table ends. -/
theorem exists_chars_eq {v : Value} (hv : v.IsPlain) :
    ∃ c rest, chars v = c :: rest ∧ shapeOf c = shape v ∧ c ≠ ']' := by
  cases hv with
  | null => exact ⟨_, _, rfl, rfl, by decide⟩
  | bool b => cases b <;> exact ⟨_, _, rfl, rfl, by decide⟩
  -- A number starts with a digit or with its sign.
  | int i =>
    cases i with
    | ofNat n =>
      obtain ⟨c, rest, hcons, hc⟩ := exists_naturalDigits_eq n
      refine ⟨c, rest, hcons, shapeOf_of_isDigit hc, ?_⟩
      rintro rfl
      cases hc
    | negSucc n => exact ⟨_, _, rfl, rfl, by decide⟩
  | text s => exact ⟨_, _, rfl, rfl, by decide⟩
  | list _ => exact ⟨_, _, rfl, rfl, by decide⟩
  | table _ => exact ⟨_, _, rfl, rfl, by decide⟩

/-- No value starts as a list ends, so an empty list is told from any other. -/
theorem chars_append_ne_close {v : Value} (hv : v.IsPlain) (rest behind : List Char) :
    chars v ++ rest ≠ ']' :: behind := by
  obtain ⟨c, tail, hcons, -, hc⟩ := exists_chars_eq hv
  intro h
  rw [hcons] at h
  exact hc (List.cons_eq_cons.mp h).1

/-- Values with texts that start alike have the same shape. -/
theorem shape_eq_of_chars_append {v w : Value} (hv : v.IsPlain) (hw : w.IsPlain) {rest behind : List Char}
    (h : chars v ++ rest = chars w ++ behind) : shape v = shape w := by
  obtain ⟨c, _, hv, hshape, -⟩ := exists_chars_eq hv
  obtain ⟨d, _, hw, hother, -⟩ := exists_chars_eq hw
  rw [hv, hw] at h
  rw [← hshape, ← hother, (List.cons_eq_cons.mp h).1]

/-- An entry is told apart if its value is. -/
theorem isToldFrom_entryChars {entry other : String × Value} (h : IsToldFrom chars entry.2 other.2) :
    IsToldFrom entryChars entry other := by
  intro rest behind hrest hbehind hchars
  simp only [entryChars, List.append_assoc, List.cons_append] at hchars
  obtain ⟨hkey, hvalue⟩ := quoted_append_inj hchars
  obtain ⟨hsame, htail⟩ :=
    h rest behind hrest hbehind (List.cons_eq_cons.mp (List.cons_eq_cons.mp hvalue).2).2
  exact ⟨Prod.ext hkey hsame, htail⟩

/-- **A value is told by its text** from every other, and from what follows it unless that goes on
with a digit. -/
theorem chars_append_inj {v w : Value} (hv : v.IsPlain) (hw : w.IsPlain) : IsToldFrom chars v w := by
  -- By induction on the value. The shape settles which kind of value the other one is.
  induction hv generalizing w with
  | null =>
    intro rest behind _ _ h
    have hshape := shape_eq_of_chars_append .null hw h
    cases hw with
    | null => exact ⟨rfl, List.append_cancel_left h⟩
    | _ => cases hshape
  | bool b =>
    intro rest behind _ _ h
    have hshape := shape_eq_of_chars_append (.bool b) hw h
    cases hw with
    | bool c =>
      cases hshape
      exact ⟨rfl, List.append_cancel_left h⟩
    | _ => cases hshape
  | int i =>
    intro rest behind hrest hbehind h
    have hshape := shape_eq_of_chars_append (.int i) hw h
    cases hw with
    | int j =>
      obtain ⟨rfl, htail⟩ := integerChars_append_inj hrest hbehind h
      exact ⟨rfl, htail⟩
    | _ => cases hshape
  | text s =>
    intro rest behind _ _ h
    have hshape := shape_eq_of_chars_append (.text s) hw h
    cases hw with
    | text t =>
      obtain ⟨rfl, htail⟩ := quoted_append_inj h
      exact ⟨rfl, htail⟩
    | _ => cases hshape
  | @list items hitems ih =>
    intro rest behind _ _ h
    have hshape := shape_eq_of_chars_append (.list hitems) hw h
    cases hw with
    | @list others hothers =>
      simp only [chars, itemsChars_eq, List.cons_append, List.append_assoc, List.nil_append, List.cons.injEq,
        true_and] at h
      obtain ⟨rfl, htail⟩ := separated_append_inj (by decide) (by decide)
        (fun item hitem other hother => ih item hitem (hothers other hother))
        (fun item hitem => chars_append_ne_close (hitems item hitem))
        (fun other hother => chars_append_ne_close (hothers other hother)) h
      exact ⟨rfl, htail⟩
    | _ => cases hshape
  | @table entries hentries ih =>
    intro rest behind _ _ h
    have hshape := shape_eq_of_chars_append (.table hentries) hw h
    cases hw with
    | @table others hothers =>
      simp only [chars, entriesChars_eq, List.cons_append, List.append_assoc, List.nil_append,
        List.cons.injEq, true_and] at h
      -- An entry starts with a quote and not as a table ends, so an empty table is told, too.
      have hquote : ∀ (entry : String × Value) (last rest : List Char),
          entryChars entry ++ last ≠ '}' :: rest := by
        intro entry last rest hclose
        exact absurd (List.cons_eq_cons.mp hclose).1 (by decide)
      obtain ⟨rfl, htail⟩ := separated_append_inj (by decide) (by decide)
        (fun entry hentry other hother => isToldFrom_entryChars (ih entry hentry (hothers other hother)))
        (fun entry _ => hquote entry) (fun other _ => hquote other) h
      exact ⟨rfl, htail⟩
    | _ => cases hshape

/-! ## Printable Text -/

/-- A whole number is written with digits and a minus. -/
theorem isPrintable_of_mem_integerChars {i : Int} {c : Char} (h : c ∈ Number.integerChars i) :
    IsPrintable c := by
  have hdigit : ∀ n : Nat, ∀ d ∈ Number.naturalDigits n, IsPrintable d := by
    intro n d hd
    have hdigit := Char.isDigit_iff_toNat.mp (Nat.isDigit_of_mem_toDigits (by decide) (by decide) hd)
    exact ⟨Nat.le_trans (by decide) hdigit.1, Nat.le_trans hdigit.2 (by decide)⟩
  cases i with
  | ofNat n => exact hdigit n c h
  | negSucc n =>
    rcases List.mem_cons.mp h with rfl | h
    · decide
    · exact hdigit (n + 1) c h

theorem isPrintable_of_mem_of_all {cs : List Char} (hall : cs.all fun c => decide (IsPrintable c)) {c : Char}
    (hc : c ∈ cs) : IsPrintable c :=
  of_decide_eq_true (List.all_eq_true.mp hall c hc)

/-- The text of a value is printable ASCII, whatever its texts hold. -/
theorem isPrintable_of_mem_chars {v : Value} (hv : v.IsPlain) {c : Char} (hc : c ∈ chars v) : IsPrintable c := by
  -- A character of a list or a table is a bracket, stands between two items, or is of one of them.
  induction hv generalizing c with
  | null => exact isPrintable_of_mem_of_all (by decide) hc
  | bool b => cases b <;> exact isPrintable_of_mem_of_all (by decide) hc
  | int i => exact isPrintable_of_mem_integerChars hc
  | text s => exact isPrintable_of_mem_quoted hc
  | @list items _ ih =>
    rw [chars, itemsChars_eq, List.mem_cons, List.mem_append, List.mem_singleton] at hc
    rcases hc with rfl | hc | rfl
    · decide
    · rcases mem_separated hc with rfl | rfl | ⟨item, hitem, hc⟩
      · decide
      · decide
      · exact ih item hitem hc
    · decide
  | @table entries _ ih =>
    rw [chars, entriesChars_eq, List.mem_cons, List.mem_append, List.mem_singleton] at hc
    rcases hc with rfl | hc | rfl
    · decide
    · rcases mem_separated hc with rfl | rfl | ⟨entry, hentry, hc⟩
      · decide
      · decide
      · rw [entryChars, List.mem_append, List.mem_cons, List.mem_cons] at hc
        rcases hc with hc | rfl | rfl | hc
        · exact isPrintable_of_mem_quoted hc
        · decide
        · decide
        · exact ih entry hentry hc
    · decide

end Json

end DocLint
