import DocLint.Proofs.TomlBounds

/-!
# TOML Documents without Bounds

What a document is, said without the bounds under which it is read: a list of lines, each blank or with a
statement, whose statements go together. And where the host stops: behind lines of which the same is true, at the
value of a pair. Any other text is malformed. Main statements: `readStatement_eq_ok_iff` and
`readStatement_eq_stopped_iff` for one statement, and `read_eq_ok_iff` and `read_eq_stopped_iff` for a whole text.
-/

namespace DocLint.Toml

variable {limits : Limits} {cs rest : List Char}

theorem orMalformed_ne_stopped {α : Type} {found : Option α} {stop : Stop} :
    orMalformed found ≠ .error (.stopped stop) := by
  cases found with
  | none => exact nofun
  | some => exact nofun

/-- After a step that only malformed text can fail, a run stops only where the next step does. -/
theorem orMalformed_bind_eq_stopped_iff {α β : Type} {found : Option α} {step : α → Except Failure β}
    {stop : Stop} :
    orMalformed found >>= step = .error (.stopped stop) ↔
      ∃ a, found = some a ∧ step a = .error (.stopped stop) := by
  rw [bind_eq_error_iff, or_iff_right orMalformed_ne_stopped]
  simp only [orMalformed_eq_ok_iff]

/-! ## Keys -/

/-- A key starts with a character of a bare name or with a quote. -/
theorem exists_cons_of_readKeyFrom {bound : Nat} {parents : List String} {found : Key × List Char}
    (h : readKeyFrom bound parents cs = some found) :
    ∃ c after, cs = c :: after ∧ (isBareKeyChar c = true ∨ c = '"' ∨ c = '\'') := by
  cases bound with
  | zero => cases h
  | succ bound =>
    obtain ⟨⟨name, following⟩, hname, -⟩ := Option.bind_eq_some_iff.mp h
    cases cs with
    | nil => cases hname
    | cons c after =>
      refine ⟨c, after, rfl, ?_⟩
      by_contra hother
      obtain ⟨hbare, hquote, hapostrophe⟩ : isBareKeyChar c = false ∧ c ≠ '"' ∧ c ≠ '\'' := by
        simpa using hother
      unfold readName at hname
      split at hname <;> simp_all

/-- A key is read under any bound if it is read under one. -/
theorem readKey_of_readKeyFrom {bound : Nat} {found : Key × List Char}
    (h : readKeyFrom bound [] cs = some found) : readKey cs = some found :=
  readKeyFrom_of_lt h (Nat.lt_succ_self _)

/-! ## Statements -/

/-- Whether a text starts with a statement, and what follows it, said without a bound on keys and
values. -/
inductive StartsWith (limits : Limits) : List Char → Statement → List Char → Prop where
  /-- A key, an equals sign, and a value behind the blanks. -/
  | pair {cs afterKey afterMark rest : List Char} {key : Key} {value : Value} {names values : Nat} :
      readKeyFrom names [] cs = some (key, afterKey) → readMark? '=' afterKey = some afterMark →
      readValue limits values limits.readingCalls (skipInline afterMark) = .ok (value, rest) →
      StartsWith limits cs (.pair key value) rest
  /-- A key in brackets. -/
  | table {cs afterKey rest : List Char} {key : Key} {names : Nat} :
      readKeyFrom names [] (skipInline cs) = some (key, afterKey) →
      readMark? ']' afterKey = some rest → StartsWith limits ('[' :: cs) (.table key) rest
  /-- A key in two pairs of brackets, with nothing between the two brackets of a side. -/
  | arrayTable {cs afterKey afterMark rest : List Char} {key : Key} {names : Nat} :
      readKeyFrom names [] (skipInline cs) = some (key, afterKey) →
      readMark? ']' afterKey = some afterMark → readMark? ']' afterMark = some rest →
      StartsWith limits ('[' :: '[' :: cs) (.arrayTable key) rest

/-- Whether a text starts with a pair at whose value the host stops. Headers have no values. -/
inductive StopsAtValue (limits : Limits) : List Char → Stop → Prop where
  | pair {cs afterKey afterMark : List Char} {key : Key} {stop : Stop} {names values : Nat} :
      readKeyFrom names [] cs = some (key, afterKey) → readMark? '=' afterKey = some afterMark →
      readValue limits values limits.readingCalls (skipInline afterMark) = .error (.stopped stop) →
      StopsAtValue limits cs stop

/-- Behind a key and an equals sign, what comes of a statement is what comes of its value, under any
bound. -/
theorem readStatement_of_readKeyFrom {names values : Nat} {key : Key} {afterKey afterMark : List Char}
    {result : Except Failure (Value × List Char)} (hkey : readKeyFrom names [] cs = some (key, afterKey))
    (hmark : readMark? '=' afterKey = some afterMark)
    (hvalue : readValue limits values limits.readingCalls (skipInline afterMark) = result)
    (hresult : result ≠ .error .malformed) :
    readStatement limits cs = result.map fun (value, rest) => (.pair key value, rest) := by
  obtain ⟨c, after, rfl, hfirst⟩ := exists_cons_of_readKeyFrom hkey
  -- No key starts with the bracket of a header.
  have hbracket : c ≠ '[' := by
    rintro rfl
    exact absurd hfirst (by decide)
  have hlong : 2 * (skipInline afterMark).length < 2 * (skipInline afterMark).length + 2 :=
    Nat.lt_add_of_pos_right Nat.two_pos
  have hread := (readValue_extendedBy hlong).eq_of_ne (hvalue ▸ hresult)
  rw [hvalue] at hread
  rw [readStatement]
  · simp only [readKey_of_readKeyFrom hkey, hmark, orMalformed_some_bind, hread]
    cases result with
    | error => rfl
    | ok => rfl
  · rintro more heq
    exact hbracket (List.cons.inj heq).1
  · rintro more heq
    exact hbracket (List.cons.inj heq).1

/-- A statement is read exactly if the text starts with one, be it a pair or a header of either
kind. -/
theorem readStatement_eq_ok_iff {statement : Statement} :
    readStatement limits cs = .ok (statement, rest) ↔ StartsWith limits cs statement rest := by
  constructor
  -- What is read in order are the parts that the constructors name.
  · intro h
    unfold readStatement at h
    split at h
    · obtain ⟨⟨key, afterKey⟩, hkey, h⟩ := bind_eq_ok_iff.mp h
      obtain ⟨afterMark, hmark, h⟩ := bind_eq_ok_iff.mp h
      obtain ⟨last, hlast, h⟩ := bind_eq_ok_iff.mp h
      cases h
      rw [orMalformed_eq_ok_iff] at hkey hmark hlast
      exact .arrayTable hkey hmark hlast
    · obtain ⟨⟨key, afterKey⟩, hkey, h⟩ := bind_eq_ok_iff.mp h
      obtain ⟨last, hlast, h⟩ := bind_eq_ok_iff.mp h
      cases h
      rw [orMalformed_eq_ok_iff] at hkey hlast
      exact .table hkey hlast
    · obtain ⟨⟨key, afterKey⟩, hkey, h⟩ := bind_eq_ok_iff.mp h
      obtain ⟨afterMark, hmark, h⟩ := bind_eq_ok_iff.mp h
      obtain ⟨⟨value, last⟩, hvalue, h⟩ := bind_eq_ok_iff.mp h
      cases h
      rw [orMalformed_eq_ok_iff] at hkey hmark
      exact .pair hkey hmark hvalue
  · intro h
    cases h with
    | pair hkey hmark hvalue => rw [readStatement_of_readKeyFrom hkey hmark hvalue nofun, Except.map]
    | @table cs _ _ _ _ hkey hlast =>
      obtain ⟨c, after, hcs, hfirst⟩ := exists_cons_of_readKeyFrom hkey
      -- A key behind the bracket is no second bracket, so the header is that of one table.
      have hsingle : ∀ more, cs ≠ '[' :: more := by
        rintro more rfl
        cases hcs
        exact absurd hfirst (by decide)
      rw [readStatement]
      · simp only [readKey_of_readKeyFrom hkey, hlast, orMalformed_some_bind]
        rfl
      · exact hsingle
    | arrayTable hkey hmark hlast =>
      simp only [readStatement, readKey_of_readKeyFrom hkey, hmark, hlast, orMalformed_some_bind]
      rfl

/-- The host stops in a statement exactly if it does so in the value of a pair. -/
theorem readStatement_eq_stopped_iff {stop : Stop} :
    readStatement limits cs = .error (.stopped stop) ↔ StopsAtValue limits cs stop := by
  constructor
  · intro h
    unfold readStatement at h
    split at h
    -- The parts of a header are read by readers that the host does not stop.
    · obtain ⟨_, -, h⟩ := orMalformed_bind_eq_stopped_iff.mp h
      obtain ⟨_, -, h⟩ := orMalformed_bind_eq_stopped_iff.mp h
      obtain ⟨_, -, ⟨⟩⟩ := orMalformed_bind_eq_stopped_iff.mp h
    · obtain ⟨_, -, h⟩ := orMalformed_bind_eq_stopped_iff.mp h
      obtain ⟨_, -, ⟨⟩⟩ := orMalformed_bind_eq_stopped_iff.mp h
    · obtain ⟨⟨key, afterKey⟩, hkey, h⟩ := orMalformed_bind_eq_stopped_iff.mp h
      obtain ⟨afterMark, hmark, h⟩ := orMalformed_bind_eq_stopped_iff.mp h
      rcases bind_eq_error_iff.mp h with hvalue | ⟨_, -, ⟨⟩⟩
      exact .pair hkey hmark hvalue
  · intro h
    obtain ⟨hkey, hmark, hvalue⟩ := h
    rw [readStatement_of_readKeyFrom hkey hmark hvalue nofun, Except.map]

/-- No statement starts with the end of a line or with a comment, or where there is nothing left. -/
theorem StartsWith.exists_cons {statement : Statement} (h : StartsWith limits cs statement rest) :
    ∃ c after, cs = c :: after ∧ ¬ (c = '\n' ∨ c = '#') := by
  cases h with
  | pair hkey =>
    obtain ⟨c, after, rfl, hfirst⟩ := exists_cons_of_readKeyFrom hkey
    refine ⟨c, after, rfl, ?_⟩
    rintro (rfl | rfl) <;> exact absurd hfirst (by decide)
  | table => exact ⟨_, _, rfl, by decide⟩
  | arrayTable => exact ⟨_, _, rfl, by decide⟩

theorem StopsAtValue.exists_cons {stop : Stop} (h : StopsAtValue limits cs stop) :
    ∃ c after, cs = c :: after ∧ ¬ (c = '\n' ∨ c = '#') := by
  obtain ⟨hkey, -, -⟩ := h
  obtain ⟨c, after, rfl, hfirst⟩ := exists_cons_of_readKeyFrom hkey
  refine ⟨c, after, rfl, ?_⟩
  rintro (rfl | rfl) <;> exact absurd hfirst (by decide)

/-! ## Lines -/

/-- Whether a text starts with lines that hold some statements, in order, and what follows these
lines. -/
inductive Reaches (limits : Limits) : List Char → List Statement → List Char → Prop where
  | start {cs : List Char} : Reaches limits cs [] cs
  /-- A line of blanks, perhaps with a comment, states nothing. -/
  | blank {cs after next rest : List Char} {c : Char} {statements : List Statement} :
      skipInline cs = c :: after → c = '\n' ∨ c = '#' → readLineEnd (c :: after) = some next →
      Reaches limits next statements rest → Reaches limits cs statements rest
  /-- A line that states something has nothing behind it but blanks and a comment. -/
  | line {cs after next rest : List Char} {statement : Statement} {statements : List Statement} :
      StartsWith limits (skipInline cs) statement after → readLineEnd after = some next →
      Reaches limits next statements rest → Reaches limits cs (statement :: statements) rest

/-- How the reading of lines comes to an end, with the document as far as it is then: at the end of
the text, or at a value where the host stops. -/
inductive EndsWith (limits : Limits) (outline : Outline) : List Char → Except Failure Outline → Prop where
  /-- Blanks may be left, but no line feed. -/
  | done {cs : List Char} : skipInline cs = [] → EndsWith limits outline cs (.ok outline)
  /-- Lines before it have been read, and their document is lost. -/
  | stopped {cs : List Char} {stop : Stop} :
      StopsAtValue limits (skipInline cs) stop → EndsWith limits outline cs (.error (.stopped stop))

section

variable {outline held : Outline} {statements : List Statement} {result : Except Failure Outline}

/-- Where the reading of lines ends, one more round finds this out, under any bound. -/
theorem EndsWith.readLines_eq (h : EndsWith limits held cs result) (bound : Nat) :
    readLines limits (bound + 1) held cs = result := by
  cases h with
  | done hcs =>
    rw [readLines, hcs]
    rfl
  | stopped hstop =>
    obtain ⟨c, after, hcs, hblank⟩ := hstop.exists_cons
    have hread := readStatement_eq_stopped_iff.mpr hstop
    rw [hcs] at hread
    simp only [readLines, hcs, hblank, if_false, hread]
    rfl

/-- Lines that go together are read one after the other, and then what follows them, with the
document that they come to. -/
theorem Reaches.exists_readLines_eq (h : Reaches limits cs statements rest)
    (hadd : statements.foldlM Outline.add outline = some held) (bound : Nat) :
    ∃ more, readLines limits more outline cs = readLines limits bound held rest := by
  -- Each line counts the bound up by one.
  induction h generalizing outline with
  | start =>
    obtain rfl := Option.some.inj hadd
    exact ⟨bound, rfl⟩
  | @blank cs after next rest c statements hcs hblank hend _ ih =>
    obtain ⟨more, hmore⟩ := ih hadd
    refine ⟨more + 1, ?_⟩
    simp only [readLines, hcs, hblank, if_true, hend, orMalformed_some_bind]
    exact hmore
  | @line cs after next rest statement statements hstatement hend _ ih =>
    obtain ⟨added, hadded, hadd⟩ := Option.bind_eq_some_iff.mp hadd
    obtain ⟨more, hmore⟩ := ih hadd
    obtain ⟨c, following, hcs, hblank⟩ := hstatement.exists_cons
    have hread := readStatement_eq_ok_iff.mpr hstatement
    rw [hcs] at hread
    refine ⟨more + 1, ?_⟩
    rw [← hmore]
    simp only [readLines, hcs, hblank, if_false, hread]
    -- The statement joins the document before the end of its line is looked at.
    change (orMalformed (outline.add statement) >>= _) = _
    simp only [hadded, hend, orMalformed_some_bind]

/-- Where lines are read without finding them malformed, they go together up to where the reading
ends. -/
theorem exists_reaches_of_readLines {bound : Nat} (h : readLines limits bound outline cs = result)
    (hresult : result ≠ .error .malformed) :
    ∃ statements rest held, Reaches limits cs statements rest ∧
      statements.foldlM Outline.add outline = some held ∧ EndsWith limits held rest result := by
  induction bound generalizing cs outline with
  | zero => exact absurd h.symm hresult
  | succ bound ih =>
    unfold readLines at h
    split at h
    -- The end of the text.
    next hcs => exact ⟨[], cs, outline, .start, rfl, h ▸ .done hcs⟩
    next c after hcs =>
      split at h
      -- A blank line.
      next hblank =>
        cases hend : readLineEnd (c :: after) with
        | none =>
          rw [hend] at h
          exact absurd h.symm hresult
        | some next =>
          rw [hend] at h
          obtain ⟨statements, rest, held, hreaches, hadd, hends⟩ := ih h
          exact ⟨statements, rest, held, .blank hcs hblank hend hreaches, hadd, hends⟩
      -- A line with a statement, unless the host stops in it. Each step that finds malformed text
      -- is
      -- excluded by `hresult`.
      next hblank =>
        cases hread : readStatement limits (c :: after) with
        | error failure =>
          rw [hread] at h
          cases failure with
          | malformed => exact absurd h.symm hresult
          | stopped stop =>
            have hstop := readStatement_eq_stopped_iff.mp hread
            rw [← hcs] at hstop
            exact ⟨[], cs, outline, .start, rfl, h ▸ .stopped hstop⟩
        | ok found =>
          obtain ⟨statement, afterStatement⟩ := found
          rw [hread] at h
          change (orMalformed (outline.add statement) >>= _) = _ at h
          cases hadded : outline.add statement with
          | none =>
            rw [hadded] at h
            exact absurd h.symm hresult
          | some added =>
            rw [hadded] at h
            change (orMalformed (readLineEnd afterStatement) >>= _) = _ at h
            cases hend : readLineEnd afterStatement with
            | none =>
              rw [hend] at h
              exact absurd h.symm hresult
            | some next =>
              rw [hend] at h
              obtain ⟨statements, rest, held, hreaches, hadd, hends⟩ := ih h
              have hstatement := readStatement_eq_ok_iff.mp hread
              rw [← hcs] at hstatement
              exact ⟨statement :: statements, rest, held, .line hstatement hend hreaches,
                Option.bind_eq_some_iff.mpr ⟨added, hadded, hadd⟩, hends⟩

/-- Lines that go together are read up to where the reading ends, under the bound that the length of
a text sets. -/
theorem readLines_of_reaches (hreaches : Reaches limits cs statements rest)
    (hadd : statements.foldlM Outline.add outline = some held) (hends : EndsWith limits held rest result) :
    readLines limits (cs.length + 1) outline cs = result := by
  -- Some bound is enough, and the one that is used is enough for any text of this length.
  obtain ⟨bound, hread⟩ := hreaches.exists_readLines_eq hadd 1
  rw [hends.readLines_eq 0] at hread
  have hresult : result ≠ .error .malformed := by
    cases hends with
    | done => exact nofun
    | stopped => exact nofun
  have hextended : ExtendedBy (readLines limits bound outline cs)
      (readLines limits (cs.length + 1) outline cs) := readLines_extendedBy (Nat.lt_succ_self cs.length)
  exact (hextended.eq_of_ne (hread ▸ hresult)).trans hread

end

/-! ## Documents -/

/-- Whether a text is a document that stands for a table: it is a list of lines whose statements go
together to that table. -/
inductive IsDocument (limits : Limits) (text : List Char) (table : Dict Value) : Prop where
  /-- No statement contradicts those before it, and what they come to is closed into the table. -/
  | lines {statements : List Statement} {rest : List Char} {outline : Outline} :
      Reaches limits text statements rest → skipInline rest = [] →
      statements.foldlM Outline.add {} = some outline → Tree.valueEntries outline.root = table →
      IsDocument limits text table

/-- Whether the host stops while a text is read: the lines up to some pair go together, and at the
value of that pair it stops. What comes behind it in the text is of no account. -/
inductive StopsReading (limits : Limits) (text : List Char) (stop : Stop) : Prop where
  /-- Malformed lines before the pair would have been found first. -/
  | atValue {statements : List Statement} {rest : List Char} {outline : Outline} :
      Reaches limits text statements rest → statements.foldlM Outline.add {} = some outline →
      StopsAtValue limits (skipInline rest) stop → StopsReading limits text stop

variable {text : List Char}

/-- A text is read exactly if it is a document, and as the table that it stands for. -/
theorem read_eq_ok_iff {table : Dict Value} :
    read limits text = .ok table ↔ IsDocument limits text table := by
  unfold read
  constructor
  · intro h
    obtain ⟨outline, hlines, htable⟩ := bind_eq_ok_iff.mp h
    obtain ⟨statements, rest, held, hreaches, hadd, hends⟩ := exists_reaches_of_readLines hlines nofun
    cases hends with
    | done hrest => exact .lines hreaches hrest hadd (Except.ok.inj htable)
  · rintro ⟨hreaches, hrest, hadd, rfl⟩
    have hlines := readLines_of_reaches hreaches hadd (.done hrest)
    exact bind_eq_ok_iff.mpr ⟨_, hlines, rfl⟩

/-- The host stops at a text exactly if it does so at the value of a pair that it comes to. -/
theorem read_eq_stopped_iff {stop : Stop} :
    read limits text = .error (.stopped stop) ↔ StopsReading limits text stop := by
  unfold read
  constructor
  · intro h
    rcases bind_eq_error_iff.mp h with hlines | ⟨_, -, ⟨⟩⟩
    obtain ⟨statements, rest, held, hreaches, hadd, hends⟩ := exists_reaches_of_readLines hlines nofun
    cases hends with
    | stopped hstop => exact .atValue hreaches hadd hstop
  · rintro ⟨hreaches, hadd, hstop⟩
    have hlines := readLines_of_reaches hreaches hadd (.stopped hstop)
    exact bind_eq_error_iff.mpr (.inl hlines)

end DocLint.Toml
