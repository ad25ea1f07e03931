import DocLint.Toml.Scalar

/-!
# TOML Documents

A document is a list of lines, each a pair, a header or blank. `readLines` reads them one after the other and
puts each into an `Outline` before it goes on to the next. So what is found first in the text is what comes
out: a line that goes against an earlier one, or a value at which the host stops. Main definition: `read`, the
table that a text stands for, or why there is none.
-/

namespace DocLint.Toml

/-- A line of a document that is not blank. -/
inductive Statement where
  | pair (key : Key) (value : Value)
  /-- The header of a table, to which the pairs below it belong. -/
  | table (key : Key)
  /-- The header of one more table in an array of tables. -/
  | arrayTable (key : Key)
  deriving Inhabited

/-! ## Values -/

/-- The calls that an array takes: one for its items and one for the value that is read next. -/
def arrayCalls : Nat := 2

/-- The calls that an inline table takes: one for the table, one for a pair and one for the value of
the pair. -/
def inlineTableCalls : Nat := 3

/-- Reads the inside of a bracket, if there is room for so many more calls, with the room that they
leave. -/
def goInto {α : Type} (calls room : Nat) (read : Nat → Except Failure α) : Except Failure α :=
  if room < calls then .error (.stopped .tooDeep) else read (room - calls)

section

variable (limits : Limits)

mutual

/-- A value. The first number bounds the number of values and brackets that are read, and the second
is the room for calls inside of one another. -/
def readValue : Nat → Nat → List Char → Except Failure (Value × List Char)
  | 0, _, _ => .error .malformed
  | bound + 1, room, cs =>
    match cs with
    | '[' :: rest => do
      -- The room counts for this array only; behind it there is as much as before.
      let (items, rest) ← goInto arrayCalls room fun room => readItems bound room rest
      return (.list items, rest)
    | '{' :: rest =>
      goInto inlineTableCalls room fun room =>
        -- Line feeds are blanks in an array only.
        match skipInline rest with
        | '}' :: rest => return (.table [], rest)
        | rest => do
          let (entries, rest) ← readEntries bound room [] rest
          return (.table (Tree.valueEntries entries), rest)
    | 't' :: 'r' :: 'u' :: 'e' :: rest => return (.bool true, rest)
    | 'f' :: 'a' :: 'l' :: 's' :: 'e' :: rest => return (.bool false, rest)
    | _ =>
      match readString? cs with
      | some string => do
        let (chars, rest) ← orMalformed string
        return (.text (String.ofList chars), rest)
      | none => readScalar limits cs

/-- The items of an array up to its closing bracket; a comma may follow the last. -/
def readItems : Nat → Nat → List Char → Except Failure (List Value × List Char)
  | 0, _, _ => .error .malformed
  | bound + 1, room, cs => do
    match ← orMalformed (skipFiller cs) with
    | ']' :: rest => return ([], rest)
    | cs =>
      let (item, rest) ← readValue bound room cs
      match ← orMalformed (skipFiller rest) with
      | ']' :: rest => return ([item], rest)
      -- A comma may also stand behind the last item.
      | ',' :: rest =>
        let (items, rest) ← readItems bound room rest
        return (item :: items, rest)
      | _ => .error .malformed

/-- The pairs of an inline table up to its closing brace, added to those before. They stand on one
line, and no comma follows the last. -/
def readEntries : Nat → Nat → Dict Tree → List Char → Except Failure (Dict Tree × List Char)
  | 0, _, _, _ => .error .malformed
  | bound + 1, room, entries, cs => do
    let (key, rest) ← orMalformed (readKey cs)
    let rest ← orMalformed (readMark? '=' rest)
    let (value, rest) ← readValue bound room (skipInline rest)
    -- A pair may add to the table of an earlier one, as `a.b = 1, a.c = 2` does, but not define a
    -- name again.
    let entries ← orMalformed (Tree.addPair [] 0 key value entries)
    match skipInline rest with
    | '}' :: rest => return (entries, rest)
    | ',' :: rest => readEntries bound room entries (skipInline rest)
    | _ => .error .malformed

end

/-! ## Lines -/

/-- A header, or a key with an equals sign and its value. -/
def readStatement : List Char → Except Failure (Statement × List Char)
  | '[' :: '[' :: rest => do
    let (key, rest) ← orMalformed (readKey (skipInline rest))
    let rest ← orMalformed (readMark? ']' rest)
    -- Nothing may come between the two closing brackets, not even a blank.
    let rest ← orMalformed (readMark? ']' rest)
    return (.arrayTable key, rest)
  | '[' :: rest => do
    let (key, rest) ← orMalformed (readKey (skipInline rest))
    let rest ← orMalformed (readMark? ']' rest)
    return (.table key, rest)
  | cs => do
    let (key, rest) ← orMalformed (readKey cs)
    let rest ← orMalformed (readMark? '=' rest)
    let rest := skipInline rest
    -- Each value and each bracket takes a character, so the bound is never used up.
    let (value, rest) ← readValue limits (2 * rest.length + 2) limits.readingCalls rest
    return (.pair key value, rest)

end

/-- The text after the end of a line; only blanks and a comment may stand before it. -/
def readLineEnd (cs : List Char) : Option (List Char) := do
  match ← skipComment (skipInline cs) with
  | [] => return []
  | c :: rest => if c = '\n' then return rest else none

/-! ## Documents -/

/-- A document as far as it is read. -/
structure Outline where
  /-- The tables, still open. -/
  root : Dict Tree := []
  /-- The path of the last header, empty before the first. -/
  header : List String := []
  /-- The number of headers so far, which tells the sections apart. -/
  region : Nat := 0
  deriving Inhabited

/-- Adds a line to a document. It fails if the line defines anew what is defined already. -/
def Outline.add (outline : Outline) : Statement → Option Outline
  | .pair key value => do
    let root ← Tree.addPair outline.header outline.region key value outline.root
    return { outline with root := root }
  -- With a header a new section starts, so dotted keys of the old one are closed.
  | .table key => do
    let root ← Tree.declareTable key outline.root
    return ⟨root, key.names, outline.region + 1⟩
  | .arrayTable key => do
    let root ← Tree.appendTable key outline.root
    return ⟨root, key.names, outline.region + 1⟩

/-- Reads the lines that are left and adds them to those before. The first number bounds the number
of lines. Each statement has its place in the outline before the rest of its line is looked at. -/
def readLines (limits : Limits) : Nat → Outline → List Char → Except Failure Outline
  | 0, _, _ => .error .malformed
  | bound + 1, outline, cs =>
    match skipInline cs with
    | [] => return outline
    | c :: rest =>
      if c = '\n' ∨ c = '#' then do
        let rest ← orMalformed (readLineEnd (c :: rest))
        readLines limits bound outline rest
      else do
        let (statement, rest) ← readStatement limits (c :: rest)
        -- What a line states has to fit what was stated before, or the document ends here.
        let outline ← orMalformed (outline.add statement)
        let rest ← orMalformed (readLineEnd rest)
        readLines limits bound outline rest

/-- The table that a text stands for. It fails if the text is no document, or if the host stops
before that shows. -/
def read (limits : Limits) (text : List Char) : Except Failure (Dict Value) := do
  -- Every line but the last ends in a line feed, so there is at most one line more than characters.
  let outline ← readLines limits (text.length + 1) {} text
  return Tree.valueEntries outline.root

end DocLint.Toml
