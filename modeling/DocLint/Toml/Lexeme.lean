import DocLint.Toml.Tree

/-!
# Blanks, Comments, Strings and Keys of TOML

Each reader takes the characters that are left and gives what it read with those that follow it, or
nothing if the text is malformed there. Lines end in a line feed.
-/

namespace DocLint.Toml

/-- Whether a character is a blank within a line. -/
def isInline (c : Char) : Bool := c == ' ' || c == '\t'

/-- Whether a character is a blank or ends a line. -/
def isSpace (c : Char) : Bool := isInline c || c == '\n'

/-- The control characters that no comment and no string on one line may hold. -/
def isControl (c : Char) : Bool := (c.toNat < 0x20 && c != '\t') || c.toNat == 0x7F

/-- Skips blanks within a line. -/
def skipInline (cs : List Char) : List Char := cs.dropWhile isInline

/-- Skips blanks and ends of lines. -/
def skipSpace (cs : List Char) : List Char := cs.dropWhile isSpace

/-- Skips a comment, if one starts here, up to the end of the line. The line feed is left, for the
reader of the line to find. -/
def skipComment : List Char → Option (List Char)
  | '#' :: rest =>
    if (rest.takeWhile (· != '\n')).any isControl then none
    else some (rest.dropWhile (· != '\n'))
  | cs => some cs

mutual

/-- Skips blanks, ends of lines and comments, as between the items of an array. -/
def skipFiller : List Char → Option (List Char)
  | [] => some []
  | c :: rest =>
    if isSpace c then skipFiller rest
    else if c = '#' then skipCommentAndFiller rest
    else some (c :: rest)

/-- Skips the rest of a comment, and what `skipFiller` skips after it. -/
def skipCommentAndFiller : List Char → Option (List Char)
  | [] => some []
  | c :: rest =>
    -- The line feed is no control character here: it ends the comment.
    if c = '\n' then skipFiller rest
    else if isControl c then none
    else skipCommentAndFiller rest

end

/-! ## Strings -/

/-- The value of a hexadecimal digit of either case. -/
def hexValue? (c : Char) : Option Nat :=
  if '0' ≤ c ∧ c ≤ '9' then some (c.toNat - 0x30)
  else if 'a' ≤ c ∧ c ≤ 'f' then some (c.toNat - 0x57)
  else if 'A' ≤ c ∧ c ≤ 'F' then some (c.toNat - 0x37)
  else none

/-- The character whose code point is written by a given number of hexadecimal digits; surrogates
and numbers past the last code point are no characters. -/
def readHexChar (width : Nat) (cs : List Char) : Option (Char × List Char) := do
  let digits ← (cs.take width).mapM hexValue?
  let code := digits.foldl (fun n d => 16 * n + d) 0
  -- Near its end a text may have fewer characters than are taken.
  if digits.length = width ∧ code.isValidChar then some (Char.ofNat code, cs.drop width) else none

/-- The character that an escape of one letter stands for. -/
def shortEscape? : Char → Option Char
  | 'b' => some '\x08'
  | 't' => some '\t'
  | 'n' => some '\n'
  | 'f' => some '\x0C'
  | 'r' => some '\r'
  | '"' => some '"'
  | '\\' => some '\\'
  | _ => none

/-- The character that an escape stands for, read after its backslash. -/
def readEscape : List Char → Option (Char × List Char)
  | 'u' :: rest => readHexChar 4 rest
  | 'U' :: rest => readHexChar 8 rest
  | c :: rest => (shortEscape? c).map (·, rest)
  | [] => none

/-- A string of which the first character has been read already. -/
def withFirst (c : Char) (read : Option (List Char × List Char)) : Option (List Char × List Char) :=
  read.map fun (cs, rest) => (c :: cs, rest)

/-- The rest of a quoted string on one line, read after its opening quote. The first argument bounds
the number of characters. -/
def readBasic : Nat → List Char → Option (List Char × List Char)
  | 0, _ => none
  | _ + 1, [] => none
  | _ + 1, '"' :: rest => some ([], rest)
  | bound + 1, '\\' :: rest => do
    let (c, rest) ← readEscape rest
    withFirst c (readBasic bound rest)
  | bound + 1, c :: rest => if isControl c then none else withFirst c (readBasic bound rest)

/-- Skips the line end, and all blanks after it, that a backslash at the end of a line hides. Blanks
may stand before the line end. -/
def skipHiddenLineEnd (cs : List Char) : Option (List Char) :=
  match skipInline cs with
  | '\n' :: rest => some (skipSpace rest)
  | _ => none

/-- The quotes, two at most, that stand before the closing quotes of a string of several lines, read
after the first three. -/
def readExtraQuotes (quote : Char) : List Char → List Char × List Char
  | a :: b :: rest =>
    -- Five quotes in a row are the longest end that a string may have.
    if a ≠ quote then ([], a :: b :: rest)
    else if b ≠ quote then ([a], b :: rest)
    else ([a, b], rest)
  | [a] => if a ≠ quote then ([], [a]) else ([a], [])
  | [] => ([], [])

/-- The rest of a quoted string of several lines, read after its opening quotes. The first argument
bounds the number of characters. -/
def readMultiline : Nat → List Char → Option (List Char × List Char)
  | 0, _ => none
  | _ + 1, [] => none
  | _ + 1, '"' :: '"' :: '"' :: rest => some (readExtraQuotes '"' rest)
  | bound + 1, '\\' :: c :: rest =>
    -- Before a blank or a line end, a backslash hides the end of its line and is no escape.
    if isSpace c then do
      let rest ← skipHiddenLineEnd (c :: rest)
      readMultiline bound rest
    else do
      let (c, rest) ← readEscape (c :: rest)
      withFirst c (readMultiline bound rest)
  | bound + 1, c :: rest =>
    if c = '\\' ∨ (isControl c ∧ c ≠ '\n') then none else withFirst c (readMultiline bound rest)

/-- The rest of a literal string on one line, read after its opening apostrophe. -/
def readLiteral : List Char → Option (List Char × List Char)
  | [] => none
  | '\'' :: rest => some ([], rest)
  | c :: rest => if isControl c then none else withFirst c (readLiteral rest)

/-- The rest of a literal string of several lines, read after its opening apostrophes. -/
def readMultilineLiteral : List Char → Option (List Char × List Char)
  | [] => none
  | '\'' :: '\'' :: '\'' :: rest => some (readExtraQuotes '\'' rest)
  | c :: rest => if isControl c ∧ c ≠ '\n' then none else withFirst c (readMultilineLiteral rest)

/-- The text after a line feed that directly follows the opening of a string of several lines. -/
def skipFirstLineEnd : List Char → List Char
  | '\n' :: rest => rest
  | cs => cs

/-- What reading a string of any of the four kinds gives, if one starts here. -/
def readString? : List Char → Option (Option (List Char × List Char))
  -- Two quotes alone are an empty string on one line.
  | '"' :: '"' :: '"' :: rest =>
    some (readMultiline (rest.length + 1) (skipFirstLineEnd rest))
  | '"' :: rest => some (readBasic (rest.length + 1) rest)
  | '\'' :: '\'' :: '\'' :: rest => some (readMultilineLiteral (skipFirstLineEnd rest))
  | '\'' :: rest => some (readLiteral rest)
  | _ => none

/-! ## Keys -/

/-- A character of a key that is written without quotes. -/
def isBareKeyChar (c : Char) : Bool :=
  ('a' ≤ c && c ≤ 'z') || ('A' ≤ c && c ≤ 'Z') || ('0' ≤ c && c ≤ '9') || c == '-' || c == '_'

/-- One name of a key: bare, or a string on one line. A string may be empty, a bare name may not. -/
def readName : List Char → Option (String × List Char)
  -- A quoted name may be empty, a bare one not. Names over several lines there are none.
  | '"' :: rest => do
    let (cs, rest) ← readBasic (rest.length + 1) rest
    return (String.ofList cs, rest)
  | '\'' :: rest => do
    let (cs, rest) ← readLiteral rest
    return (String.ofList cs, rest)
  | cs =>
    let name := cs.takeWhile isBareKeyChar
    if name.isEmpty then none else some (String.ofList name, cs.dropWhile isBareKeyChar)

/-- A dotted key with the blanks after it, the names of its start being given. The first argument
bounds the number of names. -/
def readKeyFrom : Nat → List String → List Char → Option (Key × List Char)
  | 0, _, _ => none
  | bound + 1, parents, cs => do
    let (name, rest) ← readName cs
    match skipInline rest with
    | '.' :: rest => readKeyFrom bound (parents ++ [name]) (skipInline rest)
    | rest => return (⟨parents, name⟩, rest)

/-- A dotted key. Each name takes a character, so the bound is never used up. -/
def readKey (cs : List Char) : Option (Key × List Char) := readKeyFrom (cs.length + 1) [] cs

end DocLint.Toml
