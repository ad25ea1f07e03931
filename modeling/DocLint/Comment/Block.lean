/-!
# Documentation Comments

A documentation comment comes split into lines, and each line into tokens; rendering puts the tokens
together again. Beside the lines stand the tags, each with the lines that it takes up. Main definitions:
`Tokens.render`, `joinLines` and `Block.tag?`, which counts tags from either end.
-/

namespace DocLint

/-! ## Places -/

/-- A place in a text. Lines and columns are counted by the parser that found the place, and may be
any whole numbers here. -/
structure Position where
  line : Int
  column : Int
  deriving DecidableEq, Repr, Inhabited

/-- The place that stands for a whole file. -/
def Position.first : Position := ⟨1, 1⟩

/-- A stretch of a text. -/
structure Span where
  start : Position
  stop : Position
  deriving DecidableEq, Repr, Inhabited

/-! ## Lines -/

/-- One line of a comment, split into tokens. A token that a line does not have is empty, and the
blanks after a token are a token of their own, so that nothing of the line is lost. -/
structure Tokens where
  -- The tokens are listed in the order in which they stand on the line.
  start : String := ""
  /-- What opens the comment or stands at the start of its further lines. -/
  delimiter : String := ""
  postDelimiter : String := ""
  tag : String := ""
  postTag : String := ""
  type : String := ""
  postType : String := ""
  name : String := ""
  postName : String := ""
  description : String := ""
  /-- What stands before the end of the line, or before the mark that closes the comment. -/
  lineEnd : String := ""
  close : String := ""
  deriving DecidableEq, Repr, Inhabited

namespace Tokens

/-- The tokens of a line in the order in which they stand. -/
def toList (t : Tokens) : List String :=
  [t.start, t.delimiter, t.postDelimiter, t.tag, t.postTag, t.type, t.postType, t.name, t.postName,
    t.description, t.lineEnd, t.close]

/-- The text of a line: its tokens, one directly after the other. -/
def render (t : Tokens) : String := t.toList.foldl (· ++ ·) ""

end Tokens

/-- Puts a line feed between each two lines. No line at all and one empty line both give the empty
text. -/
def joinLines : List String → String
  | [] => ""
  | [line] => line
  | line :: next :: rest => line ++ "\n" ++ joinLines (next :: rest)

/-- The text of lines. -/
def renderLines (lines : List Tokens) : String := joinLines (lines.map Tokens.render)

/-! ## Tags and Comments -/

/-- A tag of a comment. Its type is part of the lines only, since nothing is decided by it. -/
structure Tag where
  name : String
  /-- What the tag names, if it names anything. -/
  path : Option String := none
  description : String := ""
  span : Span := ⟨Position.first, Position.first⟩
  /-- The numbers of the lines that the tag takes up, from zero. -/
  lines : List Int := []
  deriving DecidableEq, Repr, Inhabited

/-- Whether a tag takes up a line. The numbers that the parser gives need not be in order, nor those
of lines. -/
def Tag.covers (tag : Tag) (line : Nat) : Bool := tag.lines.contains (line : Int)

/-- A documentation comment. Its text and its lines both come from the parser; that the lines render
to the text is a promise of the parser, which some statements ask for and others do without. -/
structure Block where
  /-- The text of the comment. -/
  source : String := ""
  span : Span := ⟨Position.first, Position.first⟩
  /-- What the comment says before its first tag. -/
  description : String := ""
  tags : List Tag := []
  lines : List Tokens := []
  deriving DecidableEq, Repr, Inhabited

namespace Block

/-- The text of the lines of a comment. -/
def render (block : Block) : String := renderLines block.lines

/-- A tag by its number: from zero at the first tag on, and from minus one at the last tag back. -/
def tag? (block : Block) (index : Int) : Option Tag :=
  if 0 ≤ index then block.tags[index.toNat]?
  -- A negative number that goes back further than the first tag is no number of a tag.
  else if -(block.tags.length : Int) ≤ index then
    block.tags[(block.tags.length + index).toNat]?
  else none

end Block

/-- The replacement of a stretch of a file by a text. -/
structure TextEdit where
  path : String
  start : Position
  stop : Position
  replacement : String
  deriving DecidableEq, Repr, Inhabited

end DocLint
