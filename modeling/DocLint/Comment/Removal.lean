import DocLint.Comment.Block
import DocLint.Text.Blank

/-!
# Comments without a Tag

A tag is taken out of a comment in one of two ways: its name and type are stripped and its description
stays, or its lines go. Lines that open or close the comment stay in either case, and lines of other tags
stay as they are. Both ways work on tokens and render the lines again, so that a line that is not the tag's
comes out as it was, blanks included.
-/

namespace DocLint

namespace Tokens

/-- Whether a line says anything. Blanks and delimiters say nothing. -/
def hasContent (t : Tokens) : Bool :=
  t.tag != "" || t.type != "" || t.name != "" || t.description != ""

/-- Takes the blanks out of a line that says nothing and does not close the comment. -/
def tidy (t : Tokens) : Tokens :=
  -- A closing line keeps its blanks, since one of them stands before the end of the comment.
  if t.hasContent || t.close != "" then t
  else { t with postDelimiter := "", postTag := "", postType := "", postName := "", lineEnd := "" }

/-- A line without its type and the blanks after it. Where there is no type these blanks stay, for
they may then stand between other tokens. -/
def withoutType (t : Tokens) : Tokens :=
  if t.type != "" then { t with type := "", postType := "" } else t

/-- A line without its tag and the blanks after it. -/
def withoutTag (t : Tokens) : Tokens :=
  if t.tag != "" then { t with tag := "", postTag := "" } else t

/-- A line without its type and, if asked, without its tag. What is left says nothing if the tag had
neither a name nor a description there, and then its blanks go too. -/
def stripped (t : Tokens) (dropName : Bool) : Tokens :=
  (if dropName then t.withoutType.withoutTag else t.withoutType).tidy

/-- Whether a line holds the start of the comment. -/
def opensComment (t : Tokens) : Bool := t.delimiter == "/**"

/-- What is left of a line without its content: what opens and what closes the comment, with a blank
between the two. -/
def frame (t : Tokens) : Tokens :=
  -- The delimiter of an inner line is dropped with its content; the indentation is not.
  { start := t.start
    delimiter := if t.opensComment then t.delimiter else ""
    postDelimiter := if t.opensComment && t.close != "" then " " else ""
    close := t.close }

/-- What stays of a line whose content goes: nothing unless it opens or closes the comment. -/
def frame? (t : Tokens) : Option Tokens :=
  if t.opensComment || t.close != "" then some t.frame else none

end Tokens

namespace Block

/-- The lines of a comment with the name and type of a tag taken out. There are as many lines as
before. -/
def linesWithoutType (block : Block) (tag : Tag) (dropName : Bool) : List Tokens :=
  block.lines.mapIdx fun index tokens =>
    if tag.covers index then tokens.stripped dropName else tokens

/-- The lines of a comment without those of a tag. Of these only the frames are left that open or
close the comment, which would not be a comment without them. -/
def linesWithoutTag (block : Block) (tag : Tag) : List Tokens :=
  block.lines.zipIdx.filterMap fun (tokens, index) =>
    if tag.covers index then tokens.frame? else some tokens

/-- Whether nothing is left of a comment without one of its tags. It is asked of the comment, not of
a tag: if it holds, there is only one tag that could be meant. -/
def isEmptyWithoutTag (block : Block) : Bool :=
  block.tags.length == 1 && Text.isBlankText block.description

/-- The text of a comment without the type of a tag and, if asked, without its name; nothing if
there is no such tag. -/
def stripTag? (block : Block) (index : Int) (dropName : Bool) : Option String :=
  (block.tag? index).map fun tag => renderLines (block.linesWithoutType tag dropName)

/-- The text of a comment without a tag, which is empty if asked and nothing else is in the comment;
nothing if there is no such tag. Whether the comment is to go is asked before the tag is looked
up. -/
def removeTag? (block : Block) (index : Int) (dropEmpty : Bool) : Option String :=
  -- So a comment with a single tag may vanish even if the number is that of no tag.
  if dropEmpty && block.isEmptyWithoutTag then some ""
  else (block.tag? index).map fun tag => renderLines (block.linesWithoutTag tag)

end Block

end DocLint
