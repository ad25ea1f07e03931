import DocLint.Comment.Mention
import DocLint.Comment.Removal

/-!
# Fixes

A fix gives a comment a new text as a whole. Renaming a tag works on the text at hand; the fixes that strip
or remove a tag bring the text that they lead to. So a rename can be applied again and again, while the other
two give the same text whatever they are applied to.
-/

namespace DocLint

/-- A change to the text of a comment. -/
inductive Fix where
  /-- Writes another name for a tag. -/
  | rename (name preferred : String)
  /-- Leaves a tag's description only. -/
  | strip (name : String) (text : String)
  /-- Leaves nothing of a tag. -/
  | remove (name : String) (text : String)
  deriving DecidableEq, Repr, Inhabited

namespace Fix

/-- What a host shows of a fix before it is applied. -/
def description : Fix → String
  | .rename name preferred => "Replace @" ++ name ++ " with @" ++ preferred
  | .strip name _ => "Strip @" ++ name ++ " and its type, keeping the description"
  | .remove name _ => "Remove @" ++ name

/-- The text that a fix makes of the text of a comment. -/
def apply : Fix → String → String
  | .rename name preferred, text => replaceTagName text name preferred
  | .strip _ text, _ => text
  | .remove _ text, _ => text

/-- The edit that replaces a comment in a file by what a fix makes of it. -/
def textEdit (fix : Fix) (path : String) (block : Block) : TextEdit :=
  ⟨path, block.span.start, block.span.stop, fix.apply block.source⟩

end Fix

/-- The fix for a tag that says nothing beside a type system: it is stripped if it has a
description, and else removed. There is none if there is no such tag. -/
def Block.redundancyFix? (block : Block) (index : Int) : Option Fix := do
  let tag ← block.tag? index
  -- A description is worth keeping, even where the tag before it says nothing.
  if Text.isBlankText tag.description then
    return .remove tag.name (← block.removeTag? index true)
  else
    return .strip tag.name (← block.stripTag? index true)

end DocLint
