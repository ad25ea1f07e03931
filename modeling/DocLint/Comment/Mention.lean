import DocLint.Text.Word

/-!
# Mentions of Tag Names

A tag name is mentioned where an at sign and the name stand and the name ends there: of the last character
of the mention and the character after it, exactly one is a word character. So `@arg` is not mentioned in
`@argument`. A name that ends in another character, as a name with a mark at its end does, is mentioned only
where a word character follows it. Main definition: `renameMention`, which renames the first mention.
-/

namespace DocLint

/-- A tag name as it stands in a comment. -/
def mentionOf (name : List Char) : List Char := '@' :: name

/-- Whether a word starts or ends between a character and what follows it; the end of a text counts
as no word character. -/
def isWordEdge (last : Char) (next : Option Char) : Bool := Text.isWord last != next.any Text.isWord

/-- Whether a tag name is mentioned at the start of a text. What stands before the at sign is of no
account, so a mention may also be found inside of a word. -/
def startsWithMention (name text : List Char) : Bool :=
  (mentionOf name).isPrefixOf text &&
    -- For the empty name the at sign is what the edge comes after.
    isWordEdge (name.getLastD '@') (text.drop (mentionOf name).length).head?

/-- Writes another name in the first mention of a name. Without a mention the text stays as it is,
and so do all mentions after the first. -/
def renameMention (name other : List Char) : List Char → List Char
  | [] => []
  | c :: rest =>
    if startsWithMention name (c :: rest) then
      mentionOf other ++ (c :: rest).drop (mentionOf name).length
    else c :: renameMention name other rest

/-- Writes another tag name in the first mention of a tag name in a text. The mention need not be
the tag: the description of a comment may mention a name before the tag of that name comes. -/
def replaceTagName (text name other : String) : String :=
  String.ofList (renameMention name.toList other.toList text.toList)

end DocLint
