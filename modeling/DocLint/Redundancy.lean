import DocLint.Ancestry
import DocLint.Comment.Block
import DocLint.Vocabulary

/-!
# Tags That a Type System Makes Redundant

Beside a type system some tags never say anything, some only where types are merely declared, and a
template tag only if it names its parameters.
-/

namespace DocLint

/-- Why a tag is redundant. The rules are tried in this order, and the first that applies is the one
reported. -/
inductive RedundancyRule where
  /-- The type system says it better in every place. -/
  | always
  /-- The tag says something only in an ambient context, where there is no code. -/
  | outsideAmbient
  /-- A template that names no parameter says nothing. -/
  | unnamedTemplate
  deriving DecidableEq, Repr, Inhabited

namespace RedundancyRule

/-- All rules. -/
def all : List RedundancyRule := [.always, .outsideAmbient, .unnamedTemplate]

/-- The name of a rule. -/
def name : RedundancyRule → String
  | .always => "always"
  | .outsideAmbient => "outside_ambient"
  | .unnamedTemplate => "unnamed_template"

/-- What is said about a tag that is redundant by a rule. -/
def message (tagName : String) : RedundancyRule → String
  | .always => "'@" ++ tagName ++ "' is redundant when using a type system."
  | .outsideAmbient =>
    "'@" ++ tagName ++ "' is redundant outside of ambient (`declare`/`.d.ts`) contexts when " ++
      "using a type system."
  | .unnamedTemplate => "'@template' without a name is redundant when using a type system."

end RedundancyRule

/-- Where a comment stands: the node that it belongs to and the file. -/
structure Context where
  /-- Without a node a comment is in no ambient context, whatever the file. -/
  ancestry : Ancestry := Ancestry.none
  /-- A host may not know the file, or have none. -/
  filename : Option String := none

namespace Tag

/-- Whether a tag is redundant because it stands outside of ambient contexts. Default values say
something beside a type system. -/
def isRedundantOutsideAmbient (tag : Tag) (context : Context) : Bool :=
  Vocabulary.redundantOutsideAmbientNames.contains tag.name &&
    -- Either the tag is `@default`, or it is another tag that names the default.
    !(tag.name == "default" || tag.path == some "default") &&
    !context.ancestry.isTopLevelDeclaration context.filename &&
    !context.ancestry.isAmbient context.filename

/-- Whether a tag names nothing. An empty name is none. -/
def isUnnamed (tag : Tag) : Bool := tag.path.all (· == "")

/-- The rule by which a tag is redundant beside a type system, if any. A tag to which several rules
apply is reported by the first of them. -/
def redundancy? (tag : Tag) (context : Context) : Option RedundancyRule :=
  if Vocabulary.alwaysRedundantNames.contains tag.name then some .always
  else if tag.isRedundantOutsideAmbient context then some .outsideAmbient
  else if tag.name == "template" && tag.isUnnamed then some .unnamedTemplate
  else none

end Tag

end DocLint
