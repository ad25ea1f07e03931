import DocLint.Dict

/-!
# The Built-In Tag Names

Which tag names are known depends on the mode, that is, on the tool that a code base writes its
documentation for. Every mode has the general tags; some have further ones. A tag may have synonyms, which
are known too and lead to its own name. Further sets hold the tags of the JSX pragmas and the tags that a
type system makes redundant.
-/

namespace DocLint

/-- The tool that documentation is written for. -/
inductive Mode where
  | jsdoc
  | typescript
  | closure
  | permissive
  deriving DecidableEq, Repr, Inhabited

namespace Vocabulary

/-- The tags known in every mode, each with its synonyms. -/
def generalTags : Dict (List String) := [
  ("abstract", ["virtual"]), ("access", []), ("alias", []), ("async", []), ("augments", ["extends"]),
  ("author", []), ("borrows", []), ("callback", []), ("class", ["constructor"]), ("classdesc", []),
  ("constant", ["const"]), ("constructs", []), ("copyright", []), ("default", ["defaultvalue"]),
  ("deprecated", []), ("description", ["desc"]), ("enum", []), ("event", []), ("example", []),
  ("exports", []), ("external", ["host"]), ("file", ["fileoverview", "overview"]),
  ("fires", ["emits"]), ("function", ["func", "method"]), ("generator", []), ("global", []),
  ("hideconstructor", []), ("ignore", []), ("implements", []), ("inheritdoc", []), ("inheritDoc", []),
  ("inner", []), ("instance", []), ("interface", []), ("kind", []), ("lends", []), ("license", []),
  ("listens", []), ("member", ["var"]), ("memberof", []), ("memberof!", []), ("mixes", []),
  ("mixin", []), ("module", []), ("name", []), ("namespace", []), ("override", []), ("package", []),
  ("param", ["arg", "argument"]), ("private", []), ("property", ["prop"]), ("protected", []),
  ("public", []), ("readonly", []), ("requires", []), ("returns", ["return"]), ("see", []),
  ("since", []), ("static", []), ("summary", []), ("this", []), ("throws", ["exception"]),
  ("todo", []), ("tutorial", []), ("type", []), ("typedef", []), ("variation", []), ("version", []),
  ("yields", ["yield"])]

/-- The tags of typed documentation only. -/
def typeScriptTags : Dict (List String) := [
  ("import", []), ("internal", []), ("overload", []), ("satisfies", []), ("template", [])]

/-- The tags of annotations for the closure compiler only. -/
def closureTags : Dict (List String) := [
  ("define", []), ("dict", []), ("export", []), ("externs", []), ("final", []), ("implicitCast", []),
  ("modifies", []), ("noalias", []), ("nocollapse", []), ("nocompile", []), ("noinline", []),
  ("nosideeffects", []), ("polymer", []), ("polymerBehavior", []), ("preserve", []), ("record", []),
  ("struct", []), ("suppress", []), ("template", []), ("unrestricted", [])]

/-- The tags that steer the compilation of JSX. -/
def jsxNames : List String := [
  "jsx", "jsxFrag", "jsxImportSource", "jsxRuntime"]

/-- The tags that say nothing beside a type system. -/
def alwaysRedundantNames : List String := [
  "augments", "callback", "class", "enum", "implements", "private", "property", "protected", "public",
  "readonly", "this", "type", "typedef"]

/-- The tags that say nothing beside a type system, except where only types are declared. -/
def redundantOutsideAmbientNames : List String := [
  "abstract", "access", "class", "constant", "constructs", "default", "enum", "export", "exports",
  "function", "global", "inherits", "instance", "interface", "member", "memberOf", "memberof",
  "method", "mixes", "mixin", "module", "name", "namespace", "override", "property", "requires",
  "static", "this"]

end Vocabulary

namespace Mode

/-- All modes, in the order in which they are listed to a host. -/
def all : List Mode := [.jsdoc, .typescript, .closure, .permissive]

/-- The mode of settings that give none. -/
def standard : Mode := .typescript

/-- The name of a mode. -/
def name : Mode → String
  | .jsdoc => "jsdoc"
  | .typescript => "typescript"
  | .closure => "closure"
  | .permissive => "permissive"

/-- The mode of a name. Case counts. -/
def ofName? (name : String) : Option Mode := all.find? fun mode => mode.name = name

/-- The tags known in a mode, each with its synonyms. -/
def tags : Mode → Dict (List String)
  | .jsdoc => Vocabulary.generalTags
  | .typescript => Vocabulary.generalTags ++ Vocabulary.typeScriptTags
  | .closure => Vocabulary.generalTags ++ Vocabulary.closureTags
  | .permissive => Vocabulary.generalTags ++ Vocabulary.typeScriptTags ++ Vocabulary.closureTags

/-- All names known in a mode, synonyms included, each once. -/
def names (mode : Mode) : List String :=
  (mode.tags.flatMap fun (name, synonyms) => name :: synonyms).eraseDups

/-- The synonyms of a mode, each with the name that it stands for. -/
def synonyms (mode : Mode) : Dict String :=
  mode.tags.flatMap fun (name, synonyms) => synonyms.map fun synonym => (synonym, name)

end Mode

end DocLint
