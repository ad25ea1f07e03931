/-!
# Ancestries of Syntax Nodes

The node that a comment belongs to and its ancestors, from the inside out. A malformed tree may close back
on itself, so the last node of an ancestry may have one of the nodes as its parent. Main definitions: the
ancestor at a distance, which never ends on a closed ancestry, and the walk that tells whether a node is in
an ambient context, which keeps the nodes that it has seen.
-/

namespace DocLint

/-- A node of a syntax tree. -/
structure SyntaxNode where
  /-- What kind of node it is. -/
  type : String
  /-- Whether it is marked as a mere declaration. -/
  declare : Bool := false
  deriving DecidableEq, Repr, Inhabited

/-- The type of the node that stands for a whole file. -/
def rootType : String := "Program"

/-- Whether a node stands for a whole file. -/
def SyntaxNode.isRoot (node : SyntaxNode) : Bool := node.type == rootType

/-- A node with its ancestors, from the inside out, and the node that is the parent of the last one,
if it has a parent. No node at all is an ancestry too. -/
structure Ancestry where
  /-- The node itself comes first. Without it there is no node. -/
  nodes : List SyntaxNode
  /-- Where the ancestors run in a circle, the last one has an earlier one as its parent. Else it
  has none, being the root or cut off. -/
  parentOfLast : Option (Fin nodes.length)

namespace Ancestry

/-- The ancestry of a comment that belongs to no node. -/
def none : Ancestry := ⟨[], .none⟩

/-- The ancestry of nodes of which the last has the parent of a given number, if there is such a
node. -/
def ofNodes (nodes : List SyntaxNode) (parentOfLast : Option Nat) : Ancestry :=
  ⟨nodes, parentOfLast.bind fun number =>
    if h : number < nodes.length then some ⟨number, h⟩ else .none⟩

/-- The number of the parent of a node. Each node but the last has the next one as its parent. -/
def parentNumber? (ancestry : Ancestry) (number : Nat) : Option Nat :=
  if number + 1 < ancestry.nodes.length then some (number + 1)
  else if number + 1 = ancestry.nodes.length then ancestry.parentOfLast.map (·.val)
  else .none

/-- The number of the ancestor at a distance; the node itself is at distance zero. -/
def ancestorNumber? (ancestry : Ancestry) : Nat → Option Nat
  | 0 => if ancestry.nodes.isEmpty then .none else some 0
  | distance + 1 => (ancestry.ancestorNumber? distance).bind ancestry.parentNumber?

/-- The ancestor at a distance. On an ancestry that closes back on itself there is one at every
distance. -/
def ancestor? (ancestry : Ancestry) (distance : Nat) : Option SyntaxNode :=
  (ancestry.ancestorNumber? distance).bind fun number => ancestry.nodes[number]?

end Ancestry

/-- The endings of the names of files that hold declarations only. -/
def declarationFileEndings : List String := [".d.ts", ".d.mts", ".d.cts"]

/-- Whether a file holds declarations only; a file without a name does not. -/
def isDeclarationFile (filename : Option String) : Bool :=
  filename.any fun name => declarationFileEndings.any fun ending =>
    ending.toList.isSuffixOf name.toList

namespace Ancestry

/-- The numbers of the nodes that a walk has not seen. -/
def unseen (ancestry : Ancestry) (seen : List Nat) : List Nat :=
  (List.range ancestry.nodes.length).filter fun number => !seen.contains number

/-- A walk that sees another node has fewer left. -/
theorem length_unseen_cons_lt {ancestry : Ancestry} {seen : List Nat} {number : Nat}
    (hseen : number ∉ seen) (h : number < ancestry.nodes.length) :
    (ancestry.unseen (number :: seen)).length < (ancestry.unseen seen).length := by
  -- The new list is the old one without that number, and the number was in it.
  have hmem : number ∈ ancestry.unseen seen := by simpa [unseen, hseen] using h
  have hfilter : ancestry.unseen (number :: seen) =
      (ancestry.unseen seen).filter fun other => other != number := by
    unfold unseen
    rw [List.filter_filter]
    congr 1
    funext other
    rw [List.contains_cons, Bool.not_or, bne]
  rw [hfilter]
  exact List.length_filter_lt_length_iff_exists.mpr ⟨number, hmem, by simp⟩

/-- Walks outwards from the node of a number: a root decides by its file, and a node that is marked
as a declaration is ambient. The walk ends undecided where there is no further node and where it
comes back to a node that it has seen. Nodes are told apart by their numbers, not by what they
hold. -/
def isAmbientFrom (ancestry : Ancestry) (filename : Option String) (seen : List Nat) :
    Option Nat → Bool
  | .none => false
  | some number =>
    -- A node that comes up again was not decisive the first time, and will not be now.
    if number ∈ seen then false
    else if hnumber : number < ancestry.nodes.length then
      if ancestry.nodes[number].isRoot then isDeclarationFile filename
      else if ancestry.nodes[number].declare then true
      else ancestry.isAmbientFrom filename (number :: seen) (ancestry.parentNumber? number)
    else false
termination_by (ancestry.unseen seen).length
decreasing_by exact length_unseen_cons_lt ‹number ∉ seen› hnumber

/-- Whether a node is where only types are declared: inside of a declaration, or anywhere in a file
of declarations. A node whose ancestors never come to the root of a file is not, unless one of them
is marked as a declaration. -/
def isAmbient (ancestry : Ancestry) (filename : Option String) : Bool :=
  ancestry.isAmbientFrom filename [] (ancestry.ancestorNumber? 0)

/-- Whether a node stands at the top of a file of declarations: its parent is the root of such a
file. Unlike the walk, this looks no further than the parent. -/
def isTopLevelDeclaration (ancestry : Ancestry) (filename : Option String) : Bool :=
  (ancestry.ancestor? 1).any SyntaxNode.isRoot && isDeclarationFile filename

end Ancestry

end DocLint
