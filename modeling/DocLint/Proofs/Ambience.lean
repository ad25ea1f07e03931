import Mathlib.Data.List.Basic
import DocLint.Ancestry

/-!
# Ambient Contexts

The walk that tells whether a node is in an ambient context keeps the nodes that it has seen, while the
ancestors of a node on a closed ancestry never end. Main statements: `isAmbient_eq`, by which the walk looks at
every node once, `isAmbient_iff_exists_ancestor`, by which nothing is lost where it comes back to a node, and
`ambient_walk_sees_all_ancestors`.
-/

namespace DocLint

/-- Whether a node leaves it to its parent whether it is in an ambient context: it is neither the
root of a file nor declared. -/
structure SyntaxNode.IsPlain (node : SyntaxNode) : Prop where
  not_root : node.isRoot = false
  not_declare : node.declare = false

/-- Whether a node makes itself and what is inside it ambient in a file. -/
def SyntaxNode.MakesAmbient (filename : Option String) (node : SyntaxNode) : Prop :=
  (node.declare = true ∧ node.isRoot = false) ∨ (node.isRoot = true ∧ isDeclarationFile filename = true)

/-- A node that makes itself ambient has the last word, so the walk does not go past it. -/
theorem SyntaxNode.MakesAmbient.not_isPlain {filename : Option String} {node : SyntaxNode}
    (h : node.MakesAmbient filename) : ¬ node.IsPlain := by
  intro hplain
  rcases h with ⟨hdeclare, -⟩ | ⟨hroot, -⟩
  · rw [hplain.not_declare] at hdeclare
    cases hdeclare
  · rw [hplain.not_root] at hroot
    cases hroot

theorem SyntaxNode.declare_of_not_isPlain {node : SyntaxNode} (hroot : node.isRoot = false)
    (h : ¬ node.IsPlain) : node.declare = true := by
  by_contra hdeclare
  exact h ⟨hroot, by simpa using hdeclare⟩

/-! ## One Look at Every Node -/

/-- Looks at nodes from the inside out: the first that is not plain decides. This is the walk
without its memory, so nothing here can come back to a node. -/
def isAmbientAmong (filename : Option String) : List SyntaxNode → Bool
  | [] => false
  | node :: outer =>
    if node.isRoot then isDeclarationFile filename
    else if node.declare then true
    else isAmbientAmong filename outer

namespace Ancestry

variable {ancestry : Ancestry} {filename : Option String}

/-- A walk is over where there is no node that it has not seen. -/
theorem isAmbientFrom_of_seen {seen : List Nat} {current : Option Nat}
    (h : ∀ number, current = some number → number ∈ seen) :
    ancestry.isAmbientFrom filename seen current = false := by
  unfold isAmbientFrom
  cases current with
  | none => rfl
  | some number => exact if_pos (h number rfl)

/-- One step of a walk: the node where it stands decides, or the walk goes on to its parent. -/
theorem isAmbientFrom_of_not_seen {seen : List Nat} {number : Nat} {node : SyntaxNode}
    (hseen : number ∉ seen) (hnode : ancestry.nodes[number]? = some node) :
    ancestry.isAmbientFrom filename seen (some number) =
      if node.isRoot then isDeclarationFile filename
      else if node.declare then true
      else ancestry.isAmbientFrom filename (number :: seen) (ancestry.parentNumber? number) := by
  obtain ⟨hnumber, rfl⟩ := List.getElem?_eq_some_iff.mp hnode
  rw [isAmbientFrom, if_neg hseen, dif_pos hnumber]

theorem parentNumber?_of_lt {number : Nat} (h : number + 1 < ancestry.nodes.length) :
    ancestry.parentNumber? number = some (number + 1) := if_pos h

theorem lt_of_parentNumber?_last {number parent : Nat} (hlast : number + 1 = ancestry.nodes.length)
    (h : ancestry.parentNumber? number = some parent) : parent < number + 1 := by
  rw [parentNumber?, if_neg (by omega), if_pos hlast, Option.map_eq_some_iff] at h
  obtain ⟨last, -, rfl⟩ := h
  omega

/-- A walk that has seen just the nodes in front looks at the others in their order. Behind the last
of them it is over, since a parent of that one is a node that it has seen. -/
theorem isAmbientFrom_eq {front rest : List SyntaxNode} {seen : List Nat} {current : Option Nat}
    (hnodes : ancestry.nodes = front ++ rest)
    (hseen : ∀ number, number ∈ seen ↔ number < front.length)
    (hcurrent : rest ≠ [] → current = some front.length)
    (hclosed : rest = [] → ∀ number, current = some number → number < front.length) :
    ancestry.isAmbientFrom filename seen current = isAmbientAmong filename rest := by
  -- By induction on the nodes that are left; the front takes in one of them at each step.
  induction rest generalizing front seen current with
  | nil =>
    apply isAmbientFrom_of_seen
    intro number hnumber
    exact (hseen number).mpr (hclosed rfl number hnumber)
  | cons node outer ih =>
    have hnew : front.length ∉ seen := fun hmem => Nat.lt_irrefl _ ((hseen front.length).mp hmem)
    have hnode : ancestry.nodes[front.length]? = some node := by
      rw [hnodes, List.getElem?_append_right (Nat.le_refl _), Nat.sub_self, List.getElem?_cons_zero]
    have hlength : ancestry.nodes.length = front.length + 1 + outer.length := by
      rw [hnodes, List.length_append, List.length_cons]
      omega
    have hfront : (front ++ [node]).length = front.length + 1 := by
      rw [List.length_append, List.length_singleton]
    rw [hcurrent (List.cons_ne_nil _ _), isAmbientFrom_of_not_seen hnew hnode, isAmbientAmong]
    -- Both sides ask the node alike; they are left to agree about the nodes further out.
    congr 2
    apply @ih (front ++ [node])
    · rw [hnodes, List.append_assoc, List.singleton_append]
    · intro number
      rw [List.mem_cons, hseen, hfront]
      omega
    · -- There is a node further out, and the parent is the next number.
      intro houter
      have hpos := List.length_pos_iff.mpr houter
      rw [hfront, parentNumber?_of_lt (by omega)]
    · -- That was the last node, so the ancestry ends here or closes on a node in front.
      intro houter parent hparent
      rw [houter, List.length_nil] at hlength
      rw [hfront]
      exact lt_of_parentNumber?_last hlength.symm hparent

/-- The walk looks at the nodes of an ancestry from the inside out, whether it closes or not. -/
theorem isAmbient_eq : ancestry.isAmbient filename = isAmbientAmong filename ancestry.nodes := by
  unfold isAmbient ancestorNumber?
  -- The walk starts with nothing in front of it and nothing seen.
  apply @isAmbientFrom_eq _ _ []
  · rfl
  · simp
  · intro hne
    rw [if_neg (by simpa using hne), List.length_nil]
  · intro hempty number hnumber
    rw [if_pos (by simpa using hempty)] at hnumber
    cases hnumber

/-! ## The Ancestors of a Node -/

/-- As far as the nodes go, the ancestors are the nodes, each for itself, whatever they hold. -/
theorem ancestorNumber?_of_lt {distance : Nat} (h : distance < ancestry.nodes.length) :
    ancestry.ancestorNumber? distance = some distance := by
  induction distance with
  | zero =>
    have hne : ancestry.nodes ≠ [] := List.ne_nil_of_length_pos h
    exact if_neg (by simpa using hne)
  | succ distance ih =>
    rw [ancestorNumber?, ih (by omega), Option.bind_some, parentNumber?_of_lt h]

/-- The first round over an ancestry meets each node once, at its own distance. -/
theorem ancestor?_of_lt {distance : Nat} (h : distance < ancestry.nodes.length) :
    ancestry.ancestor? distance = ancestry.nodes[distance]? := by
  rw [ancestor?, ancestorNumber?_of_lt h, Option.bind_some]

theorem mem_nodes_of_ancestor? {distance : Nat} {node : SyntaxNode}
    (h : ancestry.ancestor? distance = some node) : node ∈ ancestry.nodes := by
  obtain ⟨number, -, hnode⟩ := Option.bind_eq_some_iff.mp h
  exact List.mem_of_getElem? hnode

end Ancestry

/-! ## The First Ancestor That Decides -/

theorem isAmbientAmong_cons_of_isPlain {filename : Option String} {node : SyntaxNode} (h : node.IsPlain)
    (outer : List SyntaxNode) :
    isAmbientAmong filename (node :: outer) = isAmbientAmong filename outer := by
  simp only [isAmbientAmong, h.not_root, h.not_declare, Bool.false_eq_true, if_false]

/-- A node that is not plain decides for all nodes further out. -/
theorem isAmbientAmong_cons_of_not_isPlain {filename : Option String} {node : SyntaxNode}
    (h : ¬ node.IsPlain) (outer : List SyntaxNode) :
    isAmbientAmong filename (node :: outer) = true ↔ node.MakesAmbient filename := by
  unfold SyntaxNode.MakesAmbient
  cases hroot : node.isRoot with
  | true => simp [isAmbientAmong, hroot]
  | false =>
    have hdeclare := SyntaxNode.declare_of_not_isPlain hroot h
    simp [isAmbientAmong, hroot, hdeclare]

/-- Of nodes the first that is not plain makes the innermost ambient, or nothing does. -/
theorem isAmbientAmong_iff {filename : Option String} {nodes : List SyntaxNode} :
    isAmbientAmong filename nodes = true ↔
      ∃ distance : Nat, (∀ closer < distance, ∀ node, nodes[closer]? = some node → node.IsPlain) ∧
        ∃ node, nodes[distance]? = some node ∧ node.MakesAmbient filename := by
  induction nodes with
  | nil => simp [isAmbientAmong]
  | cons first outer ih =>
    by_cases hplain : first.IsPlain
    · -- The node that decides is further out, so its distance is one more than the hypothesis says.
      rw [isAmbientAmong_cons_of_isPlain hplain, ih]
      constructor
      · rintro ⟨distance, hcloser, hnode⟩
        refine ⟨distance + 1, ?_, hnode⟩
        intro closer hlt node hget
        cases closer with
        | zero => exact Option.some.inj hget ▸ hplain
        | succ closer => exact hcloser closer (by omega) node hget
      · rintro ⟨distance, hcloser, node, hget, hmakes⟩
        cases distance with
        | zero => exact absurd (Option.some.inj hget ▸ hplain) hmakes.not_isPlain
        | succ distance =>
          refine ⟨distance, ?_, node, hget, hmakes⟩
          intro closer hlt other hother
          exact hcloser (closer + 1) (by omega) other hother
    · -- The first node decides, and no other distance leaves it plain.
      rw [isAmbientAmong_cons_of_not_isPlain hplain]
      constructor
      · intro hmakes
        exact ⟨0, fun closer hlt => absurd hlt (Nat.not_lt_zero closer), first, rfl, hmakes⟩
      · rintro ⟨distance, hcloser, node, hget, hmakes⟩
        cases distance with
        | zero => exact Option.some.inj hget ▸ hmakes
        | succ distance => exact absurd (hcloser 0 (by omega) first rfl) hplain

namespace Ancestry

/-- Whether the ancestor at a distance makes a node ambient, and all closer ones leave that to their
parents. -/
structure IsAmbientBy (ancestry : Ancestry) (filename : Option String) (distance : Nat) : Prop where
  /-- On the way to the ancestor no node decides, neither for nor against. -/
  closer_isPlain : ∀ closer < distance, ∀ node, ancestry.ancestor? closer = some node → node.IsPlain
  makesAmbient : ∃ node, ancestry.ancestor? distance = some node ∧ node.MakesAmbient filename

/-- A node is in an ambient context exactly if an ancestor makes it so, however often the ancestors
repeat: the first round over the nodes holds the first ancestor that decides. -/
theorem isAmbient_iff_exists_ancestor {ancestry : Ancestry} {filename : Option String} :
    ancestry.isAmbient filename = true ↔ ∃ distance, ancestry.IsAmbientBy filename distance := by
  rw [isAmbient_eq, isAmbientAmong_iff]
  constructor
  · -- The nodes are their own ancestors as far as they go.
    rintro ⟨distance, hcloser, node, hnode, hmakes⟩
    obtain ⟨hlength, -⟩ := List.getElem?_eq_some_iff.mp hnode
    refine ⟨distance, ?_, node, ?_, hmakes⟩
    · intro closer hlt other hother
      rw [ancestor?_of_lt (Nat.lt_trans hlt hlength)] at hother
      exact hcloser closer hlt other hother
    · rw [ancestor?_of_lt hlength, hnode]
  · -- The ancestor that decides is met in the first round, whatever its distance is said to be.
    rintro ⟨distance, hcloser, node, hnode, hmakes⟩
    have hlength : distance < ancestry.nodes.length := by
      by_contra hfar
      -- All nodes are closer then, and none of them would be left to decide.
      obtain ⟨number, hnumber⟩ := List.mem_iff_getElem?.mp (mem_nodes_of_ancestor? hnode)
      obtain ⟨hlt, -⟩ := List.getElem?_eq_some_iff.mp hnumber
      rw [← ancestor?_of_lt hlt] at hnumber
      exact hmakes.not_isPlain (hcloser number (by omega) node hnumber)
    refine ⟨distance, ?_, node, ?_, hmakes⟩
    · intro closer hlt other hother
      rw [← ancestor?_of_lt (Nat.lt_trans hlt hlength)] at hother
      exact hcloser closer hlt other hother
    · rw [← ancestor?_of_lt hlength, hnode]

end Ancestry

/-- Plain nodes in front change nothing, however many they are and however alike they look. -/
theorem isAmbientAmong_replicate {filename : Option String} {plain : SyntaxNode} (h : plain.IsPlain)
    (count : Nat) (outer : List SyntaxNode) :
    isAmbientAmong filename (List.replicate count plain ++ outer) = isAmbientAmong filename outer := by
  induction count with
  | zero => rfl
  | succ count ih => rw [List.replicate_succ, List.cons_append, isAmbientAmong_cons_of_isPlain h, ih]

/-- **The walk sees what the ancestors hold**: a node is in an ambient context exactly if one of its
ancestors, of which there is no last one on a closed ancestry, makes it so and all closer ones are
plain. Nodes are ancestors each for itself, so a run of nodes that look alike does not end the walk,
whether the ancestry closes or not. -/
theorem ambient_walk_sees_all_ancestors (ancestry : Ancestry) (filename : Option String) :
    (ancestry.isAmbient filename = true ↔ ∃ distance, ancestry.IsAmbientBy filename distance) ∧
      (∀ distance < ancestry.nodes.length, ancestry.ancestor? distance = ancestry.nodes[distance]?) ∧
      ∀ (plain : SyntaxNode) (count : Nat) (outer : List SyntaxNode) (parent otherParent : Option Nat),
        plain.IsPlain →
          (Ancestry.ofNodes (List.replicate count plain ++ outer) parent).isAmbient filename =
            (Ancestry.ofNodes outer otherParent).isAmbient filename := by
  refine ⟨Ancestry.isAmbient_iff_exists_ancestor, fun _ => Ancestry.ancestor?_of_lt, ?_⟩
  intro plain count outer parent otherParent hplain
  rw [Ancestry.isAmbient_eq, Ancestry.isAmbient_eq]
  exact isAmbientAmong_replicate hplain count outer

/-- A declaration stands behind a thousand blocks that look alike, the fourth of which is its
parent. -/
theorem ambient_walk_sees_all_ancestors_alike :
    let block : SyntaxNode := { type := "BlockStatement" }
    let nodes := List.replicate 1000 block ++ [{ type := "TSModuleDeclaration", declare := true }]
    block.IsPlain ∧ (Ancestry.ofNodes nodes (some 3)).isAmbient none = true := by
  intro block nodes
  have hplain : block.IsPlain := ⟨by decide, rfl⟩
  refine ⟨hplain, ?_⟩
  have hsame := (ambient_walk_sees_all_ancestors Ancestry.none none).2.2 block 1000
    [{ type := "TSModuleDeclaration", declare := true }] (some 3) none hplain
  exact hsame.trans (by decide +kernel)

end DocLint
