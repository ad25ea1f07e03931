import DocLint.Redundancy
import DocLint.Proofs.Ambience

/-!
# Redundancy in Different Contexts

A tag may be redundant at one place and say something at another. Main statements:
`isAmbient_of_isTopLevelDeclaration`, by which the top of a file of declarations is an ambient context,
`redundancy?_eq_outsideAmbient_iff`, by which a tag is redundant there for its place only, and
`redundancy_depends_on_ambience`, by which nothing else about a place has a say.
-/

namespace DocLint

/-! ## The Top of a File of Declarations -/

/-- In a file of declarations the root makes ambient what is in it, so every node that is not plain
does. -/
theorem SyntaxNode.makesAmbient_of_not_isPlain {filename : Option String} {node : SyntaxNode}
    (hfile : isDeclarationFile filename = true) (h : ¬ node.IsPlain) : node.MakesAmbient filename := by
  cases hroot : node.isRoot with
  | true => exact Or.inr ⟨hroot, hfile⟩
  | false => exact Or.inl ⟨SyntaxNode.declare_of_not_isPlain hroot h, hroot⟩

/-- In a file of declarations any node that is not plain makes what is inside it ambient. -/
theorem isAmbientAmong_of_mem {filename : Option String} {nodes : List SyntaxNode} {node : SyntaxNode}
    (hfile : isDeclarationFile filename = true) (hmem : node ∈ nodes) (hnode : ¬ node.IsPlain) :
    isAmbientAmong filename nodes = true := by
  -- By induction on the nodes: the first that is not plain decides, and it need not be the given
  -- one.
  induction nodes with
  | nil => cases hmem
  | cons first outer ih =>
    by_cases hfirst : first.IsPlain
    · rw [isAmbientAmong_cons_of_isPlain hfirst]
      rcases List.mem_cons.mp hmem with rfl | houter
      · exact absurd hfirst hnode
      · exact ih houter
    · rw [isAmbientAmong_cons_of_not_isPlain hfirst]
      exact SyntaxNode.makesAmbient_of_not_isPlain hfile hfirst

/-- What stands at the top of a file of declarations is in an ambient context: its parent is the
root of the file, and the walk gets there unless it is ambient before. -/
theorem Ancestry.isAmbient_of_isTopLevelDeclaration {ancestry : Ancestry} {filename : Option String}
    (h : ancestry.isTopLevelDeclaration filename = true) : ancestry.isAmbient filename = true := by
  unfold isTopLevelDeclaration at h
  obtain ⟨hparent, hfile⟩ := Bool.and_eq_true_iff.mp h
  cases hancestor : ancestry.ancestor? 1 with
  | none =>
    rw [hancestor] at hparent
    cases hparent
  | some parent =>
    rw [hancestor, Option.any_some] at hparent
    -- On a closed ancestry the parent may be the node itself, but it is one of the nodes in any
    -- case.
    rw [isAmbient_eq]
    apply isAmbientAmong_of_mem hfile (mem_nodes_of_ancestor? hancestor)
    intro hplain
    rw [hplain.not_root] at hparent
    cases hparent

/-! ## Tags in Contexts -/

/-- Whether a comment stands in an ambient context. -/
def Context.isAmbient (context : Context) : Bool := context.ancestry.isAmbient context.filename

namespace Tag

/-- Whether a tag says nothing outside of ambient contexts. -/
def needsAmbience (tag : Tag) : Bool :=
  Vocabulary.redundantOutsideAmbientNames.contains tag.name &&
    !(tag.name == "default" || tag.path == some "default")

/-- Standing at the top of a file of declarations adds nothing to standing in an ambient context, so
the rule that asks for both asks for the latter only. -/
theorem isRedundantOutsideAmbient_eq (tag : Tag) (context : Context) :
    tag.isRedundantOutsideAmbient context = (tag.needsAmbience && !context.isAmbient) := by
  unfold isRedundantOutsideAmbient needsAmbience Context.isAmbient
  cases htop : context.ancestry.isTopLevelDeclaration context.filename with
  | false => simp
  | true => simp [Ancestry.isAmbient_of_isTopLevelDeclaration htop]

/-- A template tag may stand anywhere. -/
theorem name_ne_template_of_needsAmbience {tag : Tag} (h : tag.needsAmbience = true) :
    tag.name ≠ "template" := by
  intro hname
  unfold needsAmbience at h
  rw [hname] at h
  have hnames : Vocabulary.redundantOutsideAmbientNames.contains "template" = false := by decide
  rw [hnames] at h
  cases h

/-- All that the rules see of a context is whether it is ambient. -/
theorem redundancy?_congr (tag : Tag) {here there : Context} (h : here.isAmbient = there.isAmbient) :
    tag.redundancy? here = tag.redundancy? there := by
  unfold redundancy?
  rw [isRedundantOutsideAmbient_eq, isRedundantOutsideAmbient_eq, h]

/-- A tag is redundant for standing outside of ambient contexts exactly if it says nothing there, it
does stand there, and it is not redundant everywhere. -/
theorem redundancy?_eq_outsideAmbient_iff {tag : Tag} {context : Context} :
    tag.redundancy? context = some .outsideAmbient ↔
      Vocabulary.alwaysRedundantNames.contains tag.name = false ∧ tag.needsAmbience = true ∧
        context.isAmbient = false := by
  unfold redundancy?
  rw [isRedundantOutsideAmbient_eq]
  cases Vocabulary.alwaysRedundantNames.contains tag.name with
  | true => simp
  | false =>
    cases tag.needsAmbience with
    | true => cases context.isAmbient <;> simp
    | false => by_cases htemplate : tag.name = "template" ∧ tag.isUnnamed <;> simp [htemplate]

/-- Inside of an ambient context such a tag is not redundant at all: it is no template tag, so no
later rule applies to it either. -/
theorem redundancy?_of_needsAmbience {tag : Tag} {context : Context}
    (hname : Vocabulary.alwaysRedundantNames.contains tag.name = false) (hneeds : tag.needsAmbience = true)
    (hambient : context.isAmbient = true) : tag.redundancy? context = none := by
  have htemplate := name_ne_template_of_needsAmbience hneeds
  unfold redundancy?
  rw [isRedundantOutsideAmbient_eq, hname, hneeds, hambient]
  simp [htemplate]

/-- Any other tag is redundant by the same rule, if any, in every context. -/
theorem redundancy?_of_ne_outsideAmbient {tag : Tag} {outside inside : Context}
    (houtside : outside.isAmbient = false) (hinside : inside.isAmbient = true)
    (h : tag.redundancy? outside ≠ some .outsideAmbient) :
    tag.redundancy? inside = tag.redundancy? outside := by
  rw [Ne, redundancy?_eq_outsideAmbient_iff] at h
  unfold redundancy?
  rw [isRedundantOutsideAmbient_eq, isRedundantOutsideAmbient_eq, houtside, hinside]
  cases hname : Vocabulary.alwaysRedundantNames.contains tag.name with
  | true => rfl
  | false =>
    have hneeds : tag.needsAmbience = false := by
      by_contra hneeds
      exact h ⟨hname, by simpa using hneeds, houtside⟩
    rw [hneeds]
    rfl

end Tag

/-! ## Two Contexts -/

/-- **Tags see no more of a context than whether it is ambient.** Two contexts that are ambient
alike make a tag redundant alike, also if only one of them is the top of a file of declarations. An
ambient context makes a tag useful that is redundant for standing outside of one, and changes
nothing about any other tag. -/
theorem redundancy_depends_on_ambience (tag : Tag) :
    (∀ here there : Context, here.isAmbient = there.isAmbient →
      tag.redundancy? here = tag.redundancy? there) ∧
      ∀ outside inside : Context, outside.isAmbient = false → inside.isAmbient = true →
        (tag.redundancy? outside = some .outsideAmbient ∧ tag.redundancy? inside = none) ∨
          (tag.redundancy? outside ≠ some .outsideAmbient ∧
            tag.redundancy? inside = tag.redundancy? outside) := by
  refine ⟨fun here there => tag.redundancy?_congr, ?_⟩
  intro outside inside houtside hinside
  by_cases h : tag.redundancy? outside = some .outsideAmbient
  · obtain ⟨hname, hneeds, -⟩ := Tag.redundancy?_eq_outsideAmbient_iff.mp h
    exact Or.inl ⟨h, Tag.redundancy?_of_needsAmbience hname hneeds hinside⟩
  · exact Or.inr ⟨h, Tag.redundancy?_of_ne_outsideAmbient houtside hinside h⟩

/-- A declaration without a parent and a class at the top of a file of declarations are both
ambient, though only the class is at the top; a function on a closed ancestry is not. -/
theorem redundancy_depends_on_ambience_not_on_top :
    let tag : Tag := { name := "abstract" }
    let declared : Context :=
      { ancestry := Ancestry.ofNodes [{ type := "ClassDeclaration", declare := true }] none }
    let atTop : Context :=
      { ancestry := Ancestry.ofNodes [{ type := "ClassDeclaration" }, { type := "Program" }] none
        filename := some "lib.d.ts" }
    let closed : Context :=
      { ancestry := Ancestry.ofNodes [{ type := "FunctionDeclaration" }] (some 0)
        filename := some "lib.d.ts" }
    declared.isAmbient = true ∧ atTop.isAmbient = true ∧
      declared.ancestry.isTopLevelDeclaration declared.filename = false ∧
      atTop.ancestry.isTopLevelDeclaration atTop.filename = true ∧
      tag.redundancy? declared = tag.redundancy? atTop ∧ closed.isAmbient = false ∧
      tag.redundancy? closed = some .outsideAmbient ∧ tag.redundancy? atTop = none := by
  intro tag declared atTop closed
  have hdeclared : declared.isAmbient = true := by decide +kernel
  have hatTop : atTop.isAmbient = true := by decide +kernel
  have hclosed : closed.isAmbient = false := by decide +kernel
  have houtside : tag.redundancy? closed = some .outsideAmbient := by decide +kernel
  obtain ⟨hsame, hcross⟩ := redundancy_depends_on_ambience tag
  refine ⟨hdeclared, hatTop, by decide +kernel, by decide +kernel,
    hsame declared atTop (hdeclared.trans hatTop.symm), hclosed, houtside, ?_⟩
  rcases hcross closed atTop hclosed hatTop with ⟨-, hnone⟩ | ⟨hother, -⟩
  · exact hnone
  · exact absurd houtside hother

end DocLint
