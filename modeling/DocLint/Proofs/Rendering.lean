import DocLint.Comment.Block

/-!
# Rendered Lines

The text of a comment around one of its lines, and of a line around its tag. Main statement:
`renderLines_set_tag`, by which another tag in the place of one changes the text in that place only.
-/

namespace DocLint

/-! ## Around a Line -/

/-- The text before a line, with the line feed that ends it. -/
def textBefore : List String → Nat → String
  | line :: rest, index + 1 => line ++ "\n" ++ textBefore rest index
  | _, _ => ""

/-- The text after a line, with the line feed that starts it. -/
def textAfter : List String → Nat → String
  | [], _ => ""
  | _ :: rest, 0 => if rest.isEmpty then "" else "\n" ++ joinLines rest
  | _ :: rest, index + 1 => textAfter rest index

theorem joinLines_cons_of_ne_nil (line : String) {rest : List String} (h : rest ≠ []) :
    joinLines (line :: rest) = line ++ "\n" ++ joinLines rest := by
  cases rest with
  | nil => exact absurd rfl h
  | cons next rest => rfl

/-- The text of lines is the text before a line, the line and the text after it, whatever stands in
the line. -/
theorem joinLines_set {lines : List String} {index : Nat} (h : index < lines.length) (line : String) :
    joinLines (lines.set index line) = textBefore lines index ++ line ++ textAfter lines index := by
  -- By induction on the lines in front of the one that is set.
  induction lines generalizing index with
  | nil => simp at h
  | cons first rest ih =>
    cases index with
    | zero =>
      cases rest with
      | nil => simp [joinLines, textBefore, textAfter]
      | cons next rest => simp [joinLines, textBefore, textAfter, String.append_assoc]
    | succ index =>
      have hrest : index < rest.length := by simpa using h
      -- A line remains behind this one, so a line feed stands between.
      have hne : rest.set index line ≠ [] := by
        intro heq
        rw [List.set_eq_nil_iff] at heq
        simp [heq] at hrest
      rw [List.set_cons_succ, joinLines_cons_of_ne_nil first hne, ih hrest]
      simp only [textBefore, textAfter, String.append_assoc]

/-- The text after a line is empty or starts with a line feed. -/
theorem textAfter_head? (lines : List String) (index : Nat) :
    ∀ c, (textAfter lines index).toList.head? = some c → c = '\n' := by
  induction lines generalizing index with
  | nil => simp [textAfter]
  | cons first rest ih =>
    cases index with
    | zero =>
      intro c h
      by_cases hrest : rest.isEmpty = true
      · simp [textAfter, hrest] at h
      · simp only [textAfter, if_neg hrest, String.toList_append] at h
        exact (Option.some.inj h).symm
    | succ index => exact ih index

/-! ## Around a Tag -/

/-- The text of a line before its tag. -/
def Tokens.beforeTag (t : Tokens) : String := t.start ++ t.delimiter ++ t.postDelimiter

/-- The text of a line after its tag. -/
def Tokens.afterTag (t : Tokens) : String :=
  t.postTag ++ t.type ++ t.postType ++ t.name ++ t.postName ++ t.description ++ t.lineEnd ++ t.close

theorem Tokens.render_eq (t : Tokens) : t.render = t.beforeTag ++ t.tag ++ t.afterTag := by
  simp [render, toList, beforeTag, afterTag, String.append_assoc]

namespace Block

/-- The text of a comment before the tag of a line. -/
def textBeforeTag (block : Block) (index : Nat) (tokens : Tokens) : String :=
  textBefore (block.lines.map Tokens.render) index ++ tokens.beforeTag

/-- The text of a comment after the tag of a line. -/
def textAfterTag (block : Block) (index : Nat) (tokens : Tokens) : String :=
  tokens.afterTag ++ textAfter (block.lines.map Tokens.render) index

/-- The text of a comment is the tag of a line between what stands before it and after it, whatever
the tag is. -/
theorem renderLines_set_tag {block : Block} {index : Nat} {tokens : Tokens}
    (h : block.lines[index]? = some tokens) (tag : String) :
    renderLines (block.lines.set index { tokens with tag }) =
      block.textBeforeTag index tokens ++ tag ++ block.textAfterTag index tokens := by
  obtain ⟨hindex, -⟩ := List.getElem?_eq_some_iff.mp h
  have hmap : index < (block.lines.map Tokens.render).length := by simpa using hindex
  unfold renderLines textBeforeTag textAfterTag
  rw [List.map_set, joinLines_set hmap, Tokens.render_eq]
  simp only [Tokens.beforeTag, Tokens.afterTag, String.append_assoc]

/-- So is the text of a comment, with the tag that stands there. -/
theorem render_eq_around_tag {block : Block} {index : Nat} {tokens : Tokens}
    (h : block.lines[index]? = some tokens) :
    block.render =
      block.textBeforeTag index tokens ++ tokens.tag ++ block.textAfterTag index tokens := by
  obtain ⟨hindex, htokens⟩ := List.getElem?_eq_some_iff.mp h
  rw [← renderLines_set_tag h tokens.tag]
  have hset : block.lines.set index tokens = block.lines := by
    rw [← htokens, List.set_getElem_self]
  exact congrArg renderLines hset.symm

/-- Different tags in the place of one give different texts. -/
theorem renderLines_set_tag_injective {block : Block} {index : Nat} {tokens : Tokens}
    (h : block.lines[index]? = some tokens) {first second : String}
    (heq : renderLines (block.lines.set index { tokens with tag := first }) =
      renderLines (block.lines.set index { tokens with tag := second })) : first = second := by
  rw [renderLines_set_tag h, renderLines_set_tag h, ← String.toList_inj] at heq
  simp only [String.toList_append] at heq
  rw [← String.toList_inj]
  exact List.append_cancel_left (List.append_cancel_right heq)

/-- After the tag of a line comes the rest of the line, and after that a line feed or nothing. -/
theorem textAfterTag_head? {block : Block} {index : Nat} {tokens : Tokens} {c : Char}
    (h : (block.textAfterTag index tokens).toList.head? = some c) :
    tokens.afterTag.toList.head? = some c ∨ c = '\n' := by
  unfold textAfterTag at h
  rw [String.toList_append, List.head?_append] at h
  cases hline : tokens.afterTag.toList.head? with
  | some first =>
    rw [hline] at h
    exact Or.inl h
  | none =>
    rw [hline] at h
    exact Or.inr (textAfter_head? _ index c h)

end Block

end DocLint
