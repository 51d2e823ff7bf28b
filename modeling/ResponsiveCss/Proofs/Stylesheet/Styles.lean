-- The two styles of text say the same: compact and pretty output differ only in
-- the spaces and line breaks between their words. Both recursions print the
-- same words for every node, however deep it stands, because each of them sets
-- every block and every node of a block apart by a gap.
import ResponsiveCss.Proofs.Text.Squeezed
import ResponsiveCss.Stylesheet.Render

namespace ResponsiveCss

open Text

namespace Node

/-! ## Where the gaps stand -/

theorem isGap_of_head_compactBlock (nodes : List Node) (c : Char)
    (h : (compactBlock nodes).toList.head? = some c) : isGap c = true := by
  cases nodes with
  | nil =>
    cases h
    rfl
  | cons n more =>
    simp only [compactBlock, String.toList_append, List.append_assoc] at h
    cases h
    rfl

theorem isGap_of_head_compactMore (nodes : List Node) (c : Char)
    (h : (compactMore nodes).toList.head? = some c) : isGap c = true := by
  cases nodes with
  | nil => cases h
  | cons n more =>
    simp only [compactMore, String.toList_append, List.append_assoc] at h
    cases h
    rfl

theorem isGap_of_head_prettyBlock (depth : Nat) (nodes : List Node) (c : Char)
    (h : (prettyBlock depth nodes).toList.head? = some c) : isGap c = true := by
  cases nodes with
  | nil =>
    simp only [prettyBlock] at h
    cases h
    rfl
  | cons n more =>
    simp only [prettyBlock, String.toList_append, List.append_assoc] at h
    cases h
    rfl

theorem isGap_of_last_prettyLines (depth : Nat) (nodes : List Node) (c : Char)
    (h : (prettyLines depth nodes).toList.getLast? = some c) : isGap c = true := by
  induction nodes with
  | nil =>
    simp only [prettyLines] at h
    cases h
  | cons n more ih =>
    simp only [prettyLines, String.toList_append] at h
    rw [List.getLast?_append] at h
    cases hmore : (prettyLines depth more).toList.getLast? with
    | some d =>
      rw [hmore] at h
      exact ih (hmore.trans h)
    | none =>
      rw [hmore, List.getLast?_append] at h
      cases h
      rfl

theorem words_indent_append (depth : Nat) (s : List Char) :
    words ((indent depth).toList ++ s) = words s := by
  rw [indent, String.toList_ofList]
  induction 2 * depth with
  | zero => rfl
  | succ n ih => rw [List.replicate_succ, List.cons_append, words_cons_gap rfl, ih]

/-! ## Blocks and rows of nodes, word by word -/

theorem words_compactBlock_cons (n : Node) (more : List Node) :
    words (compactBlock (n :: more)).toList =
      ['{'] :: (words n.compact.toList ++ words (compactMore more).toList ++ [['}']]) := by
  have htext : (compactBlock (n :: more)).toList =
      [' ', '{'] ++ ' ' :: (n.compact.toList ++ (compactMore more).toList ++ ' ' :: ['}']) := by
    simp [compactBlock]
  rw [htext, words_append_gap rfl, words_append_gap rfl,
    words_append_of_head (isGap_of_head_compactMore more)]
  rfl

theorem words_compactMore_cons (n : Node) (more : List Node) :
    words (compactMore (n :: more)).toList =
      words n.compact.toList ++ words (compactMore more).toList := by
  have htext : (compactMore (n :: more)).toList =
      ' ' :: (n.compact.toList ++ (compactMore more).toList) := by
    simp [compactMore]
  rw [htext, words_cons_gap rfl, words_append_of_head (isGap_of_head_compactMore more)]

theorem words_prettyLines_cons (depth : Nat) (n : Node) (more : List Node) :
    words (prettyLines depth (n :: more)).toList =
      words (pretty depth n).toList ++ words (prettyLines depth more).toList := by
  have htext : (prettyLines depth (n :: more)).toList =
      (pretty depth n).toList ++ '\n' :: (prettyLines depth more).toList := by
    simp [prettyLines]
  rw [htext, words_append_gap rfl]

theorem words_prettyBlock_cons (depth : Nat) (n : Node) (more : List Node) :
    words (prettyBlock depth (n :: more)).toList =
      ['{'] :: (words (prettyLines (depth + 1) (n :: more)).toList ++ [['}']]) := by
  have htext : (prettyBlock depth (n :: more)).toList =
      [' ', '{'] ++ '\n' :: ((prettyLines (depth + 1) (n :: more)).toList ++
        ((indent depth).toList ++ ['}'])) := by
    simp [prettyBlock, prettyLines]
  rw [htext, words_append_gap rfl,
    words_append_of_last (isGap_of_last_prettyLines (depth + 1) (n :: more)),
    words_indent_append]
  rfl

/-- The block of a node has the same words, and a gap in front of it, in both styles. -/
theorem words_with_block {depth : Nat} {nodes : List Node}
    (h : words (prettyBlock depth nodes).toList = words (compactBlock nodes).toList)
    (head : List Char) :
    words ((indent depth).toList ++ (head ++ (prettyBlock depth nodes).toList)) =
      words (head ++ (compactBlock nodes).toList) := by
  rw [words_indent_append, words_append_of_head (isGap_of_head_prettyBlock depth nodes),
    words_append_of_head (isGap_of_head_compactBlock nodes), h]

/-! ## Both styles have the same words -/

mutual

theorem words_pretty (depth : Nat) (n : Node) :
    words (pretty depth n).toList = words n.compact.toList := by
  cases n with
  | statement name params => simp [pretty, compact, words_indent_append]
  | block name params nodes =>
    simp only [pretty, compact, String.toList_append, List.append_assoc]
    exact words_with_block (words_prettyBlock depth nodes) _
  | rule selector nodes =>
    simp only [pretty, compact, String.toList_append, List.append_assoc]
    exact words_with_block (words_prettyBlock depth nodes) _
  | declaration d => simp [pretty, compact, words_indent_append]
  | comment text => simp [pretty, compact, words_indent_append]

theorem words_prettyBlock (depth : Nat) (nodes : List Node) :
    words (prettyBlock depth nodes).toList = words (compactBlock nodes).toList := by
  cases nodes with
  | nil => simp only [prettyBlock, compactBlock]
  | cons n more =>
    rw [words_prettyBlock_cons, words_prettyLines_cons, words_compactBlock_cons,
      words_pretty (depth + 1) n, words_prettyLines (depth + 1) more]

theorem words_prettyLines (depth : Nat) (nodes : List Node) :
    words (prettyLines depth nodes).toList = words (compactMore nodes).toList := by
  cases nodes with
  | nil => simp only [prettyLines, compactMore]
  | cons n more =>
    rw [words_prettyLines_cons, words_compactMore_cons, words_pretty depth n,
      words_prettyLines depth more]

end

end Node

namespace Stylesheet

open Node

theorem words_compact (s : Stylesheet) :
    words s.compact.toList = words (compactMore s.nodes).toList := by
  unfold compact
  cases s.nodes with
  | nil => rfl
  | cons n more =>
    simp only [compactAll, String.toList_append]
    rw [words_compactMore_cons, words_append_of_head (isGap_of_head_compactMore more)]

/-! ## The law -/

/-- Every stylesheet can be written in both styles of text. With one space for every run of spaces
and line breaks, and none at the ends, the two texts are the same. -/
theorem both_styles_say_the_same [Minifier] (s : Stylesheet) :
    ∃ line lines, s.render .compact = .ok line ∧ s.render .pretty = .ok lines ∧
      squeezed line.toList = squeezed lines.toList := by
  refine ⟨s.compact, s.pretty, rfl, rfl, ?_⟩
  have hwords : words s.pretty.toList = words s.compact.toList := by
    rw [words_compact]
    exact words_prettyLines 0 s.nodes
  rw [squeezed_eq_joined, squeezed_eq_joined, joined, joined, hwords]

end Stylesheet

end ResponsiveCss
