-- Texts that write nodes. Only the white space between nodes is free, and
-- both forms of printing are special cases.
import ResponsiveCss.Stylesheet.Render
import ResponsiveCss.Token.Parts

namespace ResponsiveCss

open Token

/-- A text of white space only. -/
def AllSpace (s : List Char) : Prop := ∀ c ∈ s, isSpace c = true

theorem AllSpace.append {a b : List Char} (ha : AllSpace a) (hb : AllSpace b) :
    AllSpace (a ++ b) := by
  intro c hc
  rcases List.mem_append.mp hc with hc | hc
  · exact ha c hc
  · exact hb c hc

theorem allSpace_nil : AllSpace [] := by simp [AllSpace]

theorem allSpace_space : AllSpace [' '] := by simp [AllSpace, isSpace]

theorem allSpace_newline : AllSpace ['\n'] := by simp [AllSpace, isSpace, isLineBreak]

namespace Node

theorem allSpace_indent (depth : Nat) : AllSpace (indent depth).toList := by
  intro c hc
  rw [indent, String.toList_ofList] at hc
  rw [List.eq_of_mem_replicate hc]
  rfl

/-! ## The texts of a node -/

/-- A block with `inner` between its braces. -/
def braced (inner : List Char) : List Char := ' ' :: '{' :: (inner ++ ['}'])

mutual

/-- The text writes the node. -/
def Written : Node → List Char → Prop
  | .statement name params _, s => s = (AtRule.heading name params).toList ++ [';']
  | .block name params nodes _, s =>
    ∃ inner, AllWritten nodes inner ∧ s = (AtRule.heading name params).toList ++ braced inner
  | .rule selector nodes _, s =>
    ∃ inner, AllWritten nodes inner ∧ s = selector.toList ++ braced inner
  | .declaration d, s => s = d.render.toList
  | .comment text _, s => s = (commentText text).toList

/-- The text writes the nodes with white space around each of them. -/
def AllWritten : List Node → List Char → Prop
  | [], s => AllSpace s
  | n :: more, s =>
    ∃ gap own text, AllSpace gap ∧ Written n own ∧ AllWritten more text ∧ s = gap ++ own ++ text

end

section

variable {n : Node} {ns : List Node} {s own gap : List Char}

theorem AllWritten.cons (hgap : AllSpace gap) (hown : Written n own) (hmore : AllWritten ns s) :
    AllWritten (n :: ns) (gap ++ own ++ s) := ⟨gap, own, s, hgap, hown, hmore, rfl⟩

theorem AllWritten.behind (hgap : AllSpace gap) (h : AllWritten ns s) :
    AllWritten ns (gap ++ s) := by
  cases ns with
  | nil => exact hgap.append h
  | cons n more =>
    obtain ⟨gap', own, text, hgap', hown, hmore, rfl⟩ := h
    exact ⟨gap ++ gap', own, text, hgap.append hgap', hown, hmore, by simp⟩

theorem AllWritten.before (h : AllWritten ns s) (hgap : AllSpace gap) :
    AllWritten ns (s ++ gap) := by
  induction ns generalizing s with
  | nil => exact AllSpace.append h hgap
  | cons n more ih =>
    obtain ⟨gap', own, text, hgap', hown, hmore, rfl⟩ := h
    exact ⟨gap', own, text ++ gap, hgap', hown, ih hmore, by simp⟩

end

/-! ## The two forms of printing -/

mutual

theorem written_compact (n : Node) : Written n n.compact.toList := by
  cases n with
  | statement name params => simp [Written, compact]
  | block name params nodes =>
    obtain ⟨inner, hinner, heq⟩ := braced_compactBlock nodes
    exact ⟨inner, hinner, by rw [compact, String.toList_append, heq]⟩
  | rule selector nodes =>
    obtain ⟨inner, hinner, heq⟩ := braced_compactBlock nodes
    exact ⟨inner, hinner, by rw [compact, String.toList_append, heq]⟩
  | declaration d => rfl
  | comment text => rfl

theorem braced_compactBlock (ns : List Node) :
    ∃ inner, AllWritten ns inner ∧ (compactBlock ns).toList = braced inner := by
  cases ns with
  | nil => exact ⟨[], allSpace_nil, rfl⟩
  | cons n more =>
    have hall := AllWritten.cons allSpace_space (written_compact n) (allWritten_compactMore more)
    refine ⟨_, hall.before allSpace_space, ?_⟩
    simp [compactBlock, braced]

theorem allWritten_compactMore (ns : List Node) : AllWritten ns (compactMore ns).toList := by
  cases ns with
  | nil => exact allSpace_nil
  | cons n more =>
    have hall := AllWritten.cons allSpace_space (written_compact n) (allWritten_compactMore more)
    simpa [compactMore] using hall

end

mutual

theorem written_pretty (depth : Nat) (n : Node) :
    ∃ own, Written n own ∧ (pretty depth n).toList = (indent depth).toList ++ own := by
  cases n with
  | statement name params => exact ⟨_, rfl, by simp [pretty]⟩
  | block name params nodes =>
    obtain ⟨inner, hinner, heq⟩ := braced_prettyBlock depth nodes
    exact ⟨_, ⟨inner, hinner, rfl⟩, by simp [pretty, heq]⟩
  | rule selector nodes =>
    obtain ⟨inner, hinner, heq⟩ := braced_prettyBlock depth nodes
    exact ⟨_, ⟨inner, hinner, rfl⟩, by simp [pretty, heq]⟩
  | declaration d => exact ⟨_, rfl, by simp [pretty]⟩
  | comment text => exact ⟨_, rfl, by simp [pretty]⟩

theorem braced_prettyBlock (depth : Nat) (ns : List Node) :
    ∃ inner, AllWritten ns inner ∧ (prettyBlock depth ns).toList = braced inner := by
  cases ns with
  | nil => exact ⟨[], allSpace_nil, by simp [prettyBlock, braced]⟩
  | cons n more =>
    have hall := allWritten_prettyLines (depth + 1) (n :: more)
    have hinner := (hall.behind allSpace_newline).before (allSpace_indent depth)
    exact ⟨_, hinner, by simp [prettyBlock, prettyLines, braced]⟩

theorem allWritten_prettyLines (depth : Nat) (ns : List Node) :
    AllWritten ns (prettyLines depth ns).toList := by
  cases ns with
  | nil => exact allSpace_nil
  | cons n more =>
    obtain ⟨own, hown, heq⟩ := written_pretty depth n
    have hmore := (allWritten_prettyLines depth more).behind allSpace_newline
    have hall := AllWritten.cons (allSpace_indent depth) hown hmore
    simpa [prettyLines, heq] using hall

end

end Node

namespace Stylesheet

open Node

theorem allWritten_compact (s : Stylesheet) : AllWritten s.nodes s.compact.toList := by
  obtain ⟨nodes⟩ := s
  cases nodes with
  | nil => exact allSpace_nil
  | cons n more =>
    have hall := AllWritten.cons allSpace_nil (written_compact n) (allWritten_compactMore more)
    simpa [Stylesheet.compact, compactAll] using hall

theorem allWritten_pretty (s : Stylesheet) : AllWritten s.nodes s.pretty.toList :=
  allWritten_prettyLines 0 s.nodes

end Stylesheet

end ResponsiveCss
