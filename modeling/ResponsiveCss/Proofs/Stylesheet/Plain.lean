-- Plain stylesheets, whose texts are all plain, and what is left of a
-- stylesheet when places do not count.
import ResponsiveCss.Proofs.Text.Plain
import ResponsiveCss.Stylesheet.Basic

namespace ResponsiveCss

open Text

/-! ## Plain nodes -/

namespace Node

mutual

/-- All texts of the node and of the nodes in it are plain. -/
def Plain : Node → Prop
  | .statement name params _ => PlainName name ∧ PlainValue params
  | .block name params nodes _ => PlainName name ∧ PlainPrelude params ∧ AllPlain nodes
  | .rule selector nodes _ => selector ≠ "" ∧ PlainPrelude selector ∧ AllPlain nodes
  | .declaration d =>
    (d.property ≠ "" ∧ PlainValue d.property ∧ ':' ∉ d.property.toList) ∧ PlainValue d.value
  | .comment text _ => PlainComment text

/-- All texts of the nodes are plain. -/
def AllPlain : List Node → Prop
  | [] => True
  | n :: more => Plain n ∧ AllPlain more

end

mutual

/-- A node is plain or not. -/
def decPlain : (n : Node) → Decidable (Plain n)
  | .statement name params _ => inferInstanceAs (Decidable (PlainName name ∧ PlainValue params))
  | .block name params nodes _ =>
    have := decAllPlain nodes
    inferInstanceAs (Decidable (PlainName name ∧ PlainPrelude params ∧ AllPlain nodes))
  | .rule selector nodes _ =>
    have := decAllPlain nodes
    inferInstanceAs (Decidable (selector ≠ "" ∧ PlainPrelude selector ∧ AllPlain nodes))
  | .declaration d =>
    inferInstanceAs (Decidable
      ((d.property ≠ "" ∧ PlainValue d.property ∧ ':' ∉ d.property.toList) ∧ PlainValue d.value))
  | .comment text _ => inferInstanceAs (Decidable (PlainComment text))

/-- A list of nodes is plain or not. -/
def decAllPlain : (ns : List Node) → Decidable (AllPlain ns)
  | [] => isTrue trivial
  | n :: more =>
    have := decPlain n
    have := decAllPlain more
    inferInstanceAs (Decidable (Plain n ∧ AllPlain more))

end

instance (n : Node) : Decidable n.Plain := decPlain n

instance (ns : List Node) : Decidable (AllPlain ns) := decAllPlain ns

theorem allPlain_iff {ns : List Node} : AllPlain ns ↔ ∀ n ∈ ns, n.Plain := by
  induction ns with
  | nil => simp [AllPlain]
  | cons n more ih => simp [AllPlain, ih]

/-! ## Nodes without places -/

mutual

/-- The node as if it and the nodes in it had never been in a text. -/
def unplaced : Node → Node
  | .statement name params _ => .statement name params .nowhere
  | .block name params nodes _ => .block name params (allUnplaced nodes) .nowhere
  | .rule selector nodes _ => .rule selector (allUnplaced nodes) .nowhere
  | .declaration d => .declaration { d with source := .nowhere }
  | .comment text _ => .comment text .nowhere

/-- The nodes as if they had never been in a text. -/
def allUnplaced : List Node → List Node
  | [] => []
  | n :: more => unplaced n :: allUnplaced more

end

theorem allUnplaced_eq_map (ns : List Node) : allUnplaced ns = ns.map unplaced := by
  induction ns with
  | nil => rfl
  | cons n more ih => simp [allUnplaced, ih]

end Node

namespace Stylesheet

/-- All texts of the stylesheet are plain. -/
def Plain (s : Stylesheet) : Prop := Node.AllPlain s.nodes

instance (s : Stylesheet) : Decidable s.Plain := inferInstanceAs (Decidable (Node.AllPlain s.nodes))

/-- The stylesheet as if its nodes had never been in a text. -/
def unplaced (s : Stylesheet) : Stylesheet := ⟨Node.allUnplaced s.nodes⟩

end Stylesheet

end ResponsiveCss
