-- Stylesheets as trees of nodes. All texts are kept as they were written, cut
-- of blanks at both ends; nothing inside a selector or a value is looked at.
import ResponsiveCss.Location

namespace ResponsiveCss

/-- A property with its value. -/
structure Declaration where
  property : String
  value : String
  important : Bool
  source : Location
deriving DecidableEq, Repr

/-- A node of a stylesheet. An at-rule is a statement, which ends with a semicolon, or has a
block of its own. -/
inductive Node where
  | statement (name params : String) (source : Location)
  | block (name params : String) (nodes : List Node) (source : Location)
  | rule (selector : String) (nodes : List Node) (source : Location)
  | declaration (d : Declaration)
  | comment (text : String) (source : Location)
deriving Repr, Inhabited

namespace Node

mutual

/-- Two nodes are the same or not. -/
def decEq : (a b : Node) → Decidable (a = b)
  | .statement n p l, .statement n' p' l' =>
    decidable_of_iff (n = n' ∧ p = p' ∧ l = l') (by simp)
  | .block n p ns l, .block n' p' ns' l' =>
    have := decEqList ns ns'
    decidable_of_iff (n = n' ∧ p = p' ∧ ns = ns' ∧ l = l') (by simp)
  | .rule s ns l, .rule s' ns' l' =>
    have := decEqList ns ns'
    decidable_of_iff (s = s' ∧ ns = ns' ∧ l = l') (by simp)
  | .declaration d, .declaration d' => decidable_of_iff (d = d') (by simp)
  | .comment t l, .comment t' l' => decidable_of_iff (t = t' ∧ l = l') (by simp)
  | .statement .., .block .. | .statement .., .rule .. | .statement .., .declaration _
  | .statement .., .comment .. | .block .., .statement .. | .block .., .rule ..
  | .block .., .declaration _ | .block .., .comment .. | .rule .., .statement ..
  | .rule .., .block .. | .rule .., .declaration _ | .rule .., .comment ..
  | .declaration _, .statement .. | .declaration _, .block .. | .declaration _, .rule ..
  | .declaration _, .comment .. | .comment .., .statement .. | .comment .., .block ..
  | .comment .., .rule .. | .comment .., .declaration _ => isFalse nofun

/-- Two lists of nodes are the same or not. -/
def decEqList : (as bs : List Node) → Decidable (as = bs)
  | [], [] => isTrue rfl
  | a :: as, b :: bs =>
    have := decEq a b
    have := decEqList as bs
    decidable_of_iff (a = b ∧ as = bs) (by simp)
  | [], _ :: _ | _ :: _, [] => isFalse nofun

end

instance : DecidableEq Node := decEq

end Node

/-- A stylesheet: its top-level nodes in order. -/
structure Stylesheet where
  nodes : List Node
deriving DecidableEq, Repr, Inhabited

/-! ## Style rules -/

/-- A style rule: a selector with the nodes of its block. -/
structure Rule where
  selector : String
  nodes : List Node
  source : Location
deriving DecidableEq, Repr

namespace Rule

/-- The rule as a node. -/
def toNode (r : Rule) : Node := .rule r.selector r.nodes r.source

/-- The same rule under another selector. -/
def withSelector (r : Rule) (selector : String) : Rule := { r with selector }

/-- The declarations that stand directly in the rule. -/
def declarations (r : Rule) : List Declaration :=
  r.nodes.filterMap fun
    | .declaration d => some d
    | _ => none

end Rule

/-! ## At-rules -/

/-- An at-rule; a statement has no nodes at all, not even an empty list of them. -/
structure AtRule where
  name : String
  params : String
  nodes : Option (List Node)
  source : Location
deriving DecidableEq, Repr

namespace Node

/-- The node as a style rule, if it is one. -/
def rule? : Node → Option Rule
  | .rule selector nodes source => some ⟨selector, nodes, source⟩
  | _ => none

/-- The node as an at-rule, if it is one. -/
def atRule? : Node → Option AtRule
  | .statement name params source => some ⟨name, params, none, source⟩
  | .block name params nodes source => some ⟨name, params, some nodes, source⟩
  | _ => none

/-- The node with more nodes at the end of its block. A statement gets a block for them if
there are any; what is no at-rule stays as it is. -/
def append (more : List Node) : Node → Node
  | .statement name params source =>
    if more.isEmpty then .statement name params source else .block name params more source
  | .block name params nodes source => .block name params (nodes ++ more) source
  | n => n

end Node

namespace AtRule

/-- The at-rule as a node. -/
def toNode (a : AtRule) : Node :=
  match a.nodes with
  | none => .statement a.name a.params a.source
  | some nodes => .block a.name a.params nodes a.source

/-- The style rules that stand directly in the at-rule's block. -/
def rules (a : AtRule) : List Rule := (a.nodes.getD []).filterMap Node.rule?

/-- The number of at-rules that stand directly in the at-rule's block. -/
def nestedCount (a : AtRule) : Nat := (a.nodes.getD []).countP fun n => n.atRule?.isSome

end AtRule

/-! ## The top level by position

A position counts the top-level nodes from 0 and holds good until a node is removed. -/

namespace Stylesheet

/-! ### Looking -/

/-- The at-rules with this name and their positions, in document order. -/
def atRules (s : Stylesheet) (name : String) : List (Nat × AtRule) :=
  s.nodes.zipIdx.filterMap fun place =>
    (place.1.atRule?.filter (·.name == name)).map fun a => (place.2, a)

/-- The positions of the at-rules with this name, in document order. -/
def positions (s : Stylesheet) (name : String) : List Nat := (s.atRules name).map Prod.fst

/-- The at-rule at a position, if there is one. -/
def atRuleAt? (s : Stylesheet) (i : Nat) : Option AtRule := s.nodes[i]?.bind Node.atRule?

/-- The parameters of the at-rule at a position; what is no at-rule has empty ones. -/
def paramsAt (s : Stylesheet) (i : Nat) : String := ((s.atRuleAt? i).map (·.params)).getD ""

/-- The place of the at-rule at a position. -/
def sourceAt (s : Stylesheet) (i : Nat) : Location :=
  ((s.atRuleAt? i).map (·.source)).getD .nowhere

/-- The style rules directly inside the at-rule at a position. -/
def rulesAt (s : Stylesheet) (i : Nat) : List Rule := ((s.atRuleAt? i).map (·.rules)).getD []

/-- The number of at-rules directly inside the at-rule at a position. -/
def nestedCountAt (s : Stylesheet) (i : Nat) : Nat :=
  ((s.atRuleAt? i).map (·.nestedCount)).getD 0

/-! ### Changing -/

/-- Style rules at the end of the block of the at-rule at a position. What is no at-rule
stays as it is. -/
def appendRules (s : Stylesheet) (i : Nat) (rules : List Rule) : Stylesheet :=
  ⟨s.nodes.modify i (Node.append (rules.map Rule.toNode))⟩

/-- A new at-rule with a block of style rules at the end of the stylesheet. -/
def appendAtRule (s : Stylesheet) (name params : String) (rules : List Rule) : Stylesheet :=
  ⟨s.nodes ++ [.block name params (rules.map Rule.toNode) .nowhere]⟩

/-- The nodes from position `i` on without the listed ones. The list is read along with the
nodes, so what lies behind position `i` is passed over. -/
def dropListed : Nat → List Nat → List Node → List Node
  | _, _, [] => []
  | i, listed, n :: nodes =>
    match listed.dropWhile (· < i) with
    | [] => n :: nodes
    | j :: more =>
      if j = i then dropListed (i + 1) more nodes else n :: dropListed (i + 1) (j :: more) nodes

/-- The stylesheet without the nodes at the listed positions, which ascend. -/
def remove (s : Stylesheet) (listed : List Nat) : Stylesheet := ⟨dropListed 0 listed s.nodes⟩

end Stylesheet

/-! ## Small laws -/

@[simp] theorem Rule.rule?_toNode (r : Rule) : r.toNode.rule? = some r := rfl

@[simp] theorem AtRule.atRule?_toNode (a : AtRule) : a.toNode.atRule? = some a := by
  obtain ⟨name, params, nodes, source⟩ := a
  cases nodes <;> rfl

end ResponsiveCss
