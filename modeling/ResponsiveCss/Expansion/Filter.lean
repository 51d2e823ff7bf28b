-- The parameters of a responsive block and the renaming of selectors. The
-- parameters list class names; only rules that contain one of them take part,
-- and only these class names are renamed in them.
import ResponsiveCss.Text.Basic

namespace ResponsiveCss.Expansion

open Text

/-! ## The parameters -/

/-- The class names that trimmed parameters list, between commas and in one optional pair of
parentheses. Empty parameters list nothing, and every rule takes part. -/
def fragments? (params : List Char) : Option (List (List Char)) :=
  if params = [] then none
  else
    let inner := (['('].isPrefixOf? params).getD params
    let inner := ([')'].isSuffixOf? inner).getD inner
    some ((inner.splitOn ',').map trim)

/-- The text begins like a class name. -/
def isClass (s : List Char) : Bool := ['.'].isPrefixOf s

/-! ## Renaming -/

/-- The length of the longest fragment that the text begins with; 0 if there is none. -/
def matchLength (fragments : List (List Char)) (s : List Char) : Nat :=
  (fragments.filter (·.isPrefixOf s)).foldl (fun n f => max n f.length) 0

/-- The text with `-name` behind every fragment in it, after the first `skip` characters,
which are done. -/
def suffixAfter (fragments : List (List Char)) (name : List Char) : Nat → List Char → List Char
  | _, [] => []
  | skip + 1, _ :: s => suffixAfter fragments name skip s
  | 0, c :: s =>
    match matchLength fragments (c :: s) with
    | 0 => c :: suffixAfter fragments name 0 s
    | n + 1 => (c :: s).take (n + 1) ++ '-' :: name ++ suffixAfter fragments name n s

/-- The selector with `-name` behind every fragment in it. At each place the longest fragment
counts, and the reading goes on behind it, so no suffix is taken for a fragment. -/
def suffixFragments (fragments : List (List Char)) (name selector : List Char) : List Char :=
  suffixAfter fragments name 0 selector

/-- The selector of a rule under a breakpoint: with `-name` at its end, or, if the block has
parameters, behind each fragment. -/
def renamed (fragments : Option (List (List Char))) (name selector : String) : String :=
  match fragments with
  | none => selector ++ "-" ++ name
  | some fragments => String.ofList (suffixFragments fragments name.toList selector.toList)

end ResponsiveCss.Expansion
