-- The end of the text closes the blocks that are still open, just as braces
-- there would. So a text may leave out the braces at its end.
import ResponsiveCss.Proofs.Stylesheet.Kept
import ResponsiveCss.Proofs.Token.Boundary

namespace ResponsiveCss.Stylesheet

open Token (cover cover_append AtBoundary)

/-! ## Tokens that close blocks -/

/-- The number of blocks that are open behind the tokens, if these can be read. -/
def depthBehind (ts : List Token) : Option Nat :=
  match ts.foldlM Reading.step .start with
  | .ok r => some r.enclosing.length
  | .error _ => none

/-- The token behind the tokens `before` is a brace that closes a block. -/
def ClosesBlock (before : List Token) (t : Token) : Prop :=
  t.kind = .closing .curly ∧ depthBehind (before ++ [t]) ≠ none ∧
    depthBehind before = (depthBehind (before ++ [t])).map (· + 1)

/-- Each of the tokens behind the tokens `before` is a brace that closes a block. -/
def CloseBlocks : (before closers : List Token) → Prop
  | _, [] => True
  | before, t :: ts => ClosesBlock before t ∧ CloseBlocks (before ++ [t]) ts

instance (before : List Token) (t : Token) : Decidable (ClosesBlock before t) :=
  inferInstanceAs (Decidable (_ ∧ _ ∧ _))

/-- It can be found out by reading the tokens. -/
def decCloseBlocks : (before closers : List Token) → Decidable (CloseBlocks before closers)
  | _, [] => isTrue trivial
  | before, t :: ts =>
    have := decCloseBlocks (before ++ [t]) ts
    inferInstanceAs (Decidable (ClosesBlock before t ∧ CloseBlocks (before ++ [t]) ts))

instance (before closers : List Token) : Decidable (CloseBlocks before closers) :=
  decCloseBlocks before closers

/-! ## The end of the text instead of a brace -/

namespace Reading

/-- Behind a brace that closes a block the text ends as it does in front of it. -/
theorem finish_eq_of_step {r r' : Reading} {t : Token} (h : r.step t = .ok r')
    (hdepth : r.enclosing.length = r'.enclosing.length + 1) : r'.finish = r.finish := by
  cases step_does h with
  | pass => exact absurd hdepth (Nat.ne_of_lt (Nat.lt_succ_self _))
  | comment => exact absurd hdepth (Nat.ne_of_lt (Nat.lt_succ_self _))
  | keyword => exact absurd hdepth (Nat.ne_of_lt (Nat.lt_succ_self _))
  | grow => exact absurd hdepth (Nat.ne_of_lt (Nat.lt_succ_self _))
  | statement => exact absurd hdepth (Nat.ne_of_lt (Nat.lt_succ_self _))
  | opens =>
    rw [List.length_cons] at hdepth
    omega
  | closes b more r₁ hgroups hbrace henclosing hend =>
    -- Both end the node being read; the brace closes the block that the end would close next.
    have hsame : r₁.enclosing = b :: more := (enclosing_endPending hend).trans henclosing
    unfold finish
    rw [hend]
    change Except.ok (closeAll more _) = Except.ok (closeAll r₁.enclosing r₁.nodes)
    rw [hsame, closeAll]

end Reading

theorem nodesOf_concat_of_closesBlock {before : List Token} {t : Token}
    (h : ClosesBlock before t) : nodesOf (before ++ [t]) = nodesOf before := by
  obtain ⟨-, hreads, hdepth⟩ := h
  unfold depthBehind at hreads hdepth
  cases hr' : (before ++ [t]).foldlM Reading.step .start with
  | error e =>
    rw [hr'] at hreads
    exact absurd rfl hreads
  | ok r' =>
    obtain ⟨r, hr, hstep⟩ := Reading.foldlM_concat_eq_ok hr'
    rw [hr, hr'] at hdepth
    have hdepth : r.enclosing.length = r'.enclosing.length + 1 := Option.some.inj hdepth
    unfold nodesOf
    rw [hr, hr']
    exact Reading.finish_eq_of_step hstep hdepth

/-- The braces can be left out one after the other. -/
theorem nodesOf_append_of_closeBlocks {before closers : List Token}
    (h : CloseBlocks before closers) : nodesOf (before ++ closers) = nodesOf before := by
  induction closers generalizing before with
  | nil => rw [List.append_nil]
  | cons t closers ih =>
    have hrest := ih h.2
    rw [List.append_assoc, List.singleton_append] at hrest
    rw [hrest, nodesOf_concat_of_closesBlock h.1]

/-! ## Whole texts -/

/-- The tokens of a text stay when braces behind it are left out. -/
theorem ofText_eq_of_braces {s : List Char} {k : Nat} {before closers : List Token}
    (htokens : Token.ofText (s ++ List.replicate k '}') = before ++ closers)
    (hcover : cover before = s) : Token.ofText s = before := by
  have htiled : Token.Tiled .start (before ++ closers) := htokens ▸ Token.tiled_ofText _
  have hclosers : cover closers = List.replicate k '}' := by
    have hall := Token.cover_ofText (s ++ List.replicate k '}')
    rw [htokens, cover_append, hcover] at hall
    exact List.append_cancel_left hall
  cases k with
  | zero =>
    have hnil : closers = [] := by
      by_contra hne
      have htiled : Token.Tiled .start (before ++ (closers ++ [])) := by rwa [List.append_nil]
      exact htiled.cover_ne_nil hne hclosers
    rwa [hnil, List.append_nil, List.replicate_zero, List.append_nil] at htokens
  | succ k =>
    have hbehind : AtBoundary (cover closers) := by
      rw [hclosers]
      exact .brace _
    have hne : cover closers ≠ [] := by
      rw [hclosers]
      exact List.cons_ne_nil _ _
    have hlist := htiled.listAfter_append hne hbehind .nil
    rw [hcover, List.append_nil] at hlist
    exact hlist.trans (List.append_nil before)

/-- If the braces at the end of a text close blocks, the text is read as the same stylesheet without
them. -/
theorem open_blocks_close_at_the_end {text : String} {k : Nat} {before closers : List Token}
    {sheet : Stylesheet}
    (htokens : Token.ofText (text ++ String.ofList (List.replicate k '}')).toList =
      before ++ closers)
    (hcover : cover before = text.toList) (hcloses : CloseBlocks before closers)
    (hparse : parse (text ++ String.ofList (List.replicate k '}')) = .ok sheet) :
    parse text = .ok sheet := by
  unfold parse at hparse ⊢
  rw [htokens, nodesOf_append_of_closeBlocks hcloses] at hparse
  rw [String.toList_append, String.toList_ofList] at htokens
  rwa [ofText_eq_of_braces htokens hcover]

/-- A declaration that ends with a group is the last thing in the text. -/
theorem the_block_of_an_unended_declaration_closes :
    let text := "@media all \x7b .a \x7b\x7d .b \x7b top: f(\x7d)"
    let before := Token.ofText text.toList
    let braces := String.ofList (List.replicate 2 '}')
    let closers := (Token.ofText (text ++ braces).toList).drop before.length
    let sheet : Stylesheet :=
      ⟨[.block "media" "all" [.rule ".a" [] ⟨1, 14⟩,
        .rule ".b" [.declaration ⟨"top", "f(\x7d)", false, ⟨1, 25⟩⟩] ⟨1, 20⟩] ⟨1, 1⟩]⟩
    (Token.ofText (text ++ braces).toList = before ++ closers ∧ cover before = text.toList ∧
      CloseBlocks before closers ∧ parse (text ++ braces) = .ok sheet) ∧
    parse text = .ok sheet := by
  intro text before braces closers sheet
  have htokens : Token.ofText (text ++ braces).toList = before ++ closers := by decide +kernel
  have hcover : cover before = text.toList := by decide +kernel
  have hcloses : CloseBlocks before closers := by decide +kernel
  have hparse : parse (text ++ braces) = .ok sheet := by decide +kernel
  exact ⟨⟨htokens, hcover, hcloses, hparse⟩,
    open_blocks_close_at_the_end htokens hcover hcloses hparse⟩

end ResponsiveCss.Stylesheet
