-- The grammar of stylesheets over their tokens. Groups are opaque: nothing in
-- them ends a prelude. A list of tokens spells nodes by what begins and what
-- ends each of them. If it spells none, it has a first fault.
import ResponsiveCss.Proofs.Stylesheet.Declaration
import ResponsiveCss.Proofs.Token.Tiling

namespace ResponsiveCss

namespace Token

/-- The bracket that a token opens. -/
def opened? (t : Token) : Option Bracket :=
  match t.kind with
  | .opening b => some b
  | .call => some .round
  | _ => none

/-- Kinds of tokens that no prelude holds outside of its groups. -/
def Kind.endsPrelude : Kind → Bool
  | .semicolon | .opening .curly | .closing .curly | .badString | .badUrl => true
  | _ => false

end Token

namespace Stylesheet

open Text
open Token (cover cover_cons cover_nil cover_append)

/-! ## Groups and preludes -/

/-- The tokens between the bracket `b` and the one that closes it. Closing brackets of other
kinds mean nothing there. -/
inductive Inside : Bracket → List Token → Prop
  | nil (b : Bracket) : Inside b []
  | token {b : Bracket} {t : Token} {ts : List Token} : t.opened? = none → t.kind ≠ .closing b →
    Inside b ts → Inside b (t :: ts)
  | group {b b' : Bracket} {t c : Token} {inner ts : List Token} : t.opened? = some b' →
    Inside b' inner → c.kind = .closing b' → Inside b ts → Inside b (t :: (inner ++ c :: ts))

/-- The tokens behind the bracket `b` if the text ends before it is closed. -/
inductive Unclosed : Bracket → List Token → Prop
  | here {b : Bracket} {ts : List Token} : Inside b ts → Unclosed b ts
  | deeper {b b' : Bracket} {t : Token} {ts more : List Token} : Inside b ts →
    t.opened? = some b' → Unclosed b' more → Unclosed b (ts ++ t :: more)

/-- The tokens `outer ++ inside` are a prelude, where `outer` ends with the last token that
stands in no group, and `inside` is what the group of this token holds. -/
inductive IsPrelude : List Token → List Token → Prop
  | nil : IsPrelude [] []
  | token {outer inside : List Token} {t : Token} : IsPrelude outer inside →
    t.kind.endsPrelude = false → t.opened? = none → IsPrelude (outer ++ inside ++ [t]) []
  | group {b : Bracket} {outer inside inner : List Token} {t c : Token} : IsPrelude outer inside →
    t.kind.endsPrelude = false → t.opened? = some b → Inside b inner → c.kind = .closing b →
    IsPrelude (outer ++ inside ++ [t]) (inner ++ [c])

/-- What comes behind nodes: another node, the brace that closes their block, or the end of the
text. -/
inductive Ending where
  | node
  | brace
  | text
deriving DecidableEq, Repr

/-- The tokens are a prelude that the end of its block or of the text may end. Only the end of
the text ends open groups. -/
inductive EndsAt : Ending → List Token → Prop
  | whole {e : Ending} {outer inside : List Token} : e ≠ .node → IsPrelude outer inside →
    EndsAt e (outer ++ inside)
  | unclosed {b : Bracket} {outer inside more : List Token} {t : Token} : IsPrelude outer inside →
    t.kind.endsPrelude = false → t.opened? = some b → Unclosed b more →
    EndsAt .text (outer ++ inside ++ t :: more)

/-! ## Single nodes -/

/-- The beginning of a node. -/
structure Beginning where
  /-- The name of an at-rule; a style rule or a declaration has none. -/
  keyword : Option String
  /-- The place of the node. -/
  start : Location
  /-- The place of its prelude. -/
  prelude : Location
deriving DecidableEq, Repr

namespace Beginning

/-- A node begins with the tokens `head`, and its prelude and what is behind it are `rest`. What is
no at-rule begins with its prelude, which then is empty only in front of `{`. -/
inductive Leads : Beginning → List Token → List Token → Prop
  | atRule {k : Token} (rest : List Token) : k.kind = .atKeyword →
    Leads ⟨some k.keyword, k.start, k.stop⟩ [k] rest
  | other {t : Token} (rest : List Token) :
    t.kind ∉ [.space, .comment, .atKeyword, .semicolon, .closing .curly] →
    Leads ⟨none, t.start, t.start⟩ [] (t :: rest)

/-- The place behind the tokens `outer` of the prelude. -/
def behind (g : Beginning) (outer : List Token) : Location :=
  (outer.getLast?.map Token.stop).getD g.prelude

/-- The node with this text in front of its block and these nodes in it. -/
def block (g : Beginning) (text : List Char) (nodes : List Node) : Node :=
  match g.keyword with
  | some name => .block name (String.ofList (trim text)) nodes g.start
  | none => .rule (String.ofList (trim text)) nodes g.start

/-- The text is that of a node without a block. A declaration has a colon, and in front of it
something that is not blank. -/
inductive Statement (g : Beginning) : List Char → Node → Prop
  | atRule {name : String} (text : List Char) : g.keyword = some name →
    Statement g text (.statement name (String.ofList (trim text)) g.start)
  | declaration {before : List Char} (behind : List Char) : g.keyword = none → ':' ∉ before →
    ¬ AllBlank before →
    Statement g (before ++ ':' :: behind) (.declaration (.ofParts before behind g.start))

/-- The text should be that of a declaration but is none. -/
inductive Misspelled (g : Beginning) : List Char → ParseError → Prop
  | unknownWord {text : List Char} : g.keyword = none → ':' ∉ text →
    Misspelled g text ⟨.unknownWord (String.ofList (trim text)), g.start⟩
  | noProperty {before : List Char} (behind : List Char) : g.keyword = none → AllBlank before →
    Misspelled g (before ++ ':' :: behind) ⟨.noProperty, g.start⟩

end Beginning

/-! ## Lists of nodes -/

/-- The tokens spell the nodes, in front of such an ending. What counts as the text of a node is
its prelude without the inside of a group at its end, if `;` or `{` ends the prelude, and all of
it otherwise. -/
inductive Spells : Ending → List Token → List Node → Prop
  | nil (e : Ending) : Spells e [] []
  | gap {e : Ending} {t : Token} {ts : List Token} {ns : List Node} :
    t.kind = .space ∨ t.kind = .semicolon → Spells e ts ns → Spells e (t :: ts) ns
  | comment {e : Ending} {t : Token} {ts : List Token} {ns : List Node} : t.kind = .comment →
    Spells e ts ns →
    Spells e (t :: ts) (.comment (String.ofList (trim t.commentBody)) t.start :: ns)
  | statement {e : Ending} {g : Beginning} {head outer inside ts : List Token} {s : Token}
      {n : Node} {ns : List Node} :
    g.Leads head (outer ++ inside ++ s :: ts) → IsPrelude outer inside → s.kind = .semicolon →
    g.Statement (cover outer) n → Spells e ts ns →
    Spells e (head ++ (outer ++ inside ++ s :: ts)) (n :: ns)
  | block {e : Ending} {g : Beginning} {head outer inside body ts : List Token} {o c : Token}
      {inner ns : List Node} :
    g.Leads head (outer ++ inside ++ o :: (body ++ c :: ts)) → IsPrelude outer inside →
    o.kind = .opening .curly → Spells .brace body inner → c.kind = .closing .curly →
    Spells e ts ns →
    Spells e (head ++ (outer ++ inside ++ o :: (body ++ c :: ts)))
      (g.block (cover outer) inner :: ns)
  | lastStatement {e : Ending} {g : Beginning} {head prelude : List Token} {n : Node} :
    g.Leads head prelude → EndsAt e prelude → g.Statement (cover prelude) n →
    Spells e (head ++ prelude) [n]
  | lastBlock {g : Beginning} {head outer inside body : List Token} {o : Token}
      {inner : List Node} :
    g.Leads head (outer ++ inside ++ o :: body) → IsPrelude outer inside →
    o.kind = .opening .curly → Spells .text body inner →
    Spells .text (head ++ (outer ++ inside ++ o :: body)) [g.block (cover outer) inner]

/-! ## Faults -/

/-- The fault of a token that no prelude holds. A closing brace is none if it closes a block. -/
inductive Spoils (inBlock : Bool) : Token.Kind → ParseError.Cause → Prop
  | brace : inBlock = false → Spoils inBlock (.closing .curly) .unexpectedBrace
  | badString : Spoils inBlock .badString .unclosedString
  | badUrl : Spoils inBlock .badUrl .malformedUrl

/-- The tokens begin with a fault, where a node could begin. -/
inductive Fault (inBlock : Bool) : List Token → ParseError → Prop
  | brace {t : Token} (ts : List Token) : inBlock = false → t.kind = .closing .curly →
    Fault inBlock (t :: ts) ⟨.unexpectedBrace, t.start⟩
  | token {g : Beginning} {head outer inside ts : List Token} {t : Token}
      {cause : ParseError.Cause} :
    g.Leads head (outer ++ inside ++ t :: ts) → IsPrelude outer inside →
    Spoils inBlock t.kind cause →
    Fault inBlock (head ++ (outer ++ inside ++ t :: ts)) ⟨cause, g.behind outer⟩
  | statement {g : Beginning} {head outer inside ts : List Token} {s : Token} {e : ParseError} :
    g.Leads head (outer ++ inside ++ s :: ts) → IsPrelude outer inside → s.kind = .semicolon →
    g.Misspelled (cover outer) e → Fault inBlock (head ++ (outer ++ inside ++ s :: ts)) e
  | lastInBlock {g : Beginning} {head outer inside ts : List Token} {c : Token} {e : ParseError} :
    g.Leads head (outer ++ inside ++ c :: ts) → IsPrelude outer inside → inBlock = true →
    c.kind = .closing .curly → g.Misspelled (cover (outer ++ inside)) e →
    Fault inBlock (head ++ (outer ++ inside ++ c :: ts)) e
  | last {g : Beginning} {head prelude : List Token} {e : ParseError} :
    g.Leads head prelude → EndsAt .text prelude → g.Misspelled (cover prelude) e →
    Fault inBlock (head ++ prelude) e

/-- The first fault of the tokens stands behind whole nodes, perhaps in a block. -/
inductive Fails : Bool → List Token → ParseError → Prop
  | here {inBlock : Bool} {before ts : List Token} {ns : List Node} {e : ParseError} :
    Spells .node before ns → Fault inBlock ts e → Fails inBlock (before ++ ts) e
  | within {inBlock : Bool} {g : Beginning} {before head outer inside body : List Token} {o : Token}
      {ns : List Node} {e : ParseError} :
    Spells .node before ns → g.Leads head (outer ++ inside ++ o :: body) →
    IsPrelude outer inside → o.kind = .opening .curly → Fails true body e →
    Fails inBlock (before ++ (head ++ (outer ++ inside ++ o :: body))) e

/-! ## Nodes in a row -/

theorem Beginning.Leads.append {g : Beginning} {head rest : List Token} (h : g.Leads head rest)
    (more : List Token) : g.Leads head (rest ++ more) := by
  cases h with
  | atRule rest hk => exact .atRule _ hk
  | other rest ht => exact .other _ ht

theorem Beginning.Leads.of_append {g : Beginning} {head rest more : List Token}
    (h : g.Leads head (rest ++ more)) (hne : rest ≠ []) : g.Leads head rest := by
  obtain ⟨t, rest, rfl⟩ := List.exists_cons_of_ne_nil hne
  cases h with
  | atRule _ hk => exact .atRule _ hk
  | other _ ht => exact .other _ ht

/-- No prelude begins with a closing brace. -/
theorem Beginning.Leads.of_brace {g : Beginning} {head prelude ts : List Token} {c : Token}
    (h : g.Leads head (prelude ++ c :: ts)) (hc : c.kind = .closing .curly) :
    g.Leads head prelude := by
  generalize hrest : prelude ++ c :: ts = rest at h
  cases h with
  | atRule rest hk => exact .atRule _ hk
  | other rest ht =>
    cases prelude with
    | nil =>
      cases hrest
      rw [hc] at ht
      exact absurd ht (by decide)
    | cons t prelude =>
      cases hrest
      exact .other _ ht

theorem Spells.append {e : Ending} {before ts : List Token} {ns ms : List Node}
    (hbefore : Spells .node before ns) (h : Spells e ts ms) :
    Spells e (before ++ ts) (ns ++ ms) := by
  generalize hnode : Ending.node = e' at hbefore
  induction hbefore with
  | nil => exact h
  | gap hgap _ ih => exact .gap hgap (ih hnode)
  | comment hcomment _ ih => exact .comment hcomment (ih hnode)
  | statement hleads hprelude hs hn _ ih =>
    have hleads := hleads.append ts
    simp only [List.append_assoc, List.cons_append] at hleads ⊢
    rw [← List.append_assoc] at hleads
    have := Spells.statement hleads hprelude hs hn (ih hnode)
    rwa [List.append_assoc] at this
  | block hleads hprelude ho hinner hc _ _ ih =>
    have hleads := hleads.append ts
    simp only [List.append_assoc, List.cons_append] at hleads ⊢
    rw [← List.append_assoc] at hleads
    have := Spells.block hleads hprelude ho hinner hc (ih hnode)
    rwa [List.append_assoc] at this
  | lastStatement _ hends _ =>
    subst hnode
    cases hends with
    | whole hne _ => exact absurd rfl hne
  | lastBlock => cases hnode

theorem Fails.append {inBlock : Bool} {before ts : List Token} {ns : List Node} {e : ParseError}
    (hbefore : Spells .node before ns) (h : Fails inBlock ts e) :
    Fails inBlock (before ++ ts) e := by
  cases h with
  | here hnodes hfault =>
    rw [← List.append_assoc]
    exact .here (hbefore.append hnodes) hfault
  | within hnodes hleads hprelude ho hbody =>
    rw [← List.append_assoc]
    exact .within (hbefore.append hnodes) hleads hprelude ho hbody

/-! ## Every list of tokens spells nodes or has a fault -/

/-- A group ends with its closing bracket or with the text. -/
theorem closed_or_unclosed (b : Bracket) (ts : List Token) :
    (∃ inner c rest, ts = inner ++ c :: rest ∧ Inside b inner ∧ c.kind = .closing b) ∨
      Unclosed b ts := by
  induction hn : ts.length using Nat.strongRecOn generalizing b ts with
  | _ n ih =>
    subst hn
    cases ts with
    | nil => exact .inr (.here (.nil b))
    | cons t ts =>
      have hlt : ts.length < (t :: ts).length := Nat.lt_succ_self _
      by_cases hc : t.kind = .closing b
      · exact .inl ⟨[], t, ts, rfl, .nil b, hc⟩
      cases ht : t.opened? with
      | none =>
        rcases ih _ hlt b ts rfl with ⟨inner, c, rest, rfl, hinner, hclose⟩ | hopen
        · exact .inl ⟨t :: inner, c, rest, rfl, .token ht hc hinner, hclose⟩
        · cases hopen with
          | here hinside => exact .inr (.here (.token ht hc hinside))
          | deeper hinside ht' hmore => exact .inr (.deeper (.token ht hc hinside) ht' hmore)
      | some b' =>
        rcases ih _ hlt b' ts rfl with ⟨own, c', ts, rfl, hown, hclose'⟩ | hopen
        · have hlt' : ts.length < (t :: (own ++ c' :: ts)).length := by
            simp only [List.length_cons, List.length_append]
            omega
          rcases ih _ hlt' b ts rfl with ⟨inner, c, rest, rfl, hinner, hclose⟩ | hopen
          · refine .inl ⟨t :: (own ++ c' :: inner), c, rest, ?_, .group ht hown hclose' hinner,
              hclose⟩
            simp
          · cases hopen with
            | here hinside => exact .inr (.here (.group ht hown hclose' hinside))
            | @deeper _ b'' t'' inner more hinside ht' hmore =>
              have := Unclosed.deeper (.group ht hown hclose' hinside) ht' hmore
              simp only [List.cons_append, List.append_assoc] at this
              exact .inr this
        · exact .inr (.deeper (.nil b) ht hopen)

/-- A prelude goes on until the text or a token that it cannot hold ends it. -/
theorem prelude_cases_of {outer inside : List Token} (h : IsPrelude outer inside)
    (ts : List Token) :
    EndsAt .text (outer ++ inside ++ ts) ∨
      ∃ outer' inside' t rest, outer ++ inside ++ ts = outer' ++ inside' ++ t :: rest ∧
        IsPrelude outer' inside' ∧ t.kind.endsPrelude = true := by
  induction hn : ts.length using Nat.strongRecOn generalizing outer inside ts with
  | _ n ih =>
    subst hn
    cases ts with
    | nil =>
      rw [List.append_nil]
      exact .inl (.whole (by decide) h)
    | cons t ts =>
      cases hends : t.kind.endsPrelude with
      | true => exact .inr ⟨outer, inside, t, ts, rfl, h, hends⟩
      | false =>
        cases ht : t.opened? with
        | none =>
          have := ih _ (Nat.lt_succ_self _) (h.token hends ht) ts rfl
          simpa using this
        | some b =>
          rcases closed_or_unclosed b ts with ⟨inner, c, rest, rfl, hinner, hc⟩ | hopen
          · have hlt : rest.length < (t :: (inner ++ c :: rest)).length := by
              simp only [List.length_cons, List.length_append]
              omega
            have := ih _ hlt (h.group hends ht hinner hc) rest rfl
            simpa using this
          · exact .inl (.unclosed h hends ht hopen)

theorem prelude_cases (ts : List Token) :
    EndsAt .text ts ∨ ∃ outer inside t rest, ts = outer ++ inside ++ t :: rest ∧
      IsPrelude outer inside ∧ t.kind.endsPrelude = true :=
  prelude_cases_of .nil ts

theorem Beginning.statement_or_misspelled (g : Beginning) (text : List Char) :
    (∃ n, g.Statement text n) ∨ ∃ e, g.Misspelled text e := by
  cases hkeyword : g.keyword with
  | some name => exact .inl ⟨_, .atRule text hkeyword⟩
  | none =>
    cases hsplit : splitFirst? ':' text with
    | none => exact .inr ⟨_, .unknownWord hkeyword (splitFirst?_eq_none_iff.mp hsplit)⟩
    | some parts =>
      obtain ⟨before, behind⟩ := parts
      obtain ⟨rfl, hcolon⟩ := splitFirst?_eq_some_iff.mp hsplit
      by_cases hblank : AllBlank before
      · exact .inr ⟨_, .noProperty behind hkeyword hblank⟩
      · exact .inl ⟨_, .declaration behind hkeyword hcolon hblank⟩

/-- The tokens spell nodes up to the end of the text or to the brace that closes their block, or
they have a first fault. -/
def Settled (inBlock : Bool) (ts : List Token) : Prop :=
  (∃ ns, Spells .text ts ns) ∨
    (inBlock = true ∧ ∃ body c rest ns, ts = body ++ c :: rest ∧ Spells .brace body ns ∧
      c.kind = .closing .curly) ∨
    ∃ e, Fails inBlock ts e

theorem Settled.append {inBlock : Bool} {before ts : List Token} {ns : List Node}
    (hbefore : Spells .node before ns) (h : Settled inBlock ts) :
    Settled inBlock (before ++ ts) := by
  rcases h with ⟨ms, hms⟩ | ⟨hin, body, c, rest, ms, rfl, hbody, hc⟩ | ⟨e, he⟩
  · exact .inl ⟨_, hbefore.append hms⟩
  · refine .inr (.inl ⟨hin, before ++ body, c, rest, _, ?_, hbefore.append hbody, hc⟩)
    rw [List.append_assoc]
  · exact .inr (.inr ⟨e, he.append hbefore⟩)

theorem Settled.of_fault {inBlock : Bool} {ts : List Token} {e : ParseError}
    (h : Fault inBlock ts e) : Settled inBlock ts :=
  .inr (.inr ⟨e, .here (.nil .node) h⟩)

theorem Settled.statement {inBlock : Bool} {g : Beginning} {head outer inside ts : List Token}
    {t : Token} (hleads : g.Leads head (outer ++ inside ++ t :: ts))
    (hprelude : IsPrelude outer inside) (ht : t.kind = .semicolon) (h : Settled inBlock ts) :
    Settled inBlock (head ++ (outer ++ inside ++ t :: ts)) := by
  rcases g.statement_or_misspelled (cover outer) with ⟨n, hn⟩ | ⟨e, he⟩
  · have hsplit : outer ++ inside ++ t :: ts = (outer ++ inside ++ [t]) ++ ts := by simp
    rw [hsplit] at hleads ⊢
    have hnode := Spells.statement (hleads.of_append (by simp)) hprelude ht hn (.nil .node)
    rw [← List.append_assoc]
    exact h.append hnode
  · exact .of_fault (.statement hleads hprelude ht he)

theorem Settled.block {inBlock : Bool} {g : Beginning} {head outer inside body ts : List Token}
    {t c : Token} {inner : List Node}
    (hleads : g.Leads head (outer ++ inside ++ t :: (body ++ c :: ts)))
    (hprelude : IsPrelude outer inside) (ht : t.kind = .opening .curly)
    (hbody : Spells .brace body inner) (hc : c.kind = .closing .curly) (h : Settled inBlock ts) :
    Settled inBlock (head ++ (outer ++ inside ++ t :: (body ++ c :: ts))) := by
  have hsplit : outer ++ inside ++ t :: (body ++ c :: ts) =
      (outer ++ inside ++ t :: (body ++ [c])) ++ ts := by simp
  rw [hsplit] at hleads ⊢
  have hnode := Spells.block (hleads.of_append (by simp)) hprelude ht hbody hc (.nil .node)
  rw [← List.append_assoc]
  exact h.append hnode

/-- The brace behind a prelude closes the block around it, if there is one. -/
theorem Settled.brace {inBlock : Bool} {g : Beginning} {head outer inside ts : List Token}
    {t : Token} (hleads : g.Leads head (outer ++ inside ++ t :: ts))
    (hprelude : IsPrelude outer inside) (ht : t.kind = .closing .curly) :
    Settled inBlock (head ++ (outer ++ inside ++ t :: ts)) := by
  cases inBlock with
  | false => exact .of_fault (.token hleads hprelude (by rw [ht]; exact .brace rfl))
  | true =>
    rcases g.statement_or_misspelled (cover (outer ++ inside)) with ⟨n, hn⟩ | ⟨e, he⟩
    · have hends : EndsAt .brace (outer ++ inside) := .whole (by decide) hprelude
      have hlast := Spells.lastStatement (hleads.of_brace ht) hends hn
      exact .inr (.inl ⟨rfl, head ++ (outer ++ inside), t, ts, [n], by simp, hlast, ht⟩)
    · exact .of_fault (.lastInBlock hleads hprelude rfl ht he)

/-- What begins a node goes on to its end, if this holds for what is behind the node or in it. -/
theorem settled_of_leads {inBlock : Bool} {g : Beginning} {head rest : List Token}
    (hleads : g.Leads head rest)
    (ih : ∀ inBlock ts, ts.length < (head ++ rest).length → Settled inBlock ts) :
    Settled inBlock (head ++ rest) := by
  rcases prelude_cases rest with hends | ⟨outer, inside, t, ts, rfl, hprelude, hkind⟩
  · rcases g.statement_or_misspelled (cover rest) with ⟨n, hn⟩ | ⟨e, he⟩
    · exact .inl ⟨[n], .lastStatement hleads hends hn⟩
    · exact .of_fault (.last hleads hends he)
  have hshort : ts.length < (head ++ (outer ++ inside ++ t :: ts)).length := by
    simp only [List.length_append, List.length_cons]
    omega
  unfold Token.Kind.endsPrelude at hkind
  split at hkind
  · rename_i hsemicolon
    exact .statement hleads hprelude hsemicolon (ih inBlock ts hshort)
  · rename_i hopening
    rcases ih true ts hshort with
      ⟨inner, hinner⟩ | ⟨-, body, c, ts, inner, rfl, hbody, hc⟩ | ⟨e, he⟩
    · exact .inl ⟨_, .lastBlock hleads hprelude hopening hinner⟩
    · have hshorter : ts.length < (body ++ c :: ts).length := by
        simp only [List.length_append, List.length_cons]
        omega
      exact .block hleads hprelude hopening hbody hc (ih inBlock ts (hshorter.trans hshort))
    · exact .inr (.inr ⟨e, .within (.nil .node) hleads hprelude hopening he⟩)
  · rename_i hclosing
    exact .brace hleads hprelude hclosing
  · rename_i hbad
    exact .of_fault (.token hleads hprelude (by rw [hbad]; exact .badString))
  · rename_i hbad
    exact .of_fault (.token hleads hprelude (by rw [hbad]; exact .badUrl))
  · cases hkind

theorem settled (inBlock : Bool) (ts : List Token) : Settled inBlock ts := by
  induction hn : ts.length using Nat.strongRecOn generalizing inBlock ts with
  | _ n ih =>
    subst hn
    have ih : ∀ inBlock us, us.length < ts.length → Settled inBlock us :=
      fun inBlock us hlt => ih us.length hlt inBlock us rfl
    cases ts with
    | nil => exact .inl ⟨[], .nil .text⟩
    | cons t ts =>
      have hrest := ih inBlock ts (Nat.lt_succ_self _)
      by_cases hbrace : t.kind = .closing .curly
      · cases inBlock with
        | false => exact .of_fault (.brace ts rfl hbrace)
        | true => exact .inr (.inl ⟨rfl, [], t, ts, [], rfl, .nil .brace, hbrace⟩)
      by_cases hgap : t.kind = .space ∨ t.kind = .semicolon
      · exact hrest.append (.gap hgap (.nil .node))
      by_cases hcomment : t.kind = .comment
      · exact hrest.append (.comment hcomment (.nil .node))
      by_cases hkeyword : t.kind = .atKeyword
      · exact settled_of_leads (.atRule ts hkeyword) ih
      · have hother : t.kind ∉ [.space, .comment, .atKeyword, .semicolon, .closing .curly] := by
          rw [not_or] at hgap
          simp only [List.mem_cons, List.not_mem_nil, or_false, not_or]
          exact ⟨hgap.1, hcomment, hkeyword, hgap.2, hbrace⟩
        exact settled_of_leads (.other ts hother) ih

end Stylesheet

end ResponsiveCss
