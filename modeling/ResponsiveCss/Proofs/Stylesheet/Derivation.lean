-- The reading follows the grammar: tokens that spell nodes are read as these
-- nodes, and tokens with a fault fail with it. Since every list of tokens does
-- one or the other, the reading accepts just what the grammar does.
import ResponsiveCss.Proofs.Stylesheet.Grammar
import ResponsiveCss.Stylesheet.Parse

namespace ResponsiveCss.Stylesheet

open Text
open Token (cover cover_cons cover_nil cover_append)

namespace Reading

/-- What comes of the rest of the tokens. -/
def outcome (r : Reading) (ts : List Token) : Except ParseError (List Node) :=
  ts.foldlM step r >>= finish

theorem outcome_nil (r : Reading) : r.outcome [] = r.finish := rfl

theorem outcome_cons (r : Reading) (t : Token) (ts : List Token) :
    r.outcome (t :: ts) = (r.step t).bind fun r => r.outcome ts := by
  unfold outcome
  rw [List.foldlM_cons]
  cases r.step t <;> rfl

theorem outcome_of_step {r r' : Reading} {t : Token} (h : r.step t = .ok r') (ts : List Token) :
    r.outcome (t :: ts) = r'.outcome ts := by
  rw [outcome_cons, h]
  rfl

theorem outcome_of_step_error {r : Reading} {t : Token} {e : ParseError} (h : r.step t = .error e)
    (ts : List Token) : r.outcome (t :: ts) = .error e := by
  rw [outcome_cons, h]
  rfl

end Reading

/-! ## Tokens of groups -/

theorem regroup_of_opened {t : Token} {b : Bracket} (h : t.opened? = some b)
    (groups : List Bracket) : Prelude.regroup groups t.kind = b :: groups := by
  unfold Token.opened? at h
  split at h
  · rename_i hk
    cases h
    rw [hk]
    rfl
  · rename_i hk
    cases h
    rw [hk]
    rfl
  · cases h

theorem regroup_of_not_opened {t : Token} {b : Bracket} {groups : List Bracket}
    (h : t.opened? = none) (hc : t.kind ≠ .closing b) :
    Prelude.regroup (b :: groups) t.kind = b :: groups := by
  unfold Prelude.regroup
  split
  · rename_i hk
    simp [Token.opened?, hk] at h
  · rename_i hk
    simp [Token.opened?, hk] at h
  · rename_i b' hk
    have hne : b ≠ b' := by
      rintro rfl
      exact hc hk
    rw [if_neg (by simpa using hne)]
  · rfl

theorem regroup_closing {t : Token} {b : Bracket} (h : t.kind = .closing b)
    (groups : List Bracket) : Prelude.regroup (b :: groups) t.kind = groups := by
  simp [h, Prelude.regroup]

/-- The prelude with tokens inside a group that stays open. -/
def Prelude.readInside (p : Prelude) (ts : List Token) : Prelude :=
  { p with read := (cover ts).reverse ++ p.read }

namespace Reading

section

variable {enclosing : List OpenBlock} {nodes : List Node} {p : Prelude} {b : Bracket}
  {groups : List Bracket} {t : Token}

theorem outcome_inside_token (h : p.groups ≠ []) (ts : List Token) :
    (⟨enclosing, nodes, some p⟩ : Reading).outcome (t :: ts) =
      (⟨enclosing, nodes, some (p.pushInside t)⟩ : Reading).outcome ts := by
  apply outcome_of_step
  change scan _ p t = _
  unfold scan
  split
  · rfl
  · rename_i hnil
    exact absurd hnil h

/-- A token inside a group that opens and closes nothing. -/
theorem outcome_inside_step (hgroups : p.groups = b :: groups)
    (ht : Prelude.regroup (b :: groups) t.kind = b :: groups) (ts : List Token) :
    (⟨enclosing, nodes, some p⟩ : Reading).outcome (t :: ts) =
      (⟨enclosing, nodes, some (p.readInside [t])⟩ : Reading).outcome ts := by
  rw [outcome_inside_token (by simp [hgroups])]
  unfold Prelude.pushInside
  rw [hgroups, ht, ← hgroups]
  simp [Prelude.readInside]

theorem outcome_inside {ts : List Token} (h : Inside b ts) (hgroups : p.groups = b :: groups)
    (rest : List Token) :
    (⟨enclosing, nodes, some p⟩ : Reading).outcome (ts ++ rest) =
      (⟨enclosing, nodes, some (p.readInside ts)⟩ : Reading).outcome rest := by
  induction h generalizing p groups rest with
  | nil => rfl
  | token ht hc _ ih =>
    rw [List.cons_append, outcome_inside_step hgroups (regroup_of_not_opened ht hc)]
    rw [ih (p := p.readInside _) hgroups]
    simp [Prelude.readInside]
  | @group b b' t c inner ts ht hinner hc _ ihinner ih =>
    -- The group of `t` is opened, read and closed.
    rw [List.cons_append, outcome_inside_token (by simp [hgroups]), List.append_assoc]
    have hopen : (p.pushInside t).groups = b' :: b :: groups := by
      rw [← hgroups, ← regroup_of_opened ht p.groups]
      rfl
    rw [ihinner hopen, List.cons_append, outcome_inside_token (by simp [Prelude.readInside, hopen])]
    have hclosed : (((p.pushInside t).readInside inner).pushInside c).groups = b :: groups := by
      rw [← regroup_closing hc (b :: groups), ← hopen]
      rfl
    have hsame : (((p.pushInside t).readInside inner).pushInside c).readInside ts =
        p.readInside (t :: (inner ++ c :: ts)) := by
      have hstay := hclosed.trans hgroups.symm
      unfold Prelude.pushInside Prelude.readInside at hstay ⊢
      dsimp only at hstay ⊢
      rw [hstay]
      simp
    rw [ih hclosed, hsame]

theorem finish_pending (enclosing : List OpenBlock) (nodes : List Node) (p : Prelude) :
    (⟨enclosing, nodes, some p⟩ : Reading).finish =
      (p.statement p.read).map fun n => closeAll enclosing (n :: nodes) := by
  unfold finish endPending
  dsimp only
  cases p.statement p.read <;> rfl

/-- The end of the text ends a node, whatever groups are open. -/
theorem outcome_unclosed {ts : List Token} (h : Unclosed b ts) (hgroups : p.groups = b :: groups) :
    (⟨enclosing, nodes, some p⟩ : Reading).outcome ts =
      (p.statement ((cover ts).reverse ++ p.read)).map fun n =>
        closeAll enclosing (n :: nodes) := by
  induction h generalizing p groups with
  | @here b ts hinside =>
    rw [← List.append_nil ts, outcome_inside hinside hgroups, outcome_nil, finish_pending,
      List.append_nil]
    rfl
  | @deeper b b' t ts more hinside ht _ ih =>
    rw [outcome_inside hinside hgroups,
      outcome_inside_token (by simp [Prelude.readInside, hgroups])]
    have hopen : ((p.readInside ts).pushInside t).groups = b' :: b :: groups := by
      rw [← hgroups, ← regroup_of_opened ht p.groups]
      rfl
    rw [ih hopen]
    simp only [cover_append, cover_cons, List.reverse_append, List.append_assoc]
    rfl

end

end Reading

/-! ## Preludes -/

namespace Beginning

/-- The prelude of which nothing has been read. -/
def unread (g : Beginning) : Prelude := .empty g.keyword g.start g.prelude

/-- The prelude of which the tokens `outer ++ inside` have been read. -/
def read (g : Beginning) (outer inside : List Token) : Prelude :=
  ⟨g.keyword, g.start, (cover (outer ++ inside)).reverse, (cover outer).reverse, g.behind outer, []⟩

theorem Statement.eq_ok {g : Beginning} {text : List Char} {n : Node} (h : g.Statement text n) :
    g.unread.statement text.reverse = .ok n := by
  unfold Prelude.statement unread Prelude.empty
  cases h with
  | atRule text hkeyword => simp [hkeyword]
  | declaration behind hkeyword hcolon hblank =>
    simp [hkeyword, Declaration.ofText_of_parts hcolon hblank, Except.map]

theorem Misspelled.eq_error {g : Beginning} {text : List Char} {e : ParseError}
    (h : g.Misspelled text e) : g.unread.statement text.reverse = .error e := by
  unfold Prelude.statement unread Prelude.empty
  cases h with
  | unknownWord hkeyword hcolon =>
    simp [hkeyword, Declaration.ofText_of_not_mem hcolon, Except.map]
  | noProperty behind hkeyword hblank =>
    simp [hkeyword, Declaration.ofText_of_allBlank hblank, Except.map]

end Beginning

namespace Reading

section

variable {enclosing : List OpenBlock} {nodes : List Node} {g : Beginning} {p : Prelude}
  {head outer inside rest : List Token} {t : Token} {b : Bracket}

theorem outcome_leads (h : g.Leads head rest) :
    (⟨enclosing, nodes, none⟩ : Reading).outcome (head ++ rest) =
      (⟨enclosing, nodes, some g.unread⟩ : Reading).outcome rest := by
  cases h with
  | atRule rest hk =>
    apply outcome_of_step
    simp only [step, hk]
    rfl
  | @other t rest ht =>
    simp only [List.mem_cons, List.not_mem_nil, or_false, not_or] at ht
    rw [List.nil_append, outcome_cons, outcome_cons]
    congr 1
    change step ⟨enclosing, nodes, none⟩ t = scan _ (.empty none t.start t.start) t
    unfold step
    dsimp only
    split
    · rename_i hk
      exact absurd hk ht.1
    · rename_i hk
      exact absurd hk ht.2.2.2.1
    · rename_i hk
      exact absurd hk ht.2.1
    · rename_i hk
      exact absurd hk ht.2.2.1
    · rename_i hk
      exact absurd hk ht.2.2.2.2
    · rfl

/-- A token that stands in no group and neither opens one nor ends the prelude. -/
theorem step_push (hgroups : p.groups = []) (hends : t.kind.endsPrelude = false)
    (ht : t.opened? = none) :
    (⟨enclosing, nodes, some p⟩ : Reading).step t = .ok ⟨enclosing, nodes, some (p.push t)⟩ := by
  change scan _ p t = _
  unfold scan
  rw [hgroups]
  dsimp only
  split
  iterate 5 simp_all [Token.Kind.endsPrelude]
  · rename_i hk
    simp [Token.opened?, hk] at ht
  · rename_i hk
    simp [Token.opened?, hk] at ht
  · rfl

theorem step_enter (hgroups : p.groups = []) (hends : t.kind.endsPrelude = false)
    (ht : t.opened? = some b) :
    (⟨enclosing, nodes, some p⟩ : Reading).step t = .ok ⟨enclosing, nodes, some (p.enter b t)⟩ := by
  change scan _ p t = _
  unfold Token.opened? at ht
  unfold scan
  rw [hgroups]
  dsimp only
  split
  iterate 5 simp_all [Token.Kind.endsPrelude]
  · rename_i hk
    rw [hk] at ht
    cases ht
    rfl
  · rename_i hk
    rw [hk] at ht
    cases ht
    rfl
  · rename_i hopening hcall
    split at ht
    · rename_i hk
      exact absurd hk (hopening _)
    · rename_i hk
      exact absurd hk hcall
    · cases ht

/-- The tokens of a prelude are read one after the other. -/
theorem outcome_prelude (h : IsPrelude outer inside) (rest : List Token) :
    (⟨enclosing, nodes, some g.unread⟩ : Reading).outcome (outer ++ inside ++ rest) =
      (⟨enclosing, nodes, some (g.read outer inside)⟩ : Reading).outcome rest := by
  induction h generalizing rest with
  | nil => rfl
  | @token outer inside t _ hends ht ih =>
    have hpush : (g.read outer inside).push t = g.read (outer ++ inside ++ [t]) [] := by
      simp [Beginning.read, Prelude.push, Beginning.behind]
    rw [List.append_nil, List.append_assoc, ih, ← hpush]
    exact outcome_of_step (step_push rfl hends ht) rest
  | @group b outer inside inner t c _ hends ht hinner hc ih =>
    have henter : ((g.read outer inside).enter b t).groups = b :: [] := rfl
    have hclosed : ((((g.read outer inside).enter b t).readInside inner).pushInside c) =
        g.read (outer ++ inside ++ [t]) (inner ++ [c]) := by
      have hgroups := regroup_closing hc []
      unfold Prelude.pushInside Prelude.readInside
      dsimp only
      rw [henter, hgroups]
      simp [Beginning.read, Prelude.enter, Prelude.push, Beginning.behind]
    simp only [List.append_assoc, List.cons_append, List.nil_append] at ih ⊢
    rw [ih, outcome_of_step (step_enter rfl hends ht), outcome_inside hinner henter,
      outcome_inside_token (by simp [Prelude.readInside, henter]), hclosed]
    simp

end

end Reading

/-! ## Nodes -/

/-- What is behind nodes is as the ending says. -/
def Ending.Meets (enclosing : List OpenBlock) (rest : List Token) : Ending → Prop
  | .node => True
  | .brace => enclosing ≠ [] ∧ ∃ c more, rest = c :: more ∧ c.kind = .closing .curly
  | .text => rest = []

theorem Beginning.close_block (g : Beginning) (outer inside : List Token)
    (before inner : List Node) :
    ((g.read outer inside).block before).close inner = g.block (cover outer) inner := by
  unfold Prelude.block OpenBlock.close Beginning.block
  rw [show (g.read outer inside).kept.reverse = cover outer from List.reverse_reverse _]
  rfl

namespace Reading

section

variable {enclosing : List OpenBlock} {nodes : List Node} {g : Beginning} {p : Prelude}
  {head outer inside rest : List Token} {t : Token} {e : Ending}

/-- A node that its block or the text ends is like one in front of the end. -/
theorem outcome_last (hgroups : p.groups = []) (he : e ≠ .node)
    (hmeets : e.Meets enclosing rest) :
    (⟨enclosing, nodes, some p⟩ : Reading).outcome rest =
      (p.statement p.read).bind fun n =>
        (⟨enclosing, n :: nodes, none⟩ : Reading).outcome rest := by
  cases e with
  | node => exact absurd rfl he
  | text =>
    obtain rfl : rest = [] := hmeets
    rw [outcome_nil, finish_pending]
    cases p.statement p.read <;> rfl
  | brace =>
    obtain ⟨hne, c, more, rfl, hc⟩ := hmeets
    obtain ⟨b, enclosing, rfl⟩ := List.exists_cons_of_ne_nil hne
    have hscan : (⟨b :: enclosing, nodes, some p⟩ : Reading).step c =
        (p.statement p.read).bind fun n =>
          (⟨b :: enclosing, n :: nodes, none⟩ : Reading).step c := by
      simp only [step, scan, hgroups, hc, endBlock, endPending]
      cases p.statement p.read <;> rfl
    rw [outcome_cons, hscan]
    simp only [outcome_cons]
    cases p.statement p.read <;> rfl

theorem outcome_endsAt {prelude : List Token} (h : EndsAt e prelude)
    (hmeets : e.Meets enclosing rest) :
    (⟨enclosing, nodes, some g.unread⟩ : Reading).outcome (prelude ++ rest) =
      (g.unread.statement (cover prelude).reverse).bind fun n =>
        (⟨enclosing, n :: nodes, none⟩ : Reading).outcome rest := by
  cases h with
  | whole he hprelude =>
    rw [outcome_prelude hprelude, outcome_last rfl he hmeets]
    rfl
  | @unclosed b outer inside more t hprelude hends ht hopen =>
    obtain rfl : rest = [] := hmeets
    have henter : ((g.read outer inside).enter b t).groups = b :: [] := rfl
    rw [List.append_nil, outcome_prelude hprelude, outcome_of_step (step_enter rfl hends ht),
      outcome_unclosed hopen henter]
    have hread : (cover more).reverse ++ ((g.read outer inside).enter b t).read =
        (cover (outer ++ inside ++ t :: more)).reverse := by
      simp [Beginning.read, Prelude.enter, Prelude.push]
    rw [hread]
    change (g.unread.statement _).map _ = _
    cases g.unread.statement (cover (outer ++ inside ++ t :: more)).reverse <;> rfl

theorem outcome_semicolon (hgroups : p.groups = []) (ht : t.kind = .semicolon) (ts : List Token) :
    (⟨enclosing, nodes, some p⟩ : Reading).outcome (t :: ts) =
      (p.statement p.kept).bind fun n => (⟨enclosing, n :: nodes, none⟩ : Reading).outcome ts := by
  have hscan : (⟨enclosing, nodes, some p⟩ : Reading).step t =
      (p.statement p.kept).map fun n => ⟨enclosing, n :: nodes, none⟩ := by
    simp only [step, scan, hgroups, ht]
    rfl
  rw [outcome_cons, hscan]
  cases p.statement p.kept <;> rfl

theorem outcome_opening (hgroups : p.groups = []) (ht : t.kind = .opening .curly)
    (ts : List Token) :
    (⟨enclosing, nodes, some p⟩ : Reading).outcome (t :: ts) =
      (⟨p.block nodes :: enclosing, [], none⟩ : Reading).outcome ts := by
  apply outcome_of_step
  simp only [step, scan, hgroups, ht]

theorem outcome_closing {b : OpenBlock} (ht : t.kind = .closing .curly) (ts : List Token) :
    (⟨b :: enclosing, nodes, none⟩ : Reading).outcome (t :: ts) =
      (⟨enclosing, b.close nodes.reverse :: b.before, none⟩ : Reading).outcome ts := by
  apply outcome_of_step
  simp only [step, ht]
  rfl

/-- Tokens that spell nodes are read as these nodes. -/
theorem outcome_of_spells {ts : List Token} {ns : List Node} (h : Spells e ts ns)
    (hmeets : e.Meets enclosing rest) :
    (⟨enclosing, nodes, none⟩ : Reading).outcome (ts ++ rest) =
      (⟨enclosing, ns.reverse ++ nodes, none⟩ : Reading).outcome rest := by
  induction h generalizing enclosing nodes rest with
  | nil => rfl
  | gap hgap _ ih =>
    rw [List.cons_append, ← ih hmeets]
    apply outcome_of_step
    rcases hgap with hk | hk <;> simp only [step, hk]
  | comment hk _ ih =>
    rw [List.reverse_cons, List.append_assoc, List.cons_append, List.singleton_append, ← ih hmeets]
    apply outcome_of_step
    simp only [step, hk]
    rfl
  | @statement e g head outer inside ts s n ns hleads hprelude hs hn _ ih =>
    rw [List.append_assoc, outcome_leads (hleads.append rest), List.append_assoc (outer ++ inside),
      outcome_prelude hprelude, List.cons_append, outcome_semicolon rfl hs]
    change (g.unread.statement (cover outer).reverse).bind _ = _
    rw [hn.eq_ok, List.reverse_cons, List.append_assoc, List.singleton_append]
    exact ih hmeets
  | @block e g head outer inside body ts o c inner ns hleads hprelude ho _ hc _ ihbody ih =>
    rw [List.append_assoc, outcome_leads (hleads.append rest), List.append_assoc (outer ++ inside),
      outcome_prelude hprelude, List.cons_append, outcome_opening rfl ho, List.append_assoc,
      List.cons_append, ihbody ⟨List.cons_ne_nil _ _, c, _, rfl, hc⟩, List.append_nil,
      outcome_closing hc, List.reverse_reverse, g.close_block, List.reverse_cons, List.append_assoc,
      List.singleton_append]
    exact ih hmeets
  | lastStatement hleads hends hn =>
    rw [List.append_assoc, outcome_leads (hleads.append rest), outcome_endsAt hends hmeets,
      hn.eq_ok]
    rfl
  | @lastBlock g head outer inside body o inner hleads hprelude ho _ ihbody =>
    obtain rfl : rest = [] := hmeets
    rw [List.append_nil, outcome_leads hleads, outcome_prelude hprelude, outcome_opening rfl ho]
    rw [← List.append_nil body, ihbody rfl, List.append_nil, ← g.close_block outer inside nodes,
      outcome_nil, outcome_nil]
    change Except.ok (closeAll enclosing (((g.read outer inside).block nodes).close
      inner.reverse.reverse :: nodes)) = _
    rw [List.reverse_reverse]
    rfl

/-! ## Faults -/

theorem outcome_of_spoils {cause : ParseError.Cause} (hgroups : p.groups = [])
    (h : Spoils (!enclosing.isEmpty) t.kind cause) (ts : List Token) :
    (⟨enclosing, nodes, some p⟩ : Reading).outcome (t :: ts) = .error ⟨cause, p.noted⟩ := by
  apply outcome_of_step_error
  change scan _ p t = _
  unfold scan
  rw [hgroups]
  generalize t.kind = k at h
  cases h with
  | brace hin =>
    have hnil : enclosing = [] := by simpa using hin
    subst hnil
    rfl
  | badString => rfl
  | badUrl => rfl

/-- Tokens that begin with a fault are read as this fault. -/
theorem outcome_of_fault {ts : List Token} {err : ParseError}
    (h : Fault (!enclosing.isEmpty) ts err) :
    (⟨enclosing, nodes, none⟩ : Reading).outcome ts = .error err := by
  cases h with
  | brace ts hin hk =>
    have hnil : enclosing = [] := by simpa using hin
    subst hnil
    apply outcome_of_step_error
    simp only [step, hk]
    rfl
  | token hleads hprelude hspoils =>
    rw [outcome_leads hleads, outcome_prelude hprelude, outcome_of_spoils rfl hspoils]
    rfl
  | @statement g head outer inside ts s err hleads hprelude hs herr =>
    rw [outcome_leads hleads, outcome_prelude hprelude, outcome_semicolon rfl hs]
    change (g.unread.statement (cover outer).reverse).bind _ = _
    rw [herr.eq_error]
    rfl
  | @lastInBlock g head outer inside ts c err hleads hprelude hin hc herr =>
    have hmeets : Ending.Meets enclosing (c :: ts) .brace :=
      ⟨by simpa using hin, c, ts, rfl, hc⟩
    rw [outcome_leads hleads, outcome_prelude hprelude, outcome_last rfl (by decide) hmeets]
    change (g.unread.statement (cover (outer ++ inside)).reverse).bind _ = _
    rw [herr.eq_error]
    rfl
  | @last g head prelude err hleads hends herr =>
    rw [outcome_leads hleads, ← List.append_nil prelude, outcome_endsAt hends rfl, herr.eq_error]
    rfl

theorem outcome_of_fails {inBlock : Bool} {ts : List Token} {err : ParseError}
    (h : Fails inBlock ts err) (hin : inBlock = !enclosing.isEmpty) :
    (⟨enclosing, nodes, none⟩ : Reading).outcome ts = .error err := by
  induction h generalizing enclosing nodes with
  | here hnodes hfault =>
    rw [outcome_of_spells hnodes trivial]
    exact outcome_of_fault (hin ▸ hfault)
  | within hnodes hleads hprelude ho _ ih =>
    rw [outcome_of_spells hnodes trivial, outcome_leads hleads, outcome_prelude hprelude,
      outcome_opening rfl ho]
    exact ih rfl

end

end Reading

/-! ## What is read -/

theorem nodesOf_of_spells {ts : List Token} {ns : List Node} (h : Spells .text ts ns) :
    nodesOf ts = .ok ns := by
  change (⟨[], [], none⟩ : Reading).outcome ts = _
  rw [← List.append_nil ts, Reading.outcome_of_spells h rfl, Reading.outcome_nil]
  change Except.ok (ns.reverse ++ []).reverse = _
  rw [List.append_nil, List.reverse_reverse]

theorem nodesOf_of_fails {ts : List Token} {e : ParseError} (h : Fails false ts e) :
    nodesOf ts = .error e :=
  Reading.outcome_of_fails h rfl

theorem nodesOf_cases (ts : List Token) :
    (∃ ns, Spells .text ts ns ∧ nodesOf ts = .ok ns) ∨
      ∃ e, Fails false ts e ∧ nodesOf ts = .error e := by
  rcases settled false ts with ⟨ns, hns⟩ | ⟨hin, -⟩ | ⟨e, he⟩
  · exact .inl ⟨ns, hns, nodesOf_of_spells hns⟩
  · cases hin
  · exact .inr ⟨e, he, nodesOf_of_fails he⟩

theorem nodesOf_eq_ok_iff {ts : List Token} {ns : List Node} :
    nodesOf ts = .ok ns ↔ Spells .text ts ns := by
  refine ⟨fun h => ?_, nodesOf_of_spells⟩
  rcases nodesOf_cases ts with ⟨ms, hms, hread⟩ | ⟨e, -, hread⟩
  · rw [hread] at h
    cases h
    exact hms
  · rw [hread] at h
    cases h

theorem nodesOf_eq_error_iff {ts : List Token} {e : ParseError} :
    nodesOf ts = .error e ↔ Fails false ts e := by
  refine ⟨fun h => ?_, nodesOf_of_fails⟩
  rcases nodesOf_cases ts with ⟨ms, -, hread⟩ | ⟨e', he, hread⟩
  · rw [hread] at h
    cases h
  · rw [hread] at h
    cases h
    exact he

theorem parse_eq_ok_iff {text : String} {sheet : Stylesheet} :
    parse text = .ok sheet ↔ Spells .text (Token.ofText text.toList) sheet.nodes := by
  unfold parse
  rw [← nodesOf_eq_ok_iff]
  cases nodesOf (Token.ofText text.toList) with
  | error e => simp [Except.map]
  | ok ns =>
    obtain ⟨ms⟩ := sheet
    simp [Except.map]

theorem parse_eq_error_iff {text : String} {e : ParseError} :
    parse text = .error e ↔ Fails false (Token.ofText text.toList) e := by
  unfold parse
  rw [← nodesOf_eq_error_iff]
  cases nodesOf (Token.ofText text.toList) <;> simp [Except.map]

/-- A text is read exactly if its tokens spell nodes, and then these are the nodes of the
stylesheet. Any other text fails with the first fault of its tokens. -/
theorem a_text_is_read_as_its_tokens_spell (text : String) :
    (∀ sheet, parse text = .ok sheet ↔
        Spells .text (Token.ofText text.toList) sheet.nodes) ∧
      ∀ e, parse text = .error e ↔ Fails false (Token.ofText text.toList) e :=
  ⟨fun _ => parse_eq_ok_iff, fun _ => parse_eq_error_iff⟩

end ResponsiveCss.Stylesheet
