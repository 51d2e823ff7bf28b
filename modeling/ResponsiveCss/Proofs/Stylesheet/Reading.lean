-- Reading a text token by token. Each law takes what stands at the beginning
-- of the text and says with which state the rest is read. Places are left
-- open: they only have to exist.
import Mathlib.Data.List.Basic
import ResponsiveCss.Proofs.Token.Calm
import ResponsiveCss.Stylesheet.Parse

namespace ResponsiveCss

open Text

namespace Token

/-! ## The first token of a text -/

/-- Characters that belong to the token before are passed over. -/
theorem listAfter_token {l : Location} {k : Kind} {c : Char} {s own rest : List Char}
    (htext : c :: s = own ++ rest) (hne : own ≠ []) (hlead : lead c s = (k, own.length)) :
    listAfter l 0 (own ++ rest) = ⟨k, own, l⟩ :: listAfter (l.after own) 0 rest := by
  obtain ⟨n, hn⟩ : ∃ n, own.length = n + 1 :=
    ⟨own.length - 1, by have := List.length_pos_iff.mpr hne; omega⟩
  have hown : (c :: s).take own.length = own := by rw [htext, List.take_left]
  have hrest : s.drop n = rest := by
    have := congrArg (List.drop own.length) htext
    rwa [List.drop_left, hn, List.drop_succ_cons] at this
  rw [← htext, listAfter, hlead]
  dsimp only
  rw [hown, hn, Nat.add_sub_cancel, listAfter_skip, hrest]

end Token

namespace Stylesheet.Reading

open Token

/-- The reading goes on through a text that begins at `l`. -/
def readOn (r : Reading) (l : Location) (s : List Char) : Except ParseError Reading :=
  (Token.listAfter l 0 s).foldlM step r

@[simp] theorem readOn_nil (r : Reading) (l : Location) : r.readOn l [] = .ok r := rfl

theorem readOn_token {r : Reading} {l : Location} {k : Kind} {c : Char} {s own rest : List Char}
    (htext : c :: s = own ++ rest) (hne : own ≠ []) (hlead : lead c s = (k, own.length)) :
    r.readOn l (own ++ rest) =
      (r.step ⟨k, own, l⟩).bind fun r => r.readOn (l.after own) rest := by
  unfold readOn
  rw [listAfter_token htext hne hlead]
  rfl

/-- A token of one character. -/
theorem readOn_char {r : Reading} {l : Location} {k : Kind} {c : Char} {s : List Char}
    (hlead : lead c s = (k, 1)) :
    r.readOn l (c :: s) = (r.step ⟨k, [c], l⟩).bind fun r => r.readOn (l.after [c]) s :=
  readOn_token rfl (List.cons_ne_nil c []) hlead

/-! ## Tokens of a calm text -/

/-- The prelude `p'` is `p` with the text behind it, and no group is open any more. -/
structure Scanned (p : Prelude) (text : List Char) (p' : Prelude) : Prop where
  keyword : p'.keyword = p.keyword
  start : p'.start = p.start
  read : p'.read = text.reverse ++ p.read
  groups : p'.groups = []
  /-- Unless it ends with a group, the whole text counts. -/
  kept : text.getLast? ≠ some ')' → p'.kept = p'.read

/-- The groups that parentheses open and close. -/
theorem regroup_replicate {k : Kind} {text : List Char} (h : CalmToken k text) (depth : Nat) :
    Prelude.regroup (List.replicate (depth + 1) .round) k =
      List.replicate (k.depthAfter (depth + 1)) .round := by
  cases h with
  | quiet hk => cases k <;> first | rfl | cases hk
  | opening => rfl
  | call => rfl
  | closing => simp [Prelude.regroup, Kind.depthAfter, List.replicate_succ]

/-- A token of a calm text is pushed; the open groups follow the parentheses. -/
theorem scan_calmToken {r : Reading} {p : Prelude} {t : Token} {depth : Nat} {more : List Char}
    (hcalm : CalmToken t.kind t.text) (hbal : balanced depth (t.text ++ more) = true)
    (hgroups : p.groups = List.replicate depth .round) :
    ∃ p', r.scan p t = .ok { r with pending := some p' } ∧
      p'.groups = List.replicate (t.kind.depthAfter depth) .round ∧
      p'.keyword = p.keyword ∧ p'.start = p.start ∧ p'.read = t.text.reverse ++ p.read ∧
      (more = [] → t.text.getLast? ≠ some ')' → p'.kept = p'.read) := by
  obtain ⟨hafter, hopen⟩ := hcalm.balanced_after hbal
  obtain ⟨k, text, start⟩ := t
  dsimp only at hcalm hafter hopen ⊢
  unfold scan
  rw [hgroups]
  cases depth with
  | zero =>
    -- Outside of groups the token counts at once.
    cases hcalm with
    | quiet hk =>
      refine ⟨p.push ⟨k, text, start⟩, ?_, ?_, rfl, rfl, rfl, fun _ _ => rfl⟩
      · cases k <;> first | rfl | cases hk
      · cases k <;> first | exact hgroups | cases hk
    | opening => exact ⟨p.enter .round ⟨_, _, start⟩, rfl, rfl, rfl, rfl, rfl, fun _ _ => rfl⟩
    | call => exact ⟨p.enter .round ⟨_, _, start⟩, rfl, rfl, rfl, rfl, rfl, fun _ _ => rfl⟩
    | closing => exact absurd rfl (hopen rfl)
  | succ depth =>
    refine ⟨p.pushInside ⟨k, text, start⟩, rfl, ?_, rfl, rfl, rfl, ?_⟩
    · unfold Prelude.pushInside
      rw [hgroups]
      exact regroup_replicate hcalm depth
    · -- The last group ends with a parenthesis.
      rintro rfl hlast
      cases hcalm with
      | quiet hk => cases k <;> first | cases hafter | cases hk
      | opening => cases hafter
      | call => cases hafter
      | closing => exact absurd rfl hlast

section

variable {enclosing : List OpenBlock} {nodes : List Node} {p : Prelude} {l : Location}
  {text rest : List Char} {stop : Char}

/-- The tokens of a calm text are pushed one after the other. -/
theorem readOn_calm_of_ne_nil {depth : Nat} (hne : text ≠ [])
    (hcalm : ∀ c ∈ text, isCalm c = true) (hstop : isStop stop = true)
    (hclean : Clean text (stop :: rest)) (hbal : balanced depth text = true)
    (hgroups : p.groups = List.replicate depth .round) :
    ∃ l' p', (⟨enclosing, nodes, some p⟩ : Reading).readOn l (text ++ stop :: rest) =
      (⟨enclosing, nodes, some p'⟩ : Reading).readOn l' (stop :: rest) ∧ Scanned p text p' := by
  induction hn : text.length using Nat.strongRecOn generalizing text p depth l with
  | _ n ih =>
    subst hn
    cases text with
    | nil => exact absurd rfl hne
    | cons c s =>
      obtain ⟨own, more, htext, hown, hlen, htoken, hmore⟩ := cut_lead hcalm hstop hclean
      generalize hlead : lead c (s ++ stop :: rest) = t at hlen htoken
      obtain ⟨k, len⟩ := t
      dsimp only at hlen htoken
      subst hlen
      rw [htext] at hbal
      obtain ⟨p₁, hscan, hgroups₁, hkeyword, hstart, hread, hkept⟩ :=
        scan_calmToken (r := ⟨enclosing, nodes, some p⟩) (t := ⟨k, own, l⟩) htoken hbal hgroups
      have hbal₁ := (htoken.balanced_after hbal).1
      have hfirst : (⟨enclosing, nodes, some p⟩ : Reading).readOn l (c :: s ++ stop :: rest) =
          (⟨enclosing, nodes, some p₁⟩ : Reading).readOn (l.after own) (more ++ stop :: rest) := by
        have htext' : c :: (s ++ stop :: rest) = own ++ (more ++ stop :: rest) := by
          rw [← List.append_assoc, ← htext, List.cons_append]
        rw [List.cons_append, htext', readOn_token htext' hown hlead]
        change (scan _ p _).bind _ = _
        rw [hscan]
        rfl
      rw [hfirst, htext]
      by_cases hnil : more = []
      · subst hnil
        have hzero : k.depthAfter depth = 0 := by simpa [balanced] using hbal₁
        have hclosed : p₁.groups = [] := by rw [hgroups₁, hzero, List.replicate_zero]
        refine ⟨l.after own, p₁, rfl, hkeyword, hstart, by simpa using hread, hclosed, ?_⟩
        rw [List.append_nil]
        exact hkept rfl
      · have hcalm' : ∀ d ∈ more, isCalm d = true := fun d hd => hcalm d (by rw [htext]; simp [hd])
        have hlt : more.length < (c :: s).length := by
          rw [htext, List.length_append]
          have := List.length_pos_iff.mpr hown
          omega
        obtain ⟨l', p', hrest, hscanned⟩ :=
          ih more.length hlt (l := l.after own) hnil hcalm' hmore hbal₁ hgroups₁ rfl
        refine ⟨l', p', hrest, ?_⟩
        refine ⟨hscanned.keyword.trans hkeyword, hscanned.start.trans hstart, ?_,
          hscanned.groups, ?_⟩
        · rw [hscanned.read, hread]
          simp
        · intro hlast
          apply hscanned.kept
          have hsome : more.getLast? ≠ none := by simpa using hnil
          rwa [List.getLast?_append, Option.or_of_isSome (Option.isSome_iff_ne_none.mpr hsome)]
            at hlast

/-- The same for a calm text that may be empty, behind a prelude that counts whole. -/
theorem readOn_calm (htext : CalmText text) (hstop : isStop stop = true) (hgroups : p.groups = [])
    (hkept : p.kept = p.read) :
    ∃ l' p', (⟨enclosing, nodes, some p⟩ : Reading).readOn l (text ++ stop :: rest) =
      (⟨enclosing, nodes, some p'⟩ : Reading).readOn l' (stop :: rest) ∧ Scanned p text p' := by
  by_cases hne : text = []
  · subst hne
    exact ⟨l, p, rfl, rfl, rfl, rfl, hgroups, fun _ => hkept⟩
  · exact readOn_calm_of_ne_nil hne htext.chars hstop (clean_of_callsUrl htext.noUrl _)
      htext.balanced hgroups

/-- A calm text that does not begin with a space begins a rule or a declaration. -/
theorem readOn_start (hne : text ≠ []) (hspace : text.head? ≠ some ' ')
    (htext : CalmText text) (hstop : isStop stop = true) :
    ∃ l' p', (⟨enclosing, nodes, none⟩ : Reading).readOn l (text ++ stop :: rest) =
      (⟨enclosing, nodes, some p'⟩ : Reading).readOn l' (stop :: rest) ∧
        Scanned (.empty none l l) text p' := by
  have hclean := clean_of_callsUrl htext.noUrl (stop :: rest)
  have hbal := htext.balanced
  have hbegin : (⟨enclosing, nodes, none⟩ : Reading).readOn l (text ++ stop :: rest) =
      (⟨enclosing, nodes, some (.empty none l l)⟩ : Reading).readOn l (text ++ stop :: rest) := by
    cases text with
    | nil => exact absurd rfl hne
    | cons c s =>
      obtain ⟨own, more, hcut, hown, hlen, htoken, -⟩ := cut_lead htext.chars hstop hclean
      generalize hlead : lead c (s ++ stop :: rest) = t at hlen htoken
      obtain ⟨k, len⟩ := t
      dsimp only at hlen htoken
      subst hlen
      have hsplit : c :: (s ++ stop :: rest) = own ++ (more ++ stop :: rest) := by
        rw [← List.append_assoc, ← hcut, List.cons_append]
      rw [List.cons_append, hsplit, readOn_token hsplit hown hlead, readOn_token hsplit hown hlead]
      rw [hcut] at hbal hspace
      congr 1
      cases htoken with
      | quiet hk hp hs =>
        by_cases hk' : k = .space
        · rw [List.head?_append, hs hk'] at hspace
          exact absurd rfl hspace
        · cases k <;> first | rfl | exact absurd rfl hk' | cases hk
      | opening => rfl
      | call => rfl
      | closing => cases hbal
  rw [hbegin]
  exact readOn_calm htext hstop rfl rfl

/-! ## Tokens with a meaning -/

theorem readOn_semicolon (hgroups : p.groups = []) :
    (⟨enclosing, nodes, some p⟩ : Reading).readOn l (';' :: rest) =
      (p.statement p.kept).bind fun n =>
        (⟨enclosing, n :: nodes, none⟩ : Reading).readOn (l.after [';']) rest := by
  rw [readOn_char (k := .semicolon) rfl]
  simp only [step, scan, hgroups]
  cases p.statement p.kept <;> rfl

theorem readOn_open (hgroups : p.groups = []) :
    (⟨enclosing, nodes, some p⟩ : Reading).readOn l ('{' :: rest) =
      (⟨p.block nodes :: enclosing, [], none⟩ : Reading).readOn (l.after ['{']) rest := by
  rw [readOn_char (k := .opening .curly) rfl]
  simp only [step, scan, hgroups]
  rfl

theorem readOn_close {b : OpenBlock} :
    (⟨b :: enclosing, nodes, none⟩ : Reading).readOn l ('}' :: rest) =
      (⟨enclosing, b.close nodes.reverse :: b.before, none⟩ : Reading).readOn (l.after ['}'])
        rest := by
  rw [readOn_char (k := .closing .curly) rfl]
  rfl

/-- The name of an at-rule begins it. -/
theorem readOn_keyword {name : List Char} (hfirst : startsName (name ++ rest) = true)
    (hname : ∀ c ∈ name, isWord c = true) (hends : EndsName rest) :
    ∃ l', (⟨enclosing, nodes, none⟩ : Reading).readOn l ('@' :: name ++ rest) =
      (⟨enclosing, nodes, some (.empty (some (String.ofList name)) l l')⟩ : Reading).readOn l'
        rest := by
  have hlead : lead '@' (name ++ rest) = (.atKeyword, ('@' :: name).length) := by
    change (if startsName (name ++ rest) then _ else _) = _
    rw [if_pos hfirst, nameLength_word hname hends]
    rfl
  refine ⟨l.after ('@' :: name), ?_⟩
  rw [readOn_token (c := '@') rfl (by simp) hlead]
  have hkeyword : Token.keyword ⟨.atKeyword, '@' :: name, l⟩ = String.ofList name := by
    simp [Token.keyword, unescape_word hname]
  change ((⟨enclosing, nodes, some (.empty (some (Token.keyword ⟨_, _, _⟩)) l _)⟩ : Reading)).readOn
    _ rest = _
  rw [hkeyword]
  rfl

theorem lead_of_isSpace {c : Char} (h : isSpace c = true) (s : List Char) :
    lead c s = (.space, spacesLength s + 1) := by
  simp only [isSpace, isLineBreak, Bool.or_eq_true, decide_eq_true_eq] at h
  rcases h with (h | h) | (h | h) | h <;> subst h <;> rfl

theorem commentLength_append {s : List Char} (h : ¬ ['*', '/'] <:+: s) :
    commentLength (s ++ '*' :: '/' :: rest) = s.length + 2 := by
  induction s with
  | nil => rfl
  | cons c s ih =>
    rw [List.infix_cons_iff, not_or] at h
    have hopen : ∀ s', c = '*' → s ++ '*' :: '/' :: rest = '/' :: s' → False := by
      -- The slash behind the star would have to be the first character of `s`.
      intro s' hc hs'
      cases s with
      | nil => cases hs'
      | cons d s =>
        cases hs'
        exact h.1 (by simp [hc])
    rw [List.cons_append, commentLength.eq_2 _ _ hopen, ih h.2, List.length_cons]

/-- A comment is a node of its own. -/
theorem readOn_comment {body : List Char} (h : ¬ ['*', '/'] <:+: body) :
    ∃ l', (⟨enclosing, nodes, none⟩ : Reading).readOn l
        ('/' :: '*' :: (body ++ ['*', '/']) ++ rest) =
      (⟨enclosing, .comment (String.ofList (trim body)) l :: nodes, none⟩ : Reading).readOn l'
        rest := by
  have hlead : lead '/' ('*' :: (body ++ ['*', '/']) ++ rest) =
      (.comment, ('/' :: '*' :: (body ++ ['*', '/'])).length) := by
    change (Kind.comment, commentLength ((body ++ ['*', '/']) ++ rest) + 2) = _
    rw [List.append_assoc]
    change (Kind.comment, commentLength (body ++ '*' :: '/' :: rest) + 2) = _
    rw [commentLength_append h]
    simp
  refine ⟨l.after ('/' :: '*' :: (body ++ ['*', '/'])), ?_⟩
  rw [readOn_token (c := '/') rfl (by simp) hlead]
  have hbody : Token.commentBody ⟨.comment, '/' :: '*' :: (body ++ ['*', '/']), l⟩ = body := by
    have htail : ['*', '/'].isSuffixOf? (body ++ ['*', '/']) = some body :=
      List.isSuffixOf?_eq_some_iff_append_eq.mpr rfl
    simp [Token.commentBody, htail]
  change ((⟨enclosing, .comment (String.ofList (trim (Token.commentBody ⟨_, _, _⟩))) l :: nodes,
    none⟩ : Reading)).readOn _ rest = _
  rw [hbody]

/-- White space between nodes is passed over. -/
theorem readOn_gap {gap : List Char} (hgap : ∀ c ∈ gap, isSpace c = true)
    (hrest : ∀ c, rest.head? = some c → isSpace c = false) :
    ∃ l', (⟨enclosing, nodes, none⟩ : Reading).readOn l (gap ++ rest) =
      (⟨enclosing, nodes, none⟩ : Reading).readOn l' rest := by
  cases gap with
  | nil => exact ⟨l, rfl⟩
  | cons c gap =>
    have hlen : spacesLength (gap ++ rest) = gap.length := by
      unfold spacesLength
      rw [List.takeWhile_append_of_pos fun d hd => hgap d (by simp [hd]), List.length_append]
      have hnone : rest.takeWhile isSpace = [] := by
        cases rest with
        | nil => rfl
        | cons d rest => exact List.takeWhile_cons_of_neg (by simp [hrest d rfl])
      rw [hnone]
      rfl
    have hlead : lead c (gap ++ rest) = (.space, (c :: gap).length) := by
      rw [List.length_cons, ← hlen]
      exact lead_of_isSpace (hgap c (by simp)) _
    refine ⟨l.after (c :: gap), ?_⟩
    rw [readOn_token (c := c) rfl (by simp) hlead]
    rfl

end

end Stylesheet.Reading

end ResponsiveCss
