-- The reading of a stylesheet as a cursor does it that moves along the text. One
-- loop goes over the nodes of a block; it looks at a token, and if a rule or a
-- declaration begins there, it goes back in front of it. Another loop goes over
-- the tokens of a prelude. No loop enters a group: the cursor stays behind the
-- opening bracket and passes over the group before the next token. All of this
-- comes to what the tokens are read as one after the other.
import ResponsiveCss.Proofs.Stylesheet.Derivation
import ResponsiveCss.Proofs.Token.Boundary

namespace ResponsiveCss

/-- Tokens that tile a text are the ones that it is cut into. -/
theorem Token.Tiled.listAfter_cover {l : Location} {ts : List Token} (h : Tiled l ts) :
    listAfter l 0 (cover ts) = ts := by
  induction ts generalizing l with
  | nil => rfl
  | cons t ts ih =>
    obtain ⟨rfl, hlead, hrest⟩ := h
    rw [cover_cons, hlead.listAfter_eq, ih hrest]

namespace Stylesheet

open Text
open Token (cover cover_cons cover_nil cover_append Tiled)

/-! ## Tokens by their offset -/

/-- The tokens from an offset of a text on. -/
def tokensFrom (s : List Char) (i : Nat) : List Token :=
  Token.listAfter (.ofOffset s i) 0 (s.drop i)

/-- A token of the text begins at the offset, or the text ends there. -/
def IsCut (s : List Char) (i : Nat) : Prop :=
  ∃ before behind, Token.ofText s = before ++ behind ∧ i = (cover before).length

/-- The stretch of a text between two offsets. -/
def slice (s : List Char) (i k : Nat) : List Char := (s.take k).drop i

section

variable {s : List Char} {i : Nat} {front rest : List Token} {t : Token}

theorem cover_tokensFrom (s : List Char) (i : Nat) : cover (tokensFrom s i) = s.drop i :=
  (Token.tiled_listAfter _ _).1

theorem start_of_tokensFrom (h : tokensFrom s i = t :: rest) : t.start = .ofOffset s i := by
  have htiled := (Token.tiled_listAfter (.ofOffset s i) (s.drop i)).2
  change Tiled _ (tokensFrom s i) at htiled
  rw [h] at htiled
  exact htiled.1

theorem length_le_of_tokensFrom (h : tokensFrom s i = front ++ rest) (hi : i ≤ s.length) :
    i + (cover front).length ≤ s.length := by
  have hlen := congrArg List.length (cover_tokensFrom s i)
  rw [h, cover_append, List.length_append, List.length_drop] at hlen
  omega

/-- A token moves the offset forward, but not out of the text. -/
theorem lt_of_tokensFrom (h : tokensFrom s i = t :: rest) :
    0 < t.text.length ∧ i + t.text.length ≤ s.length := by
  have htiled := (Token.tiled_listAfter (.ofOffset s i) (s.drop i)).2
  change Tiled _ (tokensFrom s i) at htiled
  rw [h] at htiled
  have hpos := List.length_pos_iff.mpr htiled.2.1.ne_nil
  have hlen := congrArg List.length (cover_tokensFrom s i)
  rw [h, cover_cons, List.length_append, List.length_drop] at hlen
  omega

theorem tokensFrom_cut {before behind : List Token} (h : Token.ofText s = before ++ behind) :
    tokensFrom s (cover before).length = behind := by
  have htiled := Token.tiled_ofText s
  have hcover := Token.cover_ofText s
  rw [h] at htiled hcover
  rw [cover_append] at hcover
  unfold tokensFrom
  rw [Location.ofOffset_eq, ← hcover, List.take_left, List.drop_left, htiled.tail.2.listAfter_cover]

theorem IsCut.start (s : List Char) : IsCut s 0 := ⟨[], Token.ofText s, rfl, rfl⟩

/-- Behind the first tokens from a cut there is another cut, with the others. -/
theorem IsCut.behind (hcut : IsCut s i) (h : tokensFrom s i = front ++ rest) :
    IsCut s (i + (cover front).length) ∧ tokensFrom s (i + (cover front).length) = rest := by
  obtain ⟨before, behind, htext, rfl⟩ := hcut
  rw [tokensFrom_cut htext] at h
  subst h
  have htext' : Token.ofText s = (before ++ front) ++ rest := by rw [htext, List.append_assoc]
  have hlen : (cover before).length + (cover front).length = (cover (before ++ front)).length := by
    rw [cover_append, List.length_append]
  rw [hlen]
  exact ⟨⟨_, _, htext', rfl⟩, tokensFrom_cut htext'⟩

theorem IsCut.stop_eq (hcut : IsCut s i) (h : tokensFrom s i = t :: rest) :
    t.stop = .ofOffset s (i + t.text.length) := by
  obtain ⟨before, behind, htext, rfl⟩ := hcut
  rw [tokensFrom_cut htext] at h
  subst h
  have htiled := Token.tiled_ofText s
  have hcover := Token.cover_ofText s
  rw [htext] at htiled hcover
  have hsplit : s = cover (before ++ [t]) ++ cover rest := by rw [← hcover]; simp
  have hlen : (cover before).length + t.text.length = (cover (before ++ [t])).length := by simp
  rw [htiled.stop_eq, Location.ofOffset_eq, hlen]
  congr 1
  rw [hsplit, List.take_left]

theorem IsCut.le (hcut : IsCut s i) : i ≤ s.length := by
  obtain ⟨before, behind, htext, rfl⟩ := hcut
  have hcover := congrArg List.length (Token.cover_ofText s)
  rw [htext, cover_append, List.length_append] at hcover
  omega

theorem slice_behind {k : Nat} (hcut : IsCut s i) (h : tokensFrom s i = front ++ rest)
    (hk : k ≤ i) : slice s k (i + (cover front).length) = slice s k i ++ cover front := by
  have hfront : (s.drop i).take (cover front).length = cover front := by
    rw [← cover_tokensFrom, h, cover_append, List.take_left]
  have hle := hcut.le
  unfold slice
  rw [List.take_add, hfront, List.drop_append_of_le_length]
  rw [List.length_take]
  omega

end

/-! ## Groups that are passed over -/

/-- The tokens of open groups, from the front through the brackets that close them. -/
def skipped : List Bracket → List Token → List Token
  | [], _ => []
  | _ :: _, [] => []
  | b :: groups, t :: ts => t :: skipped (Prelude.regroup (b :: groups) t.kind) ts

/-- The offset at which the groups that are open at another are closed. -/
def behindGroups (s : List Char) (groups : List Bracket) (i : Nat) : Nat :=
  i + (cover (skipped groups (tokensFrom s i))).length

@[simp] theorem skipped_nil (ts : List Token) : skipped [] ts = [] := by
  rw [skipped]

@[simp] theorem behindGroups_nil (s : List Char) (i : Nat) : behindGroups s [] i = i := by
  simp [behindGroups]

theorem skipped_of_nil (groups : List Bracket) : skipped groups [] = [] := by
  cases groups <;> rfl

theorem skipped_closing {t : Token} {b : Bracket} (hk : t.kind = .closing b) (ts : List Token) :
    skipped [b] (t :: ts) = [t] := by
  rw [skipped, regroup_closing hk, skipped_nil]

theorem exists_skipped (groups : List Bracket) (ts : List Token) :
    ∃ rest, ts = skipped groups ts ++ rest := by
  induction ts generalizing groups with
  | nil => exact ⟨[], by rw [skipped_of_nil, List.nil_append]⟩
  | cons t ts ih =>
    cases groups with
    | nil => exact ⟨t :: ts, by simp⟩
    | cons b groups =>
      obtain ⟨rest, hrest⟩ := ih (Prelude.regroup (b :: groups) t.kind)
      exact ⟨rest, by rw [skipped, List.cons_append, ← hrest]⟩

section

variable {s : List Char} {i : Nat}

theorem le_behindGroups (s : List Char) (groups : List Bracket) (i : Nat) :
    i ≤ behindGroups s groups i := Nat.le_add_right _ _

theorem behindGroups_of_nil (groups : List Bracket) (h : tokensFrom s i = []) :
    behindGroups s groups i = i := by
  unfold behindGroups
  rw [h, skipped_of_nil, cover_nil, List.length_nil, Nat.add_zero]

theorem behindGroups_le (groups : List Bracket) (hi : i ≤ s.length) :
    behindGroups s groups i ≤ s.length := by
  obtain ⟨rest, hrest⟩ := exists_skipped groups (tokensFrom s i)
  exact length_le_of_tokensFrom hrest hi

theorem IsCut.behindGroups (hcut : IsCut s i) (groups : List Bracket) :
    IsCut s (behindGroups s groups i) ∧
      tokensFrom s i = skipped groups (tokensFrom s i) ++
        tokensFrom s (Stylesheet.behindGroups s groups i) := by
  obtain ⟨rest, hrest⟩ := exists_skipped groups (tokensFrom s i)
  obtain ⟨hbehind, htokens⟩ := hcut.behind hrest
  refine ⟨hbehind, ?_⟩
  unfold Stylesheet.behindGroups
  rw [htokens]
  exact hrest

end

/-! ## The cursor -/

/-- A place in a text between two tokens. -/
structure Cursor where
  offset : Nat
  /-- The group that the token in front has opened. It is passed over before the next token. -/
  unentered : Option Bracket
deriving DecidableEq, Repr

namespace Cursor

/-- The offset at which the next token is looked for. -/
def settled (s : List Char) (c : Cursor) : Nat := behindGroups s c.unentered.toList c.offset

/-- The next token, and the cursor behind it. There is none at the end of the text and, in a block,
in front of a closing brace. -/
def next (s : List Char) (inBlock : Bool) (c : Cursor) : Option Token × Cursor :=
  match tokensFrom s (c.settled s) with
  | [] => (none, ⟨c.settled s, none⟩)
  | t :: _ =>
    if inBlock && t.kind == .closing .curly then (none, ⟨c.settled s, none⟩)
    else (some t, ⟨c.settled s + t.text.length, t.opened?⟩)

/-- The input ends where the next token is looked for. -/
def InputEnds (s : List Char) (inBlock : Bool) (i : Nat) : Prop :=
  tokensFrom s i = [] ∨
    inBlock = true ∧ ∃ t ts, tokensFrom s i = t :: ts ∧ t.kind = .closing .curly

variable {s : List Char} {inBlock : Bool} {c c' : Cursor} {t : Token}

theorem next_eq_none (h : c.next s inBlock = (none, c')) :
    c' = ⟨c.settled s, none⟩ ∧ InputEnds s inBlock (c.settled s) := by
  unfold next at h
  split at h
  · rename_i hnil
    cases h
    exact ⟨rfl, .inl hnil⟩
  · rename_i t ts htokens
    split at h
    · rename_i hbrace
      cases h
      simp only [Bool.and_eq_true, beq_iff_eq] at hbrace
      exact ⟨rfl, .inr ⟨hbrace.1, t, ts, htokens, hbrace.2⟩⟩
    · cases h

theorem next_eq_some (h : c.next s inBlock = (some t, c')) :
    c' = ⟨c.settled s + t.text.length, t.opened?⟩ ∧
      (∃ ts, tokensFrom s (c.settled s) = t :: ts) ∧
      (inBlock = true → t.kind ≠ .closing .curly) := by
  unfold next at h
  split at h
  · cases h
  · rename_i ts htokens
    split at h
    · cases h
    · rename_i hbrace
      cases h
      refine ⟨rfl, ⟨ts, htokens⟩, fun hin hk => hbrace ?_⟩
      simp [hin, hk]

/-- Where the input ends, it stays ended. -/
theorem next_of_inputEnds {i : Nat} (h : InputEnds s inBlock i) :
    (⟨i, none⟩ : Cursor).next s inBlock = (none, ⟨i, none⟩) := by
  have hsettled : (⟨i, none⟩ : Cursor).settled s = i := behindGroups_nil s i
  unfold next
  rw [hsettled]
  rcases h with hnil | ⟨hin, t, ts, htokens, hk⟩
  · rw [hnil]
  · rw [htokens]
    simp [hin, hk]

end Cursor

/-! ## The loops -/

/-- A prelude whose tokens are being passed. -/
structure Scanning where
  /-- The name of an at-rule; a style rule or a declaration has none. -/
  keyword : Option String
  /-- The place where the node begins. -/
  start : Location
  /-- The offset at which the prelude begins. -/
  offset : Nat
deriving DecidableEq, Repr

/-- The node that a text is without a block. -/
def Scanning.node (p : Scanning) (text : List Char) : Except ParseError Node :=
  match p.keyword with
  | some name => .ok (.statement name (String.ofList (trim text)) p.start)
  | none => (Declaration.ofText text p.start).map .declaration

/-- How far the loops have come: the one over the nodes of the innermost block, and the one over
the tokens of a prelude, if it runs. -/
structure Descent where
  cursor : Cursor
  /-- The open blocks, innermost first. -/
  enclosing : List OpenBlock
  /-- The finished nodes of the innermost block, last first. -/
  nodes : List Node
  scanning : Option Scanning
deriving Repr

namespace Descent

/-- Nothing has been read. -/
def start : Descent := ⟨⟨0, none⟩, [], [], none⟩

/-- The next token for the innermost loop. -/
def next (s : List Char) (x : Descent) : Option Token × Cursor :=
  x.cursor.next s (!x.enclosing.isEmpty)

/-- One turn of the innermost loop that does not end the reading. -/
inductive Turn (s : List Char) (x : Descent) : Descent → Prop
  /-- White space and semicolons between nodes. -/
  | gap (t : Token) (c : Cursor) : x.scanning = none → x.next s = (some t, c) →
    t.kind = .space ∨ t.kind = .semicolon → Turn s x ⟨c, x.enclosing, x.nodes, none⟩
  | comment (t : Token) (c : Cursor) : x.scanning = none → x.next s = (some t, c) →
    t.kind = .comment → Turn s x ⟨c, x.enclosing,
      .comment (String.ofList (trim t.commentBody)) (.ofOffset s x.cursor.offset) :: x.nodes, none⟩
  /-- The name of an at-rule, and behind it a prelude. -/
  | keyword (t : Token) (c : Cursor) : x.scanning = none → x.next s = (some t, c) →
    t.kind = .atKeyword → Turn s x ⟨c, x.enclosing, x.nodes,
      some ⟨some t.keyword, .ofOffset s x.cursor.offset, c.offset⟩⟩
  /-- The beginning of a rule or a declaration; the cursor goes back in front of the token. -/
  | back (t : Token) (c : Cursor) : x.scanning = none → x.next s = (some t, c) →
    t.kind ∉ [.space, .comment, .atKeyword, .semicolon, .closing .curly] →
    Turn s x ⟨x.cursor, x.enclosing, x.nodes,
      some ⟨none, .ofOffset s x.cursor.offset, x.cursor.offset⟩⟩
  /-- The end of a block; what is left of it is passed over. -/
  | leave (b : OpenBlock) (more : List OpenBlock) (c : Cursor) : x.scanning = none →
    x.next s = (none, c) → x.enclosing = b :: more → Turn s x
      ⟨⟨behindGroups s [.curly] c.offset, none⟩, more, b.close x.nodes.reverse :: b.before, none⟩
  /-- A token of a prelude. -/
  | token (p : Scanning) (t : Token) (c : Cursor) : x.scanning = some p →
    x.next s = (some t, c) → t.kind.endsPrelude = false →
    Turn s x ⟨c, x.enclosing, x.nodes, some p⟩
  | statement (p : Scanning) (t : Token) (c : Cursor) (n : Node) : x.scanning = some p →
    x.next s = (some t, c) → t.kind = .semicolon →
    p.node (slice s p.offset x.cursor.offset) = .ok n →
    Turn s x ⟨c, x.enclosing, n :: x.nodes, none⟩
  /-- A node that ends with its block or with the text. -/
  | last (p : Scanning) (c : Cursor) (n : Node) : x.scanning = some p → x.next s = (none, c) →
    p.node (slice s p.offset c.offset) = .ok n → Turn s x ⟨c, x.enclosing, n :: x.nodes, none⟩
  /-- The beginning of a block. -/
  | block (p : Scanning) (t : Token) (c : Cursor) : x.scanning = some p →
    x.next s = (some t, c) → t.kind = .opening .curly → Turn s x
      ⟨⟨c.offset, none⟩, ⟨p.keyword, String.ofList (trim (slice s p.offset x.cursor.offset)),
        p.start, x.nodes⟩ :: x.enclosing, [], none⟩

/-- A turn that ends the reading. -/
inductive Ends (s : List Char) (x : Descent) : Except ParseError (List Node) → Prop
  | text (c : Cursor) : x.scanning = none → x.next s = (none, c) → x.enclosing = [] →
    Ends s x (.ok x.nodes.reverse)
  | brace (t : Token) (c : Cursor) : x.scanning = none → x.next s = (some t, c) →
    t.kind = .closing .curly → Ends s x (.error ⟨.unexpectedBrace, .ofOffset s x.cursor.offset⟩)
  /-- A token that no prelude holds. -/
  | spoiled (p : Scanning) (t : Token) (c : Cursor) (cause : ParseError.Cause) :
    x.scanning = some p → x.next s = (some t, c) → Spoils false t.kind cause →
    Ends s x (.error ⟨cause, .ofOffset s x.cursor.offset⟩)
  | misspelled (p : Scanning) (t : Token) (c : Cursor) (e : ParseError) : x.scanning = some p →
    x.next s = (some t, c) → t.kind = .semicolon →
    p.node (slice s p.offset x.cursor.offset) = .error e → Ends s x (.error e)
  | lastMisspelled (p : Scanning) (c : Cursor) (e : ParseError) : x.scanning = some p →
    x.next s = (none, c) → p.node (slice s p.offset c.offset) = .error e → Ends s x (.error e)

/-- Every loop can go on, or the reading ends. -/
theorem turn_or_ends (s : List Char) (x : Descent) :
    (∃ y, Turn s x y) ∨ ∃ r, Ends s x r := by
  rcases hnext : x.next s with ⟨found, c⟩
  cases hscanning : x.scanning with
  | none =>
    cases found with
    | none =>
      cases henclosing : x.enclosing with
      | nil => exact .inr ⟨_, .text c hscanning hnext henclosing⟩
      | cons b more => exact .inl ⟨_, .leave b more c hscanning hnext henclosing⟩
    | some t =>
      by_cases hgap : t.kind = .space ∨ t.kind = .semicolon
      · exact .inl ⟨_, .gap t c hscanning hnext hgap⟩
      by_cases hcomment : t.kind = .comment
      · exact .inl ⟨_, .comment t c hscanning hnext hcomment⟩
      by_cases hkeyword : t.kind = .atKeyword
      · exact .inl ⟨_, .keyword t c hscanning hnext hkeyword⟩
      by_cases hbrace : t.kind = .closing .curly
      · exact .inr ⟨_, .brace t c hscanning hnext hbrace⟩
      · rw [not_or] at hgap
        refine .inl ⟨_, .back t c hscanning hnext ?_⟩
        simp [hgap, hcomment, hkeyword, hbrace]
  | some p =>
    cases found with
    | none =>
      cases hnode : p.node (slice s p.offset c.offset) with
      | ok n => exact .inl ⟨_, .last p c n hscanning hnext hnode⟩
      | error e => exact .inr ⟨_, .lastMisspelled p c e hscanning hnext hnode⟩
    | some t =>
      cases hends : t.kind.endsPrelude with
      | false => exact .inl ⟨_, .token p t c hscanning hnext hends⟩
      | true =>
        unfold Token.Kind.endsPrelude at hends
        split at hends
        · rename_i hk
          cases hnode : p.node (slice s p.offset x.cursor.offset) with
          | ok n => exact .inl ⟨_, .statement p t c n hscanning hnext hk hnode⟩
          | error e => exact .inr ⟨_, .misspelled p t c e hscanning hnext hk hnode⟩
        · rename_i hk
          exact .inl ⟨_, .block p t c hscanning hnext hk⟩
        · rename_i hk
          have hspoils : Spoils false t.kind .unexpectedBrace := by rw [hk]; exact .brace rfl
          exact .inr ⟨_, .spoiled p t c _ hscanning hnext hspoils⟩
        · rename_i hk
          have hspoils : Spoils false t.kind .unclosedString := by rw [hk]; exact .badString
          exact .inr ⟨_, .spoiled p t c _ hscanning hnext hspoils⟩
        · rename_i hk
          have hspoils : Spoils false t.kind .malformedUrl := by rw [hk]; exact .badUrl
          exact .inr ⟨_, .spoiled p t c _ hscanning hnext hspoils⟩
        · cases hends

end Descent

/-! ## What comes of the loops -/

namespace Cursor

variable {s : List Char} {inBlock : Bool} {c c' : Cursor} {t : Token}

theorem isCut_settled (hcut : IsCut s c.offset) : IsCut s (c.settled s) :=
  (hcut.behindGroups _).1

/-- The next token stands where it is looked for, and the cursor comes to stand behind it. -/
theorem tokens_of_next (hcut : IsCut s c.offset) (h : c.next s inBlock = (some t, c')) :
    tokensFrom s (c.settled s) = t :: tokensFrom s c'.offset ∧ IsCut s c'.offset ∧
      t.stop = .ofOffset s c'.offset := by
  obtain ⟨rfl, ⟨ts, htokens⟩, -⟩ := next_eq_some h
  have hsettled := isCut_settled hcut
  have hfront : tokensFrom s (c.settled s) = [t] ++ ts := htokens
  obtain ⟨hbehind, hts⟩ := hsettled.behind hfront
  rw [cover_cons, cover_nil, List.append_nil] at hbehind hts
  exact ⟨by rw [hts, htokens], hbehind, hsettled.stop_eq htokens⟩

end Cursor

/-- The prelude as the tokens are read: read up to the offset `i`, with the text up to `k` that
counts. -/
def Scanning.prelude (s : List Char) (p : Scanning) (k i : Nat) (groups : List Bracket) :
    Prelude :=
  ⟨p.keyword, p.start, (slice s p.offset i).reverse, (slice s p.offset k).reverse, .ofOffset s k,
    groups⟩

section

variable (s : List Char) (p : Scanning) (k i : Nat) (groups : List Bracket)

theorem Scanning.statement_prelude (text : List Char) :
    (p.prelude s k i groups).statement text.reverse = p.node text := by
  unfold Prelude.statement node prelude
  cases p.keyword <;> simp

theorem Scanning.statement_kept :
    (p.prelude s k i groups).statement (p.prelude s k i groups).kept =
      p.node (slice s p.offset k) := p.statement_prelude s k i groups _

theorem Scanning.statement_read :
    (p.prelude s k i groups).statement (p.prelude s k i groups).read =
      p.node (slice s p.offset i) := p.statement_prelude s k i groups _

end

/-- A prelude of which nothing has been passed. -/
theorem Scanning.prelude_unread (s : List Char) (keyword : Option String) (l : Location) (k : Nat) :
    (⟨keyword, l, k⟩ : Scanning).prelude s k k [] = .empty keyword l (.ofOffset s k) := by
  have hnil : slice s k k = [] := by
    unfold slice
    rw [List.drop_eq_nil_iff, List.length_take]
    omega
  unfold prelude
  rw [hnil]
  rfl

/-- The tokens of open groups are read but do not count. -/
theorem Reading.outcome_skipped (enclosing : List OpenBlock) (nodes : List Node) {p : Prelude}
    {ts rest : List Token} (h : ts = skipped p.groups ts ++ rest) :
    ∃ left, (left = [] ∨ rest = []) ∧ (⟨enclosing, nodes, some p⟩ : Reading).outcome ts =
      (⟨enclosing, nodes, some { p with
        read := (cover (skipped p.groups ts)).reverse ++ p.read
        groups := left }⟩ : Reading).outcome rest := by
  induction ts generalizing p with
  | nil =>
    rw [skipped_of_nil, List.nil_append] at h
    subst h
    exact ⟨p.groups, .inr rfl, by rw [skipped_of_nil]; rfl⟩
  | cons t ts ih =>
    cases hgroups : p.groups with
    | nil =>
      rw [hgroups, skipped_nil, List.nil_append] at h
      subst h
      refine ⟨[], .inl rfl, ?_⟩
      rw [skipped_nil, ← hgroups]
      rfl
    | cons b groups =>
      rw [hgroups, skipped, List.cons_append, List.cons.injEq] at h
      have hpushed : (p.pushInside t).groups = Prelude.regroup (b :: groups) t.kind := by
        rw [← hgroups]
        rfl
      rw [← hpushed] at h
      obtain ⟨left, hleft, houtcome⟩ := ih h.2
      refine ⟨left, hleft, ?_⟩
      rw [outcome_inside_token (by simp [hgroups]), houtcome, skipped, hpushed]
      simp [Prelude.pushInside]

namespace Descent

/-- What has been read as the tokens are read one after the other. -/
def reading (s : List Char) (x : Descent) : Reading :=
  ⟨x.enclosing, x.nodes, x.scanning.map fun p =>
    p.prelude s x.cursor.offset x.cursor.offset x.cursor.unentered.toList⟩

/-- What comes of the rest of the text. -/
def outcome (s : List Char) (x : Descent) : Except ParseError (List Node) :=
  (x.reading s).outcome (tokensFrom s x.cursor.offset)

/-- The cursor is between two tokens, between nodes it is behind no open group, and a prelude
begins in front of it. -/
structure Fits (s : List Char) (x : Descent) : Prop where
  cut : IsCut s x.cursor.offset
  entered : x.scanning = none → x.cursor.unentered = none
  behind : ∀ p, x.scanning = some p → p.offset ≤ x.cursor.offset

theorem Fits.between {s : List Char} {x : Descent} (hcut : IsCut s x.cursor.offset)
    (hentered : x.cursor.unentered = none) (hnone : x.scanning = none) : Fits s x := by
  refine ⟨hcut, fun _ => hentered, fun p hp => ?_⟩
  rw [hnone] at hp
  cases hp

theorem Fits.within {s : List Char} {x : Descent} {p : Scanning} (hcut : IsCut s x.cursor.offset)
    (hp : x.scanning = some p) (hle : p.offset ≤ x.cursor.offset) : Fits s x := by
  refine ⟨hcut, fun hnone => ?_, fun q hq => ?_⟩
  · rw [hp] at hnone
    cases hnone
  · rw [hp] at hq
    cases hq
    exact hle

theorem fits_start (s : List Char) : Fits s start := .between (.start s) rfl rfl

theorem outcome_start (s : List Char) : start.outcome s = nodesOf (Token.ofText s) := by
  unfold outcome
  rw [show start.cursor.offset = (cover []).length from rfl,
    tokensFrom_cut (List.nil_append _).symm]
  rfl

section

variable {s : List Char} {x y : Descent} {p : Scanning} {t : Token} {c : Cursor}

theorem settled_of_none (hfits : Fits s x) (hnone : x.scanning = none) :
    x.cursor.settled s = x.cursor.offset := by
  unfold Cursor.settled
  rw [hfits.entered hnone]
  exact behindGroups_nil s _

theorem outcome_of_none (hnone : x.scanning = none) :
    x.outcome s =
      (⟨x.enclosing, x.nodes, none⟩ : Reading).outcome (tokensFrom s x.cursor.offset) := by
  unfold outcome reading
  rw [hnone]
  rfl

/-- Passing over a group is reading its tokens. -/
theorem outcome_of_scanning (hfits : Fits s x) (hp : x.scanning = some p) :
    ∃ left, (left = [] ∨ tokensFrom s (x.cursor.settled s) = []) ∧
      x.outcome s = (⟨x.enclosing, x.nodes, some (p.prelude s x.cursor.offset
        (x.cursor.settled s) left)⟩ : Reading).outcome (tokensFrom s (x.cursor.settled s)) := by
  have hsplit := (hfits.cut.behindGroups x.cursor.unentered.toList).2
  have hslice := slice_behind hfits.cut hsplit (hfits.behind p hp)
  obtain ⟨left, hleft, houtcome⟩ := Reading.outcome_skipped x.enclosing x.nodes
    (p := p.prelude s x.cursor.offset x.cursor.offset x.cursor.unentered.toList) hsplit
  refine ⟨left, hleft, ?_⟩
  unfold outcome reading
  rw [hp, Option.map_some, houtcome]
  unfold Scanning.prelude
  dsimp only
  rw [← List.reverse_append, ← hslice]
  rfl

theorem unentered_of_next (hnext : x.next s = (some t, c)) : c.unentered = t.opened? := by
  rw [(Cursor.next_eq_some hnext).1]

/-- A turn keeps the cursor where it fits. -/
theorem Turn.fits (hturn : Turn s x y) (hfits : Fits s x) : Fits s y := by
  have hsettled := Cursor.isCut_settled hfits.cut
  have hcut : ∀ {t c}, x.next s = (some t, c) → IsCut s c.offset :=
    fun h => (Cursor.tokens_of_next hfits.cut h).2.1
  cases hturn with
  | gap t c _ hnext hk =>
    refine .between (hcut hnext) ?_ rfl
    rw [unentered_of_next hnext]
    rcases hk with hk | hk <;> simp [Token.opened?, hk]
  | comment t c _ hnext hk =>
    refine .between (hcut hnext) ?_ rfl
    simp [unentered_of_next hnext, Token.opened?, hk]
  | keyword t c _ hnext _ => exact .within (hcut hnext) rfl (Nat.le_refl _)
  | back t c _ _ _ => exact .within hfits.cut rfl (Nat.le_refl _)
  | leave b more c _ hnext _ =>
    obtain ⟨rfl, -⟩ := Cursor.next_eq_none hnext
    exact .between (hsettled.behindGroups _).1 rfl rfl
  | token p t c hp hnext _ =>
    refine .within (hcut hnext) rfl ?_
    have hle := hfits.behind p hp
    have hforward := le_behindGroups s x.cursor.unentered.toList x.cursor.offset
    rw [(Cursor.next_eq_some hnext).1]
    exact Nat.le_trans hle (Nat.le_trans hforward (Nat.le_add_right _ _))
  | statement p t c n _ hnext hk _ =>
    refine .between (hcut hnext) ?_ rfl
    simp [unentered_of_next hnext, Token.opened?, hk]
  | last p c n _ hnext _ =>
    obtain ⟨rfl, -⟩ := Cursor.next_eq_none hnext
    exact .between hsettled rfl rfl
  | block p t c _ hnext _ =>
    have hbehind := hcut hnext
    exact .between hbehind rfl rfl

/-- Between nodes a turn changes nothing about what comes of the text. -/
theorem Turn.outcome_eq_of_none (hturn : Turn s x y) (hfits : Fits s x)
    (hnone : x.scanning = none) : x.outcome s = y.outcome s := by
  have hsettled := settled_of_none hfits hnone
  rw [outcome_of_none hnone]
  cases hturn with
  | gap t c _ hnext hk =>
    obtain ⟨htokens, -, -⟩ := Cursor.tokens_of_next hfits.cut hnext
    rw [hsettled] at htokens
    rw [htokens]
    apply Reading.outcome_of_step
    rcases hk with hk | hk <;> simp only [Reading.step, hk] <;> rfl
  | comment t c _ hnext hk =>
    obtain ⟨htokens, -, -⟩ := Cursor.tokens_of_next hfits.cut hnext
    rw [hsettled] at htokens
    rw [htokens, ← start_of_tokensFrom htokens]
    apply Reading.outcome_of_step
    simp only [Reading.step, hk]
    rfl
  | keyword t c _ hnext hk =>
    obtain ⟨htokens, -, hstop⟩ := Cursor.tokens_of_next hfits.cut hnext
    rw [hsettled] at htokens
    have hopened : c.unentered = none := by simp [unentered_of_next hnext, Token.opened?, hk]
    have hleads : Beginning.Leads _ [t] (tokensFrom s c.offset) := .atRule _ hk
    rw [htokens]
    refine (Reading.outcome_leads hleads).trans ?_
    unfold outcome reading Beginning.unread
    dsimp only [Option.map_some]
    rw [hopened, Option.toList_none, Scanning.prelude_unread, ← hstop, start_of_tokensFrom htokens]
  | back t c _ hnext hk =>
    obtain ⟨htokens, -, -⟩ := Cursor.tokens_of_next hfits.cut hnext
    rw [hsettled] at htokens
    have hleads : Beginning.Leads _ [] (t :: tokensFrom s c.offset) := .other _ hk
    rw [htokens]
    refine (Reading.outcome_leads hleads).trans ?_
    unfold outcome reading Beginning.unread
    dsimp only [Option.map_some]
    rw [hfits.entered hnone, Option.toList_none, Scanning.prelude_unread, htokens,
      start_of_tokensFrom htokens]
  | leave b more c _ hnext henclosing =>
    obtain ⟨rfl, hends⟩ := Cursor.next_eq_none hnext
    rw [hsettled] at hends
    rw [henclosing]
    change _ = (⟨more, b.close x.nodes.reverse :: b.before, none⟩ : Reading).outcome
      (tokensFrom s (behindGroups s [.curly] (x.cursor.settled s)))
    rw [hsettled]
    rcases hends with hnil | ⟨-, t, ts, htokens, hk⟩
    · rw [behindGroups_of_nil [.curly] hnil, hnil]
      rfl
    · have hbehind := (hfits.cut.behindGroups [.curly]).2
      rw [htokens, skipped_closing hk, List.cons_append, List.nil_append, List.cons.injEq]
        at hbehind
      rw [htokens, Reading.outcome_closing hk, hbehind.2]
  | token p _ _ hp => simp [hnone] at hp
  | statement p _ _ _ hp => simp [hnone] at hp
  | last p _ _ hp => simp [hnone] at hp
  | block p _ _ hp => simp [hnone] at hp

/-- The next token of a prelude is read behind the groups in front of it. -/
theorem outcome_of_next (hfits : Fits s x) (hp : x.scanning = some p)
    (hnext : x.next s = (some t, c)) :
    x.outcome s = (⟨x.enclosing, x.nodes, some (p.prelude s x.cursor.offset
      (x.cursor.settled s) [])⟩ : Reading).outcome (t :: tokensFrom s c.offset) := by
  obtain ⟨left, hleft, houtcome⟩ := outcome_of_scanning hfits hp
  obtain ⟨htokens, -, -⟩ := Cursor.tokens_of_next hfits.cut hnext
  rw [htokens] at hleft houtcome
  rcases hleft with rfl | hnil
  · exact houtcome
  · cases hnil

/-- A prelude that its block or the text ends is the text of a node. -/
theorem outcome_of_last (hfits : Fits s x) (hp : x.scanning = some p)
    (hnext : x.next s = (none, c)) :
    x.outcome s = (p.node (slice s p.offset c.offset)).bind fun n =>
      (⟨x.enclosing, n :: x.nodes, none⟩ : Reading).outcome (tokensFrom s c.offset) := by
  obtain ⟨left, hleft, houtcome⟩ := outcome_of_scanning hfits hp
  obtain ⟨rfl, hends⟩ := Cursor.next_eq_none hnext
  dsimp only
  rw [houtcome]
  rcases hends with hnil | ⟨hin, t, ts, htokens, hk⟩
  · -- The text may end within a group.
    rw [hnil, Reading.outcome_nil, Reading.finish_pending, Scanning.statement_read]
    cases p.node (slice s p.offset (x.cursor.settled s)) <;> rfl
  · rcases hleft with rfl | hnil
    · have hmeets : Ending.Meets x.enclosing (t :: ts) .brace :=
        ⟨by simpa using hin, t, ts, rfl, hk⟩
      rw [htokens, Reading.outcome_last rfl (by decide) hmeets,
        Scanning.statement_read]
    · rw [htokens] at hnil
      cases hnil

/-- In a prelude a turn changes nothing about what comes of the text either. -/
theorem Turn.outcome_eq_of_scanning (hturn : Turn s x y) (hfits : Fits s x)
    (hp : x.scanning = some p) : x.outcome s = y.outcome s := by
  cases hturn with
  | gap _ _ hnone => simp [hp] at hnone
  | comment _ _ hnone => simp [hp] at hnone
  | keyword _ _ hnone => simp [hp] at hnone
  | back _ _ hnone => simp [hp] at hnone
  | leave _ _ _ hnone => simp [hp] at hnone
  | token q t c hq hnext hends =>
    obtain rfl : q = p := by simpa [hq] using hp
    obtain ⟨htokens, -, hstop⟩ := Cursor.tokens_of_next hfits.cut hnext
    have hsettled := Cursor.isCut_settled hfits.cut
    have hle := Nat.le_trans (hfits.behind q hq) (le_behindGroups s x.cursor.unentered.toList _)
    have hslice : slice s q.offset c.offset = slice s q.offset (x.cursor.settled s) ++ t.text := by
      have hfront : tokensFrom s (x.cursor.settled s) = [t] ++ tokensFrom s c.offset := htokens
      have hbehind := slice_behind hsettled hfront hle
      rw [(Cursor.next_eq_some hnext).1]
      simpa using hbehind
    rw [outcome_of_next hfits hq hnext]
    unfold outcome reading
    dsimp only [Option.map_some]
    rw [unentered_of_next hnext]
    unfold Scanning.prelude
    cases hopened : t.opened? with
    | none =>
      rw [Reading.outcome_of_step (Reading.step_push rfl hends hopened), hslice, ← hstop]
      simp [Prelude.push]
    | some b =>
      rw [Reading.outcome_of_step (Reading.step_enter rfl hends hopened), hslice, ← hstop]
      simp [Prelude.enter, Prelude.push]
  | statement q t c n hq hnext hk hn =>
    rw [outcome_of_next hfits hq hnext, Reading.outcome_semicolon rfl hk, Scanning.statement_kept,
      hn]
    rfl
  | last q c n hq hnext hn =>
    rw [outcome_of_last hfits hq hnext, hn]
    rfl
  | block q t c hq hnext hk =>
    rw [outcome_of_next hfits hq hnext, Reading.outcome_opening rfl hk]
    unfold Prelude.block Scanning.prelude
    dsimp only
    rw [List.reverse_reverse]
    rfl

/-- No turn changes what comes of the text. -/
theorem Turn.outcome_eq (hturn : Turn s x y) (hfits : Fits s x) : x.outcome s = y.outcome s := by
  cases hscanning : x.scanning with
  | none => exact hturn.outcome_eq_of_none hfits hscanning
  | some p => exact hturn.outcome_eq_of_scanning hfits hscanning

/-- What ends the reading is what comes of the text. -/
theorem Ends.outcome_eq {r : Except ParseError (List Node)} (hends : Ends s x r)
    (hfits : Fits s x) : x.outcome s = r := by
  cases hends with
  | text c hnone hnext henclosing =>
    obtain ⟨-, hends⟩ := Cursor.next_eq_none hnext
    rw [settled_of_none hfits hnone, henclosing] at hends
    rcases hends with hnil | ⟨hin, -⟩
    · rw [outcome_of_none hnone, hnil, henclosing]
      rfl
    · cases hin
  | brace t c hnone hnext hk =>
    obtain ⟨htokens, -, -⟩ := Cursor.tokens_of_next hfits.cut hnext
    rw [settled_of_none hfits hnone] at htokens
    have henclosing : x.enclosing = [] := by
      have hhidden := (Cursor.next_eq_some hnext).2.2
      by_contra hne
      exact hhidden (by simpa using hne) hk
    rw [outcome_of_none hnone, htokens, ← start_of_tokensFrom htokens, henclosing]
    apply Reading.outcome_of_step_error
    simp only [Reading.step, hk]
    rfl
  | spoiled p t c cause hp hnext hspoils =>
    have hspoils' : Spoils (!x.enclosing.isEmpty) t.kind cause := by
      have hhidden := (Cursor.next_eq_some hnext).2.2
      generalize t.kind = k at hspoils hhidden
      cases hspoils with
      | brace =>
        refine .brace ?_
        by_contra hne
        exact hhidden (by simpa using hne) rfl
      | badString => exact .badString
      | badUrl => exact .badUrl
    rw [outcome_of_next hfits hp hnext, Reading.outcome_of_spoils rfl hspoils']
    rfl
  | misspelled p t c e hp hnext hk he =>
    rw [outcome_of_next hfits hp hnext, Reading.outcome_semicolon rfl hk, Scanning.statement_kept,
      he]
    rfl
  | lastMisspelled p c e hp hnext he =>
    rw [outcome_of_last hfits hp hnext, he]
    rfl

end

end Descent

end Stylesheet

end ResponsiveCss
