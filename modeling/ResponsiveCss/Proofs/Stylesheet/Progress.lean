-- The reading of any text comes to an end, since the cursor moves on. It stays
-- where it is only if one loop hands over to another: in front of a node, where
-- it has gone back, and where inputs end one after the other. Then less is left
-- to do there, and no loop comes back to an offset. A block ends in front of its
-- own brace, which stands in the input around it.
import Mathlib.Data.List.Perm.Subperm
import Mathlib.Logic.Relation
import ResponsiveCss.Proofs.Stylesheet.Cursor
import ResponsiveCss.Proofs.Stylesheet.Places

namespace ResponsiveCss.Stylesheet

open Token (cover cover_cons cover_nil cover_append Tiled)

/-! ## Moving on -/

/-- One of the loops: the one over the nodes of a block or the one over the tokens of a prelude,
behind so many open blocks. -/
structure Loop where
  depth : Nat
  inPrelude : Bool
deriving DecidableEq, Repr

/-- What is left to do at an offset. Where the input ends, the loop over a prelude ends, and then
one block after the other. Elsewhere the loop over the nodes hands over to the one over a
prelude. -/
def Loop.weight (l : Loop) (atEnd : Bool) : Nat :=
  if atEnd then 2 * l.depth + l.inPrelude.toNat else (!l.inPrelude).toNat

namespace Descent

/-- The loop that runs. -/
def loop (x : Descent) : Loop := ⟨x.enclosing.length, x.scanning.isSome⟩

/-- The innermost input has no token any more. -/
def atEnd (s : List Char) (x : Descent) : Bool := (x.next s).1.isNone

/-- The cursor stands further on in `y` than in `x`, or in the same place with less to do there. -/
inductive Ahead (s : List Char) (x y : Descent) : Prop
  | further : x.cursor.offset < y.cursor.offset → Ahead s x y
  | less : x.cursor.offset = y.cursor.offset → x.atEnd s = y.atEnd s →
    y.loop.weight (y.atEnd s) < x.loop.weight (x.atEnd s) → Ahead s x y

section

variable {s : List Char} {x y z : Descent} {t : Token} {c : Cursor}

theorem Ahead.trans (hxy : Ahead s x y) (hyz : Ahead s y z) : Ahead s x z := by
  cases hxy with
  | further hlt =>
    cases hyz with
    | further hlt' => exact .further (Nat.lt_trans hlt hlt')
    | less heq _ _ => exact .further (heq ▸ hlt)
  | less heq hend hless =>
    cases hyz with
    | further hlt => exact .further (heq ▸ hlt)
    | less heq' hend' hless' =>
      exact .less (heq.trans heq') (hend.trans hend') (Nat.lt_trans hless' hless)

/-- In one loop the cursor can only be ahead by standing further on. -/
theorem Ahead.lt_of_loop_eq (h : Ahead s x y) (hloop : x.loop = y.loop) :
    x.cursor.offset < y.cursor.offset := by
  cases h with
  | further hlt => exact hlt
  | less _ hend hless =>
    rw [hloop, hend] at hless
    exact absurd hless (Nat.lt_irrefl _)

theorem lt_of_next (hnext : x.next s = (some t, c)) : x.cursor.offset < c.offset := by
  obtain ⟨rfl, ⟨ts, htokens⟩, -⟩ := Cursor.next_eq_some hnext
  have hpos := (lt_of_tokensFrom htokens).1
  have hle : x.cursor.offset ≤ x.cursor.settled s := le_behindGroups s _ _
  dsimp only
  omega

theorem atEnd_of_inputEnds {i : Nat} (hc : x.cursor = ⟨i, none⟩)
    (hends : Cursor.InputEnds s (!x.enclosing.isEmpty) i) : x.atEnd s = true := by
  unfold atEnd next
  rw [hc, Cursor.next_of_inputEnds hends]
  rfl

theorem atEnd_of_next (hnext : x.next s = (none, c)) : x.atEnd s = true := by
  unfold atEnd
  rw [hnext]
  rfl

/-- Every turn moves on. -/
theorem Turn.ahead (hturn : Turn s x y) (hfits : Fits s x) : Ahead s x y := by
  cases hturn with
  | gap _ _ _ hnext => exact .further (lt_of_next hnext)
  | comment _ _ _ hnext => exact .further (lt_of_next hnext)
  | keyword _ _ _ hnext => exact .further (lt_of_next hnext)
  | token _ _ _ _ hnext => exact .further (lt_of_next hnext)
  | statement _ _ _ _ _ hnext => exact .further (lt_of_next hnext)
  | block p t c _ hnext =>
    have hlt := lt_of_next hnext
    exact .further hlt
  | back t c hnone hnext =>
    have hend : x.atEnd s = false := by
      unfold atEnd
      rw [hnext]
      rfl
    refine .less rfl rfl ?_
    change Loop.weight _ (x.atEnd s) < Loop.weight _ (x.atEnd s)
    rw [hend]
    simp [Loop.weight, loop, hnone]
  | last p c n hp hnext =>
    have hend := atEnd_of_next hnext
    obtain ⟨rfl, hends⟩ := Cursor.next_eq_none hnext
    rcases Nat.lt_or_eq_of_le (le_behindGroups s x.cursor.unentered.toList x.cursor.offset)
      with hlt | heq
    · exact .further hlt
    · have hend' := atEnd_of_inputEnds (x := ⟨_, x.enclosing, n :: x.nodes, none⟩) rfl hends
      refine .less heq (hend.trans hend'.symm) ?_
      rw [hend, hend']
      simp [Loop.weight, loop, hp]
  | leave b more c hnone hnext henclosing =>
    have hend := atEnd_of_next hnext
    obtain ⟨rfl, hends⟩ := Cursor.next_eq_none hnext
    rw [settled_of_none hfits hnone] at hends ⊢
    rcases hends with hnil | ⟨-, t, ts, htokens, hk⟩
    · -- At the end of the text all blocks end where they are.
      have hend' := atEnd_of_inputEnds
        (x := ⟨⟨x.cursor.offset, none⟩, more, b.close x.nodes.reverse :: b.before, none⟩) rfl
        (.inl hnil)
      dsimp only
      rw [behindGroups_of_nil [.curly] hnil]
      refine .less rfl (hend.trans hend'.symm) ?_
      rw [hend, hend']
      simp [Loop.weight, loop, hnone, henclosing]
    · refine .further ?_
      have hpos := (lt_of_tokensFrom htokens).1
      dsimp only
      unfold behindGroups
      rw [htokens, skipped_closing hk, cover_cons, cover_nil, List.append_nil]
      omega

theorem ahead_of_transGen (hrun : Relation.TransGen (Turn s) x y) (hfits : Fits s x) :
    Ahead s x y ∧ Fits s y := by
  induction hrun with
  | single hturn => exact ⟨hturn.ahead hfits, hturn.fits hfits⟩
  | tail _ hturn ih => exact ⟨ih.1.trans (hturn.ahead ih.2), hturn.fits ih.2⟩

/-- A run does not leave the states that fit, and it does not change what comes of the text. -/
theorem Fits.of_run (hfits : Fits s x) (hrun : Relation.ReflTransGen (Turn s) x y) :
    Fits s y ∧ x.outcome s = y.outcome s := by
  induction hrun with
  | refl => exact ⟨hfits, rfl⟩
  | tail _ hturn ih => exact ⟨hturn.fits ih.1, ih.2.trans (hturn.outcome_eq ih.1)⟩

/-- No run is infinite. -/
theorem Fits.acc {x : Descent} (hfits : Fits s x) : Acc (fun y x => Turn s x y) x := by
  constructor
  intro y hturn
  exact Fits.acc (hturn.fits hfits)
termination_by (s.length - x.cursor.offset, x.loop.weight (x.atEnd s))
decreasing_by
  have hle := (hturn.fits hfits).cut.le
  rw [Prod.lex_def]
  cases hturn.ahead hfits with
  | further hlt => exact .inl (by omega)
  | less heq _ hless => exact .inr ⟨by rw [heq], hless⟩

/-- A run ends with what comes of the text. -/
theorem exists_ends (hacc : Acc (fun y x => Turn s x y) x) (hfits : Fits s x) :
    ∃ y, Relation.ReflTransGen (Turn s) x y ∧ Ends s y (x.outcome s) := by
  induction hacc with
  | intro x _ ih =>
    rcases turn_or_ends s x with ⟨y, hturn⟩ | ⟨r, hends⟩
    · obtain ⟨z, hrun, hends⟩ := ih y hturn (hturn.fits hfits)
      rw [← hturn.outcome_eq hfits] at hends
      exact ⟨z, .head hturn hrun, hends⟩
    · rw [hends.outcome_eq hfits]
      exact ⟨x, .refl, hends⟩

end

end Descent

/-! ## The ends of the open blocks -/

/-- The tokens in front of the bracket that closes the last one of these groups. -/
def untilClosed : List Bracket → List Token → List Token
  | _, [] => []
  | groups, t :: ts =>
    match Prelude.regroup groups t.kind with
    | [] => []
    | b :: more => t :: untilClosed (b :: more) ts

/-- The offset in front of that bracket, for groups that are open at another offset. -/
def inputEnd (s : List Char) (groups : List Bracket) (i : Nat) : Nat :=
  i + (cover (untilClosed groups (tokensFrom s i))).length

section

variable {s : List Char} {i : Nat} {groups front behind : List Bracket} {b : Bracket} {t : Token}
  {ts : List Token}

theorem untilClosed_token (h : Prelude.regroup groups t.kind ≠ []) :
    untilClosed groups (t :: ts) = t :: untilClosed (Prelude.regroup groups t.kind) ts := by
  rw [untilClosed]
  split
  · rename_i hnil
    exact absurd hnil h
  · rename_i hgroups
    rw [hgroups]

theorem untilClosed_closing (hk : t.kind = .closing b) : untilClosed [b] (t :: ts) = [] := by
  rw [untilClosed, regroup_closing hk]

theorem regroup_append (b : Bracket) (front behind : List Bracket) (k : Token.Kind) :
    Prelude.regroup (b :: front ++ behind) k = Prelude.regroup (b :: front) k ++ behind := by
  cases k with
  | closing b' =>
    by_cases h : b = b'
    · simp [Prelude.regroup, h]
    · simp [Prelude.regroup, h]
  | _ => rfl

theorem untilClosed_append (hne : behind ≠ []) {rest : List Token}
    (hts : ts = skipped front ts ++ rest) :
    untilClosed (front ++ behind) ts = skipped front ts ++ untilClosed behind rest := by
  induction ts generalizing front with
  | nil =>
    rw [skipped_of_nil, List.nil_append] at hts
    subst hts
    rw [skipped_of_nil, untilClosed, untilClosed, List.nil_append]
  | cons t ts ih =>
    cases front with
    | nil =>
      rw [skipped_nil, List.nil_append] at hts
      rw [hts, skipped_nil, List.nil_append, List.nil_append]
    | cons b front =>
      rw [skipped, List.cons_append, List.cons.injEq] at hts
      have hregroup := regroup_append b front behind t.kind
      have hopen : Prelude.regroup (b :: front ++ behind) t.kind ≠ [] := by
        rw [hregroup]
        exact List.append_ne_nil_of_right_ne_nil _ hne
      rw [untilClosed_token hopen, hregroup, ih hts.2, skipped, List.cons_append]

/-- What groups end at, in and behind others, is found behind those. -/
theorem inputEnd_append (hcut : IsCut s i) (hne : behind ≠ []) :
    inputEnd s (front ++ behind) i = inputEnd s behind (behindGroups s front i) := by
  have hsplit := untilClosed_append hne (hcut.behindGroups front).2
  unfold inputEnd
  rw [hsplit, cover_append, List.length_append, ← Nat.add_assoc]
  rfl

theorem inputEnd_token (hcut : IsCut s i) (htokens : tokensFrom s i = t :: ts)
    (hne : Prelude.regroup groups t.kind ≠ []) :
    inputEnd s groups i = inputEnd s (Prelude.regroup groups t.kind) (i + t.text.length) := by
  have hfront : tokensFrom s i = [t] ++ ts := htokens
  have hbehind := (hcut.behind hfront).2
  rw [cover_cons, cover_nil, List.append_nil] at hbehind
  unfold inputEnd
  rw [htokens, hbehind, untilClosed_token hne, cover_cons, List.length_append, Nat.add_assoc]

theorem le_inputEnd (s : List Char) (groups : List Bracket) (i : Nat) : i ≤ inputEnd s groups i :=
  Nat.le_add_right _ _

theorem untilClosed_prefix (hne : groups ≠ []) (ts : List Token) :
    untilClosed groups ts <+: skipped groups ts := by
  induction ts generalizing groups with
  | nil =>
    rw [untilClosed]
    exact List.nil_prefix
  | cons t ts ih =>
    obtain ⟨b, more, rfl⟩ := List.exists_cons_of_ne_nil hne
    rw [untilClosed, skipped]
    split
    · exact List.nil_prefix
    · rename_i hgroups
      rw [hgroups, List.cons_prefix_cons]
      exact ⟨rfl, ih (List.cons_ne_nil _ _)⟩

theorem inputEnd_le_behindGroups (hne : groups ≠ []) (i : Nat) :
    inputEnd s groups i ≤ behindGroups s groups i := by
  obtain ⟨rest, hrest⟩ := untilClosed_prefix hne (tokensFrom s i)
  unfold inputEnd behindGroups
  rw [← hrest, cover_append, List.length_append]
  omega

theorem inputEnd_of_inputEnds (h : Cursor.InputEnds s true i) : inputEnd s [.curly] i = i := by
  unfold inputEnd
  rcases h with hnil | ⟨-, t, ts, htokens, hk⟩
  · rw [hnil, untilClosed]
    rfl
  · rw [htokens, untilClosed_closing hk]
    rfl

/-- A token that does not close the innermost group stands in it, perhaps as the bracket of
another one. -/
theorem regroup_of_ne_closing (hk : t.kind ≠ .closing b) (groups : List Bracket) :
    Prelude.regroup (b :: groups) t.kind = t.opened?.toList ++ b :: groups := by
  cases hopened : t.opened? with
  | none => exact regroup_of_not_opened hopened hk
  | some b' => exact regroup_of_opened hopened _

end

namespace Cursor

/-- The open groups up to the brace of a block, counted from the innermost block outwards. -/
def groups (c : Cursor) (k : Nat) : List Bracket :=
  c.unentered.toList ++ List.replicate (k + 1) .curly

/-- Where such a block ends, in front of its brace. -/
def blockEnd (s : List Char) (c : Cursor) (k : Nat) : Nat := inputEnd s (c.groups k) c.offset

/-- Where the open inputs end, innermost first: so many blocks, and the text. -/
def bounds (s : List Char) (depth : Nat) (c : Cursor) : List Nat :=
  (List.range depth).map (c.blockEnd s) ++ [s.length]

variable {s : List Char} {inBlock : Bool} {depth i k : Nat} {c c' : Cursor} {t : Token}

theorem groups_ne_nil (c : Cursor) (k : Nat) : c.groups k ≠ [] :=
  List.append_ne_nil_of_right_ne_nil _ (by simp)

theorem bounds_congr (h : ∀ k < depth, c.blockEnd s k = c'.blockEnd s k) :
    c.bounds s depth = c'.bounds s depth :=
  congrArg (· ++ [s.length]) (List.map_congr_left fun k hk => h k (List.mem_range.mp hk))

theorem bounds_succ (s : List Char) (depth : Nat) (c : Cursor) :
    c.bounds s (depth + 1) =
      c.blockEnd s 0 :: ((List.range depth).map (fun k => c.blockEnd s (k + 1)) ++ [s.length]) := by
  unfold bounds
  rw [List.range_succ_eq_map, List.map_cons, List.map_map]
  rfl

theorem le_blockEnd (s : List Char) (c : Cursor) (k : Nat) : c.offset ≤ c.blockEnd s k :=
  le_inputEnd s _ _

theorem blockEnd_le (hcut : IsCut s c.offset) (k : Nat) : c.blockEnd s k ≤ s.length :=
  Nat.le_trans (inputEnd_le_behindGroups (c.groups_ne_nil k) _) (behindGroups_le _ hcut.le)

/-- A block ends in the blocks around it. -/
theorem blockEnd_le_blockEnd (hcut : IsCut s c.offset) {outer : Nat} (h : k < outer) :
    c.blockEnd s k ≤ c.blockEnd s outer := by
  have hgroups : c.groups outer = c.groups k ++ List.replicate (outer - k) .curly := by
    unfold groups
    rw [List.append_assoc, List.replicate_append_replicate]
    congr 2
    omega
  have hne : List.replicate (outer - k) Bracket.curly ≠ [] := by
    rw [Ne, List.replicate_eq_nil_iff]
    omega
  unfold blockEnd
  rw [hgroups, inputEnd_append hcut hne]
  exact Nat.le_trans (inputEnd_le_behindGroups (c.groups_ne_nil k) _) (le_inputEnd s _ _)

/-- The ends ascend from the offset of the cursor to that of the text. -/
theorem bounds_ascend (hcut : IsCut s c.offset) (depth : Nat) :
    (c.offset :: c.bounds s depth).Pairwise (· ≤ ·) := by
  unfold bounds
  rw [List.pairwise_cons, List.pairwise_append, List.pairwise_map]
  refine ⟨?_, List.pairwise_lt_range.imp (blockEnd_le_blockEnd hcut), List.pairwise_singleton _ _,
    ?_⟩
  · intro e he
    rw [List.mem_append, List.mem_map, List.mem_singleton] at he
    rcases he with ⟨k, -, rfl⟩ | rfl
    · exact le_blockEnd s c k
    · exact hcut.le
  · intro e he l hl
    rw [List.mem_map] at he
    obtain ⟨k, -, rfl⟩ := he
    rw [List.mem_singleton.mp hl]
    exact blockEnd_le hcut k

theorem blockEnd_settled (hcut : IsCut s c.offset) (k : Nat) :
    (⟨c.settled s, none⟩ : Cursor).blockEnd s k = c.blockEnd s k := by
  unfold blockEnd groups
  rw [inputEnd_append hcut (by simp)]
  rfl

/-- A token in a block leaves the ends of the blocks where they are. -/
theorem blockEnd_next (hcut : IsCut s c.offset) (hnext : c.next s true = (some t, c')) (k : Nat) :
    c'.blockEnd s k = c.blockEnd s k := by
  obtain ⟨rfl, ⟨ts, htokens⟩, hk⟩ := next_eq_some hnext
  have hregroup := regroup_of_ne_closing (hk rfl) (List.replicate k .curly)
  have hne : Prelude.regroup (.curly :: List.replicate k .curly) t.kind ≠ [] := by
    rw [hregroup]
    simp
  have htoken := inputEnd_token (isCut_settled hcut) htokens hne
  rw [hregroup] at htoken
  rw [← blockEnd_settled hcut]
  exact htoken.symm

theorem bounds_settled (hcut : IsCut s c.offset) (depth : Nat) :
    (⟨c.settled s, none⟩ : Cursor).bounds s depth = c.bounds s depth :=
  bounds_congr fun k _ => blockEnd_settled hcut k

theorem bounds_next (hcut : IsCut s c.offset) (hnext : c.next s inBlock = (some t, c'))
    (hin : 0 < depth → inBlock = true) : c'.bounds s depth = c.bounds s depth := by
  refine bounds_congr fun k hlt => ?_
  rw [hin (Nat.lt_of_le_of_lt (Nat.zero_le k) hlt)] at hnext
  exact blockEnd_next hcut hnext k

/-- A block that opens has an end in front of the others. -/
theorem bounds_of_opened (h : c.unentered = some .curly) (depth : Nat) :
    (⟨c.offset, none⟩ : Cursor).bounds s (depth + 1) =
      inputEnd s [.curly] c.offset :: c.bounds s depth := by
  rw [bounds_succ]
  unfold bounds blockEnd groups
  rw [h]
  rfl

/-- At its end a block has the first of the ends; the others are there behind its brace too. -/
theorem bounds_of_inputEnds (hcut : IsCut s i) (h : InputEnds s true i) (depth : Nat) :
    (⟨i, none⟩ : Cursor).bounds s (depth + 1) =
      i :: (⟨behindGroups s [.curly] i, none⟩ : Cursor).bounds s depth := by
  have hfirst : (⟨i, none⟩ : Cursor).blockEnd s 0 = i := inputEnd_of_inputEnds h
  rw [bounds_succ, hfirst]
  refine congrArg (fun ends => i :: (ends ++ [s.length])) (List.map_congr_left fun k _ => ?_)
  change inputEnd s ([.curly] ++ List.replicate (k + 1) .curly) i = _
  rw [inputEnd_append hcut (by simp)]
  rfl

/-- An input that has no token any more is at the first of the ends. -/
theorem head?_bounds (hcut : IsCut s c.offset) (hends : InputEnds s inBlock (c.settled s))
    (hin : inBlock = true ↔ 0 < depth) : (c.bounds s depth).head? = some (c.settled s) := by
  have hsettled := isCut_settled hcut
  rw [← bounds_settled hcut]
  cases depth with
  | zero =>
    rcases hends with hnil | ⟨hblock, -⟩
    · have hcover := congrArg List.length (cover_tokensFrom s (c.settled s))
      rw [hnil, cover_nil, List.length_nil, List.length_drop] at hcover
      have hle := hsettled.le
      have heq : s.length = c.settled s := by omega
      simp [bounds, heq]
    · exact absurd (hin.mp hblock) (Nat.lt_irrefl 0)
  | succ depth =>
    rw [hin.mpr (Nat.succ_pos depth)] at hends
    rw [bounds_of_inputEnds hsettled hends]
    rfl

end Cursor

namespace Descent

/-- Where the open inputs end, innermost first. -/
def bounds (s : List Char) (x : Descent) : List Nat := x.cursor.bounds s x.enclosing.length

/-- A turn leaves the ends of the open inputs where they are, but for the one of a block that opens
or closes. A block closes with the cursor at its end. -/
theorem Turn.bounds_cases {s : List Char} {x y : Descent} (hturn : Turn s x y) (hfits : Fits s x) :
    y.bounds s = x.bounds s ∨ (∃ e, y.bounds s = e :: x.bounds s) ∨
      x.bounds s = x.cursor.offset :: y.bounds s := by
  have hnext : ∀ {t c}, x.next s = (some t, c) → c.bounds s x.enclosing.length = x.bounds s := by
    intro t c h
    refine Cursor.bounds_next hfits.cut h fun hpos => ?_
    have hne := List.length_pos_iff.mp hpos
    simpa using hne
  cases hturn with
  | gap _ _ _ h => exact .inl (hnext h)
  | comment _ _ _ h => exact .inl (hnext h)
  | keyword _ _ _ h => exact .inl (hnext h)
  | token _ _ _ _ h => exact .inl (hnext h)
  | statement _ _ _ _ _ h => exact .inl (hnext h)
  | back => exact .inl rfl
  | last p c n _ h =>
    obtain ⟨rfl, -⟩ := Cursor.next_eq_none h
    exact .inl (Cursor.bounds_settled hfits.cut _)
  | block p t c _ h hk =>
    refine .inr (.inl ⟨inputEnd s [.curly] c.offset, ?_⟩)
    have hopened : c.unentered = some .curly := by
      rw [unentered_of_next h]
      simp [Token.opened?, hk]
    rw [← hnext h]
    exact Cursor.bounds_of_opened hopened _
  | leave b more c hnone h henclosing =>
    obtain ⟨rfl, hends⟩ := Cursor.next_eq_none h
    have hsettled := settled_of_none hfits hnone
    rw [hsettled, henclosing] at hends
    refine .inr (.inr ?_)
    rw [bounds, ← Cursor.bounds_settled hfits.cut, hsettled, henclosing]
    exact Cursor.bounds_of_inputEnds hfits.cut hends _

/-- A turn that leaves at least so many blocks open. -/
def TurnWithin (s : List Char) (depth : Nat) (x y : Descent) : Prop :=
  Turn s x y ∧ depth ≤ y.enclosing.length

/-- As long as none of the open blocks is left, the inputs keep their ends. -/
theorem bounds_suffix_of_run {s : List Char} {x y : Descent} (hfits : Fits s x)
    (hrun : Relation.ReflTransGen (TurnWithin s x.enclosing.length) x y) :
    Fits s y ∧ x.bounds s <:+ y.bounds s := by
  induction hrun with
  | refl => exact ⟨hfits, List.suffix_refl _⟩
  | @tail y z _ hturn ih =>
    obtain ⟨hturn, hdepth⟩ := hturn
    obtain ⟨hfits', hsuffix⟩ := ih
    refine ⟨hturn.fits hfits', ?_⟩
    rcases hturn.bounds_cases hfits' with heq | ⟨e, heq⟩ | heq
    · rwa [heq]
    · rw [heq]
      exact hsuffix.trans (List.suffix_cons _ _)
    · rw [heq, List.suffix_cons_iff] at hsuffix
      rcases hsuffix with hall | hsuffix
      · -- A block of `x` has not been left.
        have hlen := congrArg List.length hall
        simp only [bounds, Cursor.bounds, List.length_append, List.length_map, List.length_range,
          List.length_cons] at hlen
        omega
      · exact hsuffix

end Descent

/-! ## The number of nodes -/

theorem Placed.length_le {tokens : List Token} {count : Nat} {nodes : List Node}
    (h : Placed tokens count nodes) : nodes.length ≤ count := by
  obtain ⟨marks, hmarked, hascend, hlt⟩ := h
  have hnodup : marks.Nodup := hascend.imp Nat.ne_of_lt
  have hsubset : marks ⊆ List.range count := fun k hk => List.mem_range.mpr (hlt k hk)
  have hle := (hnodup.subperm hsubset).length_le
  rwa [hmarked.length_eq, List.length_range] at hle

theorem length_le_cover {l : Location} {tokens : List Token} (h : Tiled l tokens) :
    tokens.length ≤ (cover tokens).length := by
  induction tokens generalizing l with
  | nil => exact Nat.le_refl 0
  | cons t tokens ih =>
    obtain ⟨-, hlead, hrest⟩ := h
    have hpos := List.length_pos_iff.mpr hlead.ne_nil
    have hle := ih hrest
    rw [cover_cons, List.length_append, List.length_cons]
    omega

/-- A text has at least as many characters as nodes. -/
theorem length_walkAll_le {text : String} {sheet : Stylesheet} (h : parse text = .ok sheet) :
    (Node.walkAll sheet.nodes).length ≤ text.toList.length := by
  unfold parse at h
  cases hnodes : nodesOf (Token.ofText text.toList) with
  | error e =>
    rw [hnodes] at h
    cases h
  | ok nodes =>
    rw [hnodes] at h
    cases h
    have htiled := Token.tiled_ofText text.toList
    have hle := (placed_of_nodesOf htiled hnodes).length_le
    have htokens := length_le_cover htiled
    rw [Token.cover_ofText] at htokens
    rw [List.length_map] at hle
    exact Nat.le_trans hle htokens

/-! ## The reading ends -/

/-- For every text no run of the loops is infinite, and it ends with what the text is read as.
If a loop comes to run again, as after one of its iterations, the cursor stands further on, so no
loop comes back to an offset with the same to do. The ends of the open inputs ascend from the
cursor outwards, and they stay where they are until their blocks are left: a block that is opened
and left in another input is left in front of the end of this input. There are not more nodes
than characters. -/
theorem the_reading_of_any_text_moves_on_to_its_end (text : String) :
    Acc (fun y x => Descent.Turn text.toList x y) Descent.start ∧
      (∃ x, Relation.ReflTransGen (Descent.Turn text.toList) Descent.start x ∧
        Descent.Ends text.toList x ((parse text).map Stylesheet.nodes)) ∧
      (∀ x, Relation.ReflTransGen (Descent.Turn text.toList) Descent.start x →
        (∀ r, Descent.Ends text.toList x r → r = (parse text).map Stylesheet.nodes) ∧
        (∀ y, Relation.TransGen (Descent.Turn text.toList) x y → x.loop = y.loop →
          x.cursor.offset < y.cursor.offset) ∧
        (x.cursor.offset :: x.bounds text.toList).Pairwise (· ≤ ·) ∧
        (∀ c, x.next text.toList = (none, c) → (x.bounds text.toList).head? = some c.offset) ∧
        ∀ y, Relation.ReflTransGen
            (Descent.TurnWithin text.toList x.enclosing.length) x y →
          x.bounds text.toList <:+ y.bounds text.toList) ∧
      ∀ sheet, parse text = .ok sheet →
        (Node.walkAll sheet.nodes).length ≤ text.toList.length := by
  have hparse : Descent.start.outcome text.toList = (parse text).map Stylesheet.nodes := by
    rw [Descent.outcome_start]
    unfold parse
    cases nodesOf (Token.ofText text.toList) <;> rfl
  have hstart := Descent.fits_start text.toList
  refine ⟨hstart.acc, ?_, fun x hrun => ?_, fun _ => length_walkAll_le⟩
  · rw [← hparse]
    exact Descent.exists_ends hstart.acc hstart
  · obtain ⟨hfits, houtcome⟩ := hstart.of_run hrun
    refine ⟨fun r hends => ?_, fun y hon hloop => ?_, Cursor.bounds_ascend hfits.cut _,
      fun c hnext => ?_, fun y hwithin => (Descent.bounds_suffix_of_run hfits hwithin).2⟩
    · rw [← hparse, houtcome, hends.outcome_eq hfits]
    · exact (Descent.ahead_of_transGen hon hfits).1.lt_of_loop_eq hloop
    · obtain ⟨rfl, hends⟩ := Cursor.next_eq_none hnext
      exact Cursor.head?_bounds hfits.cut hends (by simp [List.length_pos_iff])

/-- A brace that nothing stands in front of or behind. The loop over the nodes goes back, and it
runs again where the block and the text end. -/
theorem the_reading_of_an_open_brace_moves_on_to_its_end :
    let text := "\x7b"
    let y : Descent := ⟨⟨1, none⟩, [], [.rule "" [] ⟨1, 1⟩], none⟩
    Relation.TransGen (Descent.Turn text.toList) Descent.start y ∧ Descent.start.loop = y.loop ∧
      Descent.start.cursor.offset < y.cursor.offset ∧
      Descent.Ends text.toList y ((parse text).map Stylesheet.nodes) := by
  intro text y
  let brace : Token := ⟨.opening .curly, ['\x7b'], ⟨1, 1⟩⟩
  let p : Scanning := ⟨none, ⟨1, 1⟩, 0⟩
  let b : OpenBlock := ⟨none, "", ⟨1, 1⟩, []⟩
  have hback : Descent.Turn text.toList Descent.start ⟨⟨0, none⟩, [], [], some p⟩ := by
    have hnext : Descent.start.next text.toList = (some brace, ⟨1, some .curly⟩) := by
      decide +kernel
    exact .back brace _ rfl hnext (by decide)
  have hblock : Descent.Turn text.toList ⟨⟨0, none⟩, [], [], some p⟩
      ⟨⟨1, none⟩, [b], [], none⟩ := by
    have hnext : Descent.next text.toList ⟨⟨0, none⟩, [], [], some p⟩ =
        (some brace, ⟨1, some .curly⟩) := by decide +kernel
    exact .block p brace _ rfl hnext rfl
  have hleave : Descent.Turn text.toList ⟨⟨1, none⟩, [b], [], none⟩ y := by
    have hnext : Descent.next text.toList ⟨⟨1, none⟩, [b], [], none⟩ = (none, ⟨1, none⟩) := by
      decide +kernel
    have hbehind : behindGroups text.toList [.curly] 1 = 1 := by decide +kernel
    have hturn := Descent.Turn.leave b [] _ rfl hnext rfl
    dsimp only at hturn
    rw [hbehind] at hturn
    exact hturn
  have hrun : Relation.TransGen (Descent.Turn text.toList) Descent.start y :=
    .head hback (.head hblock (.single hleave))
  have hends : Descent.Ends text.toList y (.ok [.rule "" [] ⟨1, 1⟩]) :=
    .text ⟨1, none⟩ rfl (by decide +kernel) rfl
  have hlaw := (the_reading_of_any_text_moves_on_to_its_end text).2.2.1
  refine ⟨hrun, rfl, (hlaw Descent.start .refl).2.1 y hrun rfl, ?_⟩
  rw [← (hlaw y hrun.to_reflTransGen).1 _ hends]
  exact hends

end ResponsiveCss.Stylesheet
