-- The places of the nodes that a text spells. Each node stands at an offset of
-- the text where it begins, and along the tree from outer to inner and from
-- first to last these offsets ascend. The reading keeps this after each token,
-- for the tree as it would be if all blocks were closed.
import Mathlib.Data.List.Forall2
import ResponsiveCss.Proofs.Stylesheet.Kept
import ResponsiveCss.Proofs.Text.Occurrence
import ResponsiveCss.Proofs.Text.Trim

namespace ResponsiveCss

open Text

namespace Node

/-! ## The nodes of a tree in order -/

/-- The place of a node. -/
def source : Node → Location
  | .statement _ _ source => source
  | .block _ _ _ source => source
  | .rule _ _ source => source
  | .declaration d => d.source
  | .comment _ source => source

mutual

/-- A node and all nodes in it, each in front of the ones in it. -/
def walk : Node → List Node
  | .block name params nodes source => .block name params nodes source :: walkAll nodes
  | .rule selector nodes source => .rule selector nodes source :: walkAll nodes
  | .statement name params source => [.statement name params source]
  | .declaration d => [.declaration d]
  | .comment text source => [.comment text source]

/-- The same for a list of nodes. -/
def walkAll : List Node → List Node
  | [] => []
  | n :: more => walk n ++ walkAll more

end

/-- The node without the nodes in it. -/
def bare : Node → Node
  | .block name params _ source => .block name params [] source
  | .rule selector _ source => .rule selector [] source
  | n => n

/-- The beginning of the node, as far as a text shows it: the sign of an at-rule or of a comment,
the selector of a style rule or the property of a declaration behind blanks. -/
def Begins (s : List Char) : Node → Prop
  | .statement .. | .block .. => ['@'] <+: s
  | .comment .. => ['/', '*'] <+: s
  | .rule selector _ _ => selector.toList <+: s.dropWhile isBlank
  | .declaration d => d.property.toList <+: s.dropWhile isBlank

/-- The node begins at this offset of the text and has its line and its column. -/
structure StandsAt (s : List Char) (offset : Nat) (n : Node) : Prop where
  inside : offset < s.length
  source : n.source = Location.ofOffset s offset
  begins : n.Begins (s.drop offset)

theorem walkAll_append (ns ms : List Node) : walkAll (ns ++ ms) = walkAll ns ++ walkAll ms := by
  induction ns with
  | nil => rw [List.nil_append, walkAll, List.nil_append]
  | cons n ns ih => rw [List.cons_append, walkAll, walkAll, ih, List.append_assoc]

theorem source_bare (n : Node) : n.bare.source = n.source := by cases n <;> rfl

theorem begins_bare (s : List Char) (n : Node) : n.bare.Begins s ↔ n.Begins s := by
  cases n <;> rfl

end Node

/-! ## What a text begins with -/

namespace Text

theorem trim_begins {text s : List Char} (h : text <+: s) : trim text <+: s.dropWhile isBlank := by
  obtain ⟨rest, rfl⟩ := h
  have hend : ∀ s : List Char, trimEnd s <+: s := by
    intro s
    unfold trimEnd
    rw [← List.reverse_suffix, List.reverse_reverse]
    exact List.dropWhile_suffix _
  rw [List.dropWhile_append]
  split
  · rename_i hblank
    rw [trim, List.isEmpty_iff.mp hblank]
    exact List.nil_prefix
  · exact (hend _).trans (List.prefix_append _ _)

end Text

theorem Declaration.begins_of_ofText {text s : List Char} {source : Location} {d : Declaration}
    (h : ofText text source = .ok d) (htext : text <+: s) :
    d.source = source ∧ d.property.toList ≠ [] ∧ d.property.toList <+: s.dropWhile isBlank := by
  unfold ofText at h
  split at h
  · cases h
  · rename_i before behind hsplit
    have hbefore : before <+: text := ⟨_, (splitFirst?_eq_some_iff.mp hsplit).1.symm⟩
    have hbegins := trim_begins (hbefore.trans htext)
    dsimp only at h
    split at h
    · cases h
    · rename_i hne
      split at h <;> cases h <;>
        exact ⟨rfl, by simpa using hne, by simpa using hbegins⟩

namespace Stylesheet

open Token (cover cover_cons cover_nil cover_append Tiled)
open Node (walk walkAll walkAll_append bare)

/-! ## The nodes read so far -/

/-- The nodes of a reading in order, each without the nodes in it, as if all blocks were closed. -/
def trail (enclosing : List OpenBlock) (nodes : List Node) : List Node :=
  (walkAll (Reading.closeAll enclosing nodes)).map bare

theorem walk_close (b : OpenBlock) (nodes : List Node) :
    walk (b.close nodes) = b.close nodes :: walkAll nodes := by
  unfold OpenBlock.close
  split <;> rw [walk]

theorem bare_close (b : OpenBlock) (nodes : List Node) :
    (b.close nodes).bare = b.close [] := by
  unfold OpenBlock.close
  split <;> rfl

/-- What comes behind all nodes of the innermost block comes behind all nodes. -/
theorem trail_of_walkAll {nodes nodes' more : List Node} (enclosing : List OpenBlock)
    (h : (walkAll nodes'.reverse).map bare = (walkAll nodes.reverse).map bare ++ more) :
    trail enclosing nodes' = trail enclosing nodes ++ more := by
  induction enclosing generalizing nodes nodes' with
  | nil => exact h
  | cons b enclosing ih =>
    apply ih
    simp only [List.reverse_cons, walkAll_append, walkAll, List.append_nil, walk_close,
      List.map_append, List.map_cons, bare_close, h]
    simp only [List.append_assoc, List.cons_append]

theorem trail_cons {n : Node} (enclosing : List OpenBlock) (nodes : List Node)
    (h : (walk n).map bare = [n]) :
    trail enclosing (n :: nodes) = trail enclosing nodes ++ [n] := by
  apply trail_of_walkAll
  simp only [List.reverse_cons, walkAll_append, walkAll, List.append_nil, List.map_append, h]

theorem walk_close_nil (b : OpenBlock) : (walk (b.close [])).map bare = [b.close []] := by
  rw [walk_close, walkAll, List.map_singleton, bare_close]

/-! ## Tokens that begin nodes -/

/-- The node begins with the token behind the first `k`. -/
structure MarkedBy (tokens : List Token) (k : Nat) (n : Node) : Prop where
  inside : k < tokens.length
  source : n.source = Location.start.after (cover (tokens.take k))
  begins : n.Begins (cover (tokens.drop k))

/-- The nodes begin one behind the other, with tokens among the first `count`. -/
def Placed (tokens : List Token) (count : Nat) (nodes : List Node) : Prop :=
  ∃ marks : List Nat, List.Forall₂ (MarkedBy tokens) marks nodes ∧ marks.Pairwise (· < ·) ∧
    ∀ k ∈ marks, k < count

section

variable {tokens front head outer inside rest nodes : List Token}

theorem markedBy_length {n : Node} (hne : rest ≠ [])
    (hsource : n.source = Location.start.after (cover front)) (hbegins : n.Begins (cover rest)) :
    MarkedBy (front ++ rest) front.length n := by
  have hpos := List.length_pos_iff.mpr hne
  refine ⟨?_, ?_, ?_⟩
  · rw [List.length_append]
    omega
  · rwa [List.take_left]
  · rwa [List.drop_left]

theorem Placed.mono {nodes : List Node} {count count' : Nat} (h : Placed tokens count nodes)
    (hle : count ≤ count') : Placed tokens count' nodes := by
  obtain ⟨marks, hmarked, hascend, hlt⟩ := h
  exact ⟨marks, hmarked, hascend, fun k hk => Nat.lt_of_lt_of_le (hlt k hk) hle⟩

theorem Placed.concat {nodes : List Node} {n : Node} {k count : Nat} (h : Placed tokens k nodes)
    (hn : MarkedBy tokens k n) (hk : k < count) : Placed tokens count (nodes ++ [n]) := by
  obtain ⟨marks, hmarked, hascend, hlt⟩ := h
  refine ⟨marks ++ [k], List.rel_append hmarked (.cons hn .nil), ?_, ?_⟩
  · rw [List.pairwise_append]
    refine ⟨hascend, List.pairwise_singleton _ k, ?_⟩
    intro i hi j hj
    rw [List.mem_singleton.mp hj]
    exact hlt i hi
  · intro i hi
    rcases List.mem_append.mp hi with hi | hi
    · exact Nat.lt_trans (hlt i hi) hk
    · rwa [List.mem_singleton.mp hi]

theorem Prelude.Reads.begins_at {p : Prelude} {name : String}
    (h : p.Reads front head outer inside) (htiled : Tiled .start (front ++ (head ++ rest)))
    (hname : p.keyword = some name) : ['@'] <+: cover (head ++ rest) := by
  rcases h.keyword with ⟨hnone, -⟩ | ⟨k, rfl, hk, -⟩
  · rw [hnone] at hname
    cases hname
  · exact htiled.isLead.begins_at hk

theorem Prelude.Reads.head_eq_nil {p : Prelude} (h : p.Reads front head outer inside)
    (hnone : p.keyword = none) : head = [] := by
  rcases h.keyword with ⟨-, hnil⟩ | ⟨k, -, -, hk⟩
  · exact hnil
  · rw [hnone] at hk
    cases hk

theorem Prelude.Reads.markedBy_statement {p : Prelude} {text : List Char} {n : Node}
    (h : p.Reads front head outer inside) (htiled : Tiled .start (front ++ (head ++ rest)))
    (htext : text <+: cover rest) (hn : p.statement text.reverse = .ok n) :
    MarkedBy (front ++ (head ++ rest)) front.length n ∧ (walk n).map bare = [n] := by
  unfold Prelude.statement at hn
  split at hn
  · rename_i name hname
    cases hn
    have hat := h.begins_at htiled hname
    refine ⟨markedBy_length ?_ h.start hat, by rw [walk]; rfl⟩
    intro hnil
    rw [hnil] at hat
    simp at hat
  · rename_i hnone
    rw [h.head_eq_nil hnone, List.nil_append, List.reverse_reverse] at *
    cases hd : Declaration.ofText text p.start with
    | error e =>
      rw [hd] at hn
      cases hn
    | ok d =>
      rw [hd] at hn
      cases hn
      obtain ⟨hsource, hne, hbegins⟩ := Declaration.begins_of_ofText hd htext
      refine ⟨markedBy_length ?_ (hsource.trans h.start) hbegins, by rw [walk]; rfl⟩
      rintro rfl
      exact hne (List.prefix_nil.mp hbegins)

theorem Prelude.Reads.markedBy_block {p : Prelude} (before : List Node)
    (h : p.Reads front head outer inside) (htiled : Tiled .start (front ++ (head ++ rest)))
    (hne : rest ≠ []) (houter : cover outer <+: cover rest) :
    MarkedBy (front ++ (head ++ rest)) front.length ((p.block before).close []) := by
  have hne' : head ++ rest ≠ [] := List.append_ne_nil_of_right_ne_nil head hne
  unfold OpenBlock.close
  split
  · rename_i name hname
    exact markedBy_length hne' h.start (h.begins_at htiled hname)
  · rename_i hnone
    refine markedBy_length hne' h.start ?_
    change (String.ofList (trim p.kept.reverse)).toList <+: _
    rw [h.head_eq_nil hnone, h.kept, List.reverse_reverse, String.toList_ofList]
    exact trim_begins houter

end

/-! ## The run -/

namespace Reading

/-- The nodes of a reading are placed after every beginning of the tokens that is no longer
than `m`. -/
def PlacedUpTo (tokens : List Token) (m : Nat) : Prop :=
  ∀ (before : List Token) (r : Reading), before <+: tokens → before.length ≤ m →
    before.foldlM step start = .ok r → Placed tokens before.length (trail r.enclosing r.nodes)

section

variable {tokens before behind : List Token} {r r' : Reading}

/-- The nodes in front of the node being read are placed in front of its first token. -/
theorem Reaches.placed {p : Prelude} (h : r.Reaches before p) (htokens : tokens = before ++ behind)
    (hupTo : PlacedUpTo tokens before.length) :
    ∃ front head outer inside, tokens = front ++ (head ++ (outer ++ inside ++ behind)) ∧
      p.Reads front head outer inside ∧ front.length ≤ before.length ∧
      Placed tokens front.length (trail r.enclosing r.nodes) := by
  obtain ⟨front, head, outer, inside, hbefore, hfront, hreads⟩ := h
  have hsplit : tokens = front ++ (head ++ (outer ++ inside ++ behind)) := by
    rw [htokens, hbefore]
    simp
  have hle : front.length ≤ before.length := by
    rw [hbefore]
    simp only [List.length_append]
    omega
  have hplaced := hupTo front _ ⟨_, hsplit.symm⟩ hle hfront
  exact ⟨front, head, outer, inside, hsplit, hreads, hle, hplaced⟩

/-- A node without a block that ends behind `before` is placed behind the others. -/
theorem placed_statement {p : Prelude} {n : Node} (htiled : Tiled .start tokens)
    (htokens : tokens = before ++ behind) (hupTo : PlacedUpTo tokens before.length)
    (hread : before.foldlM step start = .ok r) (hp : r.pending = some p)
    (hn : p.statement p.kept = .ok n ∨ p.statement p.read = .ok n) :
    Placed tokens (min (before.length + 1) tokens.length) (trail r.enclosing (n :: r.nodes)) := by
  obtain ⟨front, head, outer, inside, hsplit, hreads, hle, hplaced⟩ :=
    (reaches_of_pending (htokens ▸ htiled) hread hp).placed htokens hupTo
  obtain ⟨text, htext, hn⟩ : ∃ text, text <+: cover (outer ++ inside ++ behind) ∧
      p.statement text.reverse = .ok n := by
    rcases hn with hn | hn
    · exact ⟨cover outer, ⟨cover (inside ++ behind), by simp⟩, hreads.kept ▸ hn⟩
    · exact ⟨cover (outer ++ inside), ⟨cover behind, by simp⟩, hreads.read ▸ hn⟩
  rw [hsplit] at htiled
  obtain ⟨hmarked, hbare⟩ := hreads.markedBy_statement htiled htext hn
  rw [← hsplit] at hmarked
  have hinside := hmarked.inside
  rw [trail_cons _ _ hbare]
  exact hplaced.concat hmarked (by omega)

theorem placed_endPending (htiled : Tiled .start tokens) (htokens : tokens = before ++ behind)
    (hupTo : PlacedUpTo tokens before.length) (hread : before.foldlM step start = .ok r)
    (hend : r.endPending = .ok r') :
    Placed tokens (min (before.length + 1) tokens.length) (trail r.enclosing r'.nodes) := by
  rcases endPending_eq_ok hend with ⟨-, rfl⟩ | ⟨p, n, hp, hn, rfl⟩
  · refine (hupTo before r' ⟨behind, htokens.symm⟩ (Nat.le_refl _) hread).mono ?_
    rw [htokens, List.length_append]
    omega
  · exact placed_statement htiled htokens hupTo hread hp (.inr hn)

/-- A token keeps the nodes placed. A node begins with this token or with an earlier one. -/
theorem placed_step {t : Token} (htiled : Tiled .start tokens)
    (htokens : tokens = before ++ t :: behind) (hupTo : PlacedUpTo tokens before.length)
    (hread : before.foldlM step start = .ok r) (hdoes : r.Does t r') :
    Placed tokens (before.length + 1) (trail r'.enclosing r'.nodes) := by
  have hplaced := hupTo before r ⟨_, htokens.symm⟩ (Nat.le_refl _) hread
  have hcut := htokens ▸ htiled
  cases hdoes with
  | pass => exact hplaced.mono (Nat.le_succ _)
  | keyword => exact hplaced.mono (Nat.le_succ _)
  | grow => exact hplaced.mono (Nat.le_succ _)
  | comment _ hcomment =>
    have hmarked : MarkedBy (before ++ t :: behind) before.length
        (.comment (String.ofList (trim t.commentBody)) t.start) :=
      markedBy_length (List.cons_ne_nil t behind) hcut.start_eq
        (hcut.isLead.begins_comment hcomment)
    rw [← htokens] at hmarked
    change Placed _ _ (trail r.enclosing (_ :: r.nodes))
    rw [trail_cons _ _ (by rw [walk]; rfl)]
    exact hplaced.concat hmarked (Nat.lt_succ_self _)
  | statement p n hp _ _ hn =>
    have hended := placed_statement htiled htokens hupTo hread hp (.inl hn)
    exact hended.mono (Nat.min_le_left _ _)
  | opens =>
    obtain ⟨front, head, outer, inside, hsplit, hreads, hle, hfront⟩ :=
      (reaches_current hcut hread).placed htokens hupTo
    have hmarked := hreads.markedBy_block r.nodes (hsplit ▸ htiled) (by simp)
      ⟨cover (inside ++ t :: behind), by simp⟩
    rw [← hsplit] at hmarked
    -- The open block is a node in which nothing stands yet.
    change Placed _ _ (trail r.enclosing (((r.current t).block r.nodes).close [] :: r.nodes))
    rw [trail_cons _ _ (walk_close_nil _)]
    exact hfront.concat hmarked (Nat.lt_succ_of_le hle)
  | closes b more r₁ _ _ henclosing hend =>
    -- Closing a block changes nothing, since all blocks count as closed.
    have hended := placed_endPending htiled htokens hupTo hread hend
    rw [henclosing] at hended
    exact hended.mono (Nat.min_le_left _ _)

end

theorem placedUpTo {tokens : List Token} (htiled : Tiled .start tokens) (m : Nat) :
    PlacedUpTo tokens m := by
  induction m with
  | zero =>
    intro before r _ hle hread
    cases List.eq_nil_of_length_eq_zero (Nat.le_zero.mp hle)
    cases hread
    exact ⟨[], .nil, .nil, nofun⟩
  | succ m ih =>
    intro before r hprefix hle hread
    rcases List.eq_nil_or_concat' before with rfl | ⟨before, t, rfl⟩
    · exact ih [] r hprefix (Nat.zero_le m) hread
    obtain ⟨r₀, hr₀, hstep⟩ := foldlM_concat_eq_ok hread
    obtain ⟨behind, htokens⟩ := hprefix
    rw [List.append_assoc] at htokens
    rw [List.length_append, List.length_singleton] at hle ⊢
    have hupTo : PlacedUpTo tokens before.length := fun front r hfront hshort =>
      ih front r hfront (by omega)
    exact placed_step htiled htokens.symm hupTo hr₀ (step_does hstep)

end Reading

/-- When the text ends, the nodes are placed among all of its tokens. -/
theorem placed_of_nodesOf {tokens : List Token} {nodes : List Node} (htiled : Tiled .start tokens)
    (h : nodesOf tokens = .ok nodes) : Placed tokens tokens.length ((walkAll nodes).map bare) := by
  unfold nodesOf at h
  cases hread : tokens.foldlM Reading.step Reading.start with
  | error e =>
    rw [hread] at h
    cases h
  | ok r =>
    rw [hread] at h
    change r.finish = _ at h
    unfold Reading.finish at h
    cases hend : r.endPending with
    | error e =>
      rw [hend] at h
      cases h
    | ok r' =>
      rw [hend] at h
      cases h
      have hplaced := Reading.placed_endPending htiled (List.append_nil tokens).symm
        (Reading.placedUpTo htiled _) hread hend
      rw [← Reading.enclosing_endPending hend] at hplaced
      exact hplaced.mono (Nat.min_le_right _ _)

/-! ## Places in the text -/

theorem standsAt_of_markedBy {s : List Char} {k : Nat} {n : Node}
    (h : MarkedBy (Token.ofText s) k n.bare) :
    n.StandsAt s (cover ((Token.ofText s).take k)).length := by
  have htiled := Token.tiled_ofText s
  have hcover := Token.cover_ofText s
  generalize Token.ofText s = tokens at h htiled hcover ⊢
  have hsplit : s = cover (tokens.take k) ++ cover (tokens.drop k) := by
    rw [← cover_append, List.take_append_drop, hcover]
  have hne : tokens.drop k ≠ [] := by
    intro hnil
    have := List.drop_eq_nil_iff.mp hnil
    exact absurd h.inside (by omega)
  have hpos : 0 < (cover (tokens.drop k)).length := by
    have hall : Tiled .start (tokens.take k ++ (tokens.drop k ++ [])) := by
      rwa [List.append_nil, List.take_append_drop]
    exact List.length_pos_iff.mpr (hall.cover_ne_nil hne)
  refine ⟨?_, ?_, ?_⟩
  · rw [hsplit, List.length_append]
    omega
  · rw [Location.ofOffset_eq, hsplit, List.take_left, ← h.source, Node.source_bare]
  · rw [hsplit, List.drop_left]
    exact (Node.begins_bare _ n).mp h.begins

/-- A token further on is at a larger offset and at a later place. -/
theorem ascend_of_lt {tokens : List Token} {k k' : Nat} (htiled : Tiled .start tokens)
    (hlt : k < k') (hle : k' ≤ tokens.length) :
    (cover (tokens.take k)).length < (cover (tokens.take k')).length ∧
      Location.Earlier (Location.start.after (cover (tokens.take k)))
        (Location.start.after (cover (tokens.take k'))) := by
  have hcut : tokens.take k' = tokens.take k ++ (tokens.take k').drop k := by
    have := List.take_append_drop k (tokens.take k')
    rw [List.take_take, Nat.min_eq_left (Nat.le_of_lt hlt)] at this
    exact this.symm
  have hne : (tokens.take k').drop k ≠ [] := by
    intro hnil
    have := List.drop_eq_nil_iff.mp hnil
    rw [List.length_take] at this
    omega
  have hall : Tiled .start (tokens.take k ++ ((tokens.take k').drop k ++ tokens.drop k')) := by
    rwa [← List.append_assoc, ← hcut, List.take_append_drop]
  have hpos := List.length_pos_iff.mpr (hall.cover_ne_nil hne)
  have hearlier := hall.earlier hne
  rw [← hcut] at hearlier
  refine ⟨?_, hearlier⟩
  rw [hcut, cover_append, List.length_append]
  omega

/-- The nodes of a text, from outer to inner and from first to last, begin at ascending offsets
and have the lines and columns of these; no two nodes have the same. -/
theorem the_nodes_stand_where_they_begin {text : String} {sheet : Stylesheet}
    (h : parse text = .ok sheet) :
    ∃ offsets : List Nat, offsets.Pairwise (· < ·) ∧
      List.Forall₂ (fun i n => Node.StandsAt text.toList i n) offsets (walkAll sheet.nodes) ∧
      ((walkAll sheet.nodes).map Node.source).Nodup := by
  unfold parse at h
  cases hnodes : nodesOf (Token.ofText text.toList) with
  | error e =>
    rw [hnodes] at h
    cases h
  | ok nodes =>
    rw [hnodes] at h
    cases h
    have htiled := Token.tiled_ofText text.toList
    obtain ⟨marks, hmarked, hascend, hlt⟩ := placed_of_nodesOf htiled hnodes
    rw [List.forall₂_map_right_iff] at hmarked
    have hascend := hascend.imp_of_mem fun hi hj hij =>
      ascend_of_lt htiled hij (Nat.le_of_lt (hlt _ hj))
    refine ⟨marks.map fun k => (cover ((Token.ofText text.toList).take k)).length, ?_, ?_, ?_⟩
    · exact List.pairwise_map.mpr (hascend.imp And.left)
    · exact List.forall₂_map_left_iff.mpr (hmarked.imp fun k n hn => standsAt_of_markedBy hn)
    · have hsources : marks.map (fun k => Location.start.after
          (cover ((Token.ofText text.toList).take k))) = (walkAll nodes).map Node.source := by
        rw [← List.forall₂_eq_eq_eq, List.forall₂_map_left_iff, List.forall₂_map_right_iff]
        exact hmarked.imp fun k n hn => hn.source.symm.trans (Node.source_bare n)
      rw [← hsources]
      exact List.pairwise_map.mpr (hascend.imp fun hlater => hlater.2.ne)

/-- Line ends of two characters, a character of two units and a blank in front of a selector. -/
theorem the_nodes_of_nested_blocks_stand_where_they_begin :
    let css := "/* 𝒳 */ @media print\r\n\x7b a:not( b )\t\x7b c: url( x\r\n) ; \x7d " ++
      "\u00A0e\x7b\x7d \x7d"
    let sheet : Stylesheet :=
      ⟨[.comment "𝒳" ⟨1, 1⟩, .block "media" "print" [
        .rule "a:not( b )" [.declaration ⟨"c", "url( x\r\n)", false, ⟨2, 16⟩⟩] ⟨2, 3⟩,
        .rule "e" [] ⟨3, 7⟩] ⟨1, 10⟩]⟩
    parse css = .ok sheet ∧ ∃ offsets : List Nat, offsets.Pairwise (· < ·) ∧
      List.Forall₂ (fun i n => Node.StandsAt css.toList i n) offsets (walkAll sheet.nodes) ∧
      ((walkAll sheet.nodes).map Node.source).Nodup := by
  intro css sheet
  have hparse : parse css = .ok sheet := by decide +kernel
  exact ⟨hparse, the_nodes_stand_where_they_begin hparse⟩

end Stylesheet

end ResponsiveCss
