-- A text that stands behind another one. The tokens of the text, its nodes and
-- its fault have their places counted on from the end of the other text, and
-- else nothing changes.
import ResponsiveCss.Proofs.Token.Tiling
import ResponsiveCss.Stylesheet.Parse

namespace ResponsiveCss

/-! ## Places -/

namespace Location

/-- A place of a text that begins at `base` and not at the start. Only on its first line are the
columns other ones. -/
def moved (base l : Location) : Location :=
  ⟨l.line + (base.line - 1), if l.line = 1 then l.column + (base.column - 1) else l.column⟩

theorem moved_start {base : Location} (hline : base.line ≠ 0) (hcolumn : base.column ≠ 0) :
    base.moved start = base := by
  obtain ⟨line, column⟩ := base
  simp only [moved, start, if_pos, mk.injEq] at hline hcolumn ⊢
  omega

theorem line_after_ne_zero {l : Location} (h : l.line ≠ 0) (s : List Char) :
    (l.after s).line ≠ 0 := by
  rw [after_eq]
  dsimp only
  omega

theorem after_moved (base : Location) {l : Location} (h : l.line ≠ 0) (s : List Char) :
    (base.moved l).after s = base.moved (l.after s) := by
  rw [after_eq, after_eq]
  by_cases hends : lineEnds s = 0
  · by_cases hfirst : l.line = 1
    · simp [moved, hends, hfirst, Nat.add_right_comm]
    · simp [moved, hends, hfirst]
  · have hlater : l.line + lineEnds s ≠ 1 := by omega
    simp [moved, hends, hlater, Nat.add_right_comm]

end Location

/-! ## Tokens -/

namespace Token

/-- The token in a text that begins at `base`. -/
def moved (base : Location) (t : Token) : Token := { t with start := base.moved t.start }

theorem stop_moved (base : Location) {t : Token} (h : t.start.line ≠ 0) :
    (t.moved base).stop = base.moved t.stop :=
  Location.after_moved base h t.text

theorem listAfter_moved (base : Location) {l : Location} (h : l.line ≠ 0) (skip : Nat)
    (s : List Char) :
    listAfter (base.moved l) skip s = (listAfter l skip s).map (moved base) := by
  induction s generalizing l skip with
  | nil => cases skip <;> rfl
  | cons c s ih =>
    cases skip with
    | succ skip => exact ih h skip
    | zero =>
      rw [listAfter, listAfter, List.map_cons, Location.after_moved base h,
        ih (Location.line_after_ne_zero h _)]
      rfl

theorem line_of_mem_listAfter {l : Location} (h : l.line ≠ 0) {skip : Nat} {s : List Char}
    {t : Token} (ht : t ∈ listAfter l skip s) : t.start.line ≠ 0 := by
  induction s generalizing l skip with
  | nil => cases skip <;> cases ht
  | cons c s ih =>
    cases skip with
    | succ skip => exact ih h ht
    | zero =>
      rw [listAfter, List.mem_cons] at ht
      rcases ht with rfl | ht
      · exact h
      · exact ih (Location.line_after_ne_zero h _) ht

end Token

/-! ## Nodes -/

namespace Declaration

/-- The declaration in a text that begins at `base`. -/
def moved (base : Location) (d : Declaration) : Declaration :=
  { d with source := base.moved d.source }

end Declaration

namespace Node

mutual

/-- The node, with the nodes in it, in a text that begins at `base`. -/
def moved (base : Location) : Node → Node
  | .statement name params source => .statement name params (base.moved source)
  | .block name params nodes source => .block name params (allMoved base nodes) (base.moved source)
  | .rule selector nodes source => .rule selector (allMoved base nodes) (base.moved source)
  | .declaration d => .declaration (d.moved base)
  | .comment text source => .comment text (base.moved source)

/-- The nodes in a text that begins at `base`. -/
def allMoved (base : Location) : List Node → List Node
  | [] => []
  | n :: more => moved base n :: allMoved base more

end

theorem allMoved_eq_map (base : Location) (ns : List Node) :
    allMoved base ns = ns.map (moved base) := by
  induction ns with
  | nil => rfl
  | cons n more ih => rw [allMoved, ih, List.map_cons]

end Node

/-- The fault in a text that begins at `base`. -/
def ParseError.moved (base : Location) (e : ParseError) : ParseError :=
  { e with location := base.moved e.location }

namespace Stylesheet

/-! ## Reading -/

/-- What comes of reading a text that begins at `base`. -/
def movedResult {α : Type} (base : Location) (move : α → α) :
    Except ParseError α → Except ParseError α
  | .ok a => .ok (move a)
  | .error e => .error (e.moved base)

section

variable (base : Location)

/-- The beginning of a node in a text that begins at `base`. -/
def Prelude.moved (p : Prelude) : Prelude :=
  { p with start := base.moved p.start, noted := base.moved p.noted }

/-- The block in a text that begins at `base`. -/
def OpenBlock.moved (b : OpenBlock) : OpenBlock :=
  { b with start := base.moved b.start, before := b.before.map (Node.moved base) }

/-- The reading of a text that begins at `base`. -/
def Reading.moved (r : Reading) : Reading :=
  ⟨r.enclosing.map (OpenBlock.moved base), r.nodes.map (Node.moved base),
    r.pending.map (Prelude.moved base)⟩

theorem ofText_moved (text : List Char) (source : Location) :
    Declaration.ofText text (base.moved source) =
      movedResult base (Declaration.moved base) (Declaration.ofText text source) := by
  unfold Declaration.ofText
  cases Text.splitFirst? ':' text with
  | none => rfl
  | some parts =>
    dsimp only
    split
    · rfl
    · cases Declaration.dropMark? (Text.trim parts.2) <;> rfl

namespace Prelude

theorem statement_moved (p : Prelude) (text : List Char) :
    (p.moved base).statement text = movedResult base (Node.moved base) (p.statement text) := by
  obtain ⟨keyword, start, read, kept, noted, groups⟩ := p
  cases keyword with
  | some name => rfl
  | none =>
    change (Declaration.ofText text.reverse (base.moved start)).map Node.declaration = _
    rw [ofText_moved]
    unfold statement
    cases Declaration.ofText text.reverse start <;> rfl

variable {t : Token}

theorem push_moved (p : Prelude) (ht : t.start.line ≠ 0) :
    (p.moved base).push (t.moved base) = (p.push t).moved base := by
  unfold push
  rw [Token.stop_moved base ht]
  rfl

theorem enter_moved (p : Prelude) (b : Bracket) (ht : t.start.line ≠ 0) :
    (p.moved base).enter b (t.moved base) = (p.enter b t).moved base := by
  unfold enter
  rw [p.push_moved base ht]
  rfl

end Prelude

theorem OpenBlock.close_moved (b : OpenBlock) (ns : List Node) :
    (b.moved base).close (ns.map (Node.moved base)) = (b.close ns).moved base := by
  obtain ⟨keyword, text, start, before⟩ := b
  cases keyword with
  | some name =>
    change Node.block name text _ _ = Node.block name text (Node.allMoved base ns) _
    rw [Node.allMoved_eq_map]
    rfl
  | none =>
    change Node.rule text _ _ = Node.rule text (Node.allMoved base ns) _
    rw [Node.allMoved_eq_map]
    rfl

namespace Reading

theorem endPending_moved (r : Reading) :
    (r.moved base).endPending = movedResult base (Reading.moved base) r.endPending := by
  obtain ⟨enclosing, nodes, pending⟩ := r
  cases pending with
  | none => rfl
  | some p =>
    change ((p.moved base).statement p.read).map _ = _
    rw [p.statement_moved base]
    change _ = movedResult _ _ ((p.statement p.read).map _)
    cases p.statement p.read <;> rfl

theorem endBlock_moved (r : Reading) (fault : Location) :
    (r.moved base).endBlock (base.moved fault) =
      movedResult base (Reading.moved base) (r.endBlock fault) := by
  obtain ⟨enclosing, nodes, pending⟩ := r
  cases enclosing with
  | nil => rfl
  | cons b more =>
    have hend := endPending_moved base ⟨b :: more, nodes, pending⟩
    unfold endBlock
    change (endPending _).map _ = movedResult _ _ ((endPending _).map _)
    rw [hend]
    cases endPending ⟨b :: more, nodes, pending⟩ with
    | error e => rfl
    | ok r =>
      change Except.ok (Reading.mk _ ((b.moved base).close (r.nodes.map _).reverse :: _) _) = _
      rw [← List.map_reverse, b.close_moved base]
      rfl

variable {t : Token}

theorem scan_moved (r : Reading) (p : Prelude) (ht : t.start.line ≠ 0) :
    (r.moved base).scan (p.moved base) (t.moved base) =
      movedResult base (Reading.moved base) (r.scan p t) := by
  have hpush := p.push_moved base ht
  have henter := fun b => p.enter_moved base b ht
  have hgoes : ∀ {q q' : Prelude}, q = q'.moved base →
      (.ok { r.moved base with pending := some q } : Except ParseError Reading) =
        movedResult base (Reading.moved base) (.ok { r with pending := some q' }) := by
    rintro q q' rfl
    rfl
  obtain ⟨kind, text, start⟩ := t
  unfold scan
  rw [show (p.moved base).groups = p.groups from rfl]
  cases p.groups with
  | cons b groups => rfl
  | nil =>
    dsimp only
    cases kind with
    | semicolon =>
      change ((p.moved base).statement p.kept).map _ = movedResult _ _ ((p.statement p.kept).map _)
      rw [p.statement_moved base]
      cases p.statement p.kept <;> rfl
    | opening b =>
      cases b with
      | curly => rfl
      | round => exact hgoes (henter .round)
      | square => exact hgoes (henter .square)
    | call => exact hgoes (henter .round)
    | closing b =>
      cases b with
      | curly => exact endBlock_moved base { r with pending := some p } p.noted
      | round => exact hgoes hpush
      | square => exact hgoes hpush
    | badString => rfl
    | badUrl => rfl
    | _ => exact hgoes hpush

theorem step_moved (r : Reading) (ht : t.start.line ≠ 0) :
    (r.moved base).step (t.moved base) = movedResult base (Reading.moved base) (r.step t) := by
  have hstop := Token.stop_moved base ht
  obtain ⟨enclosing, nodes, pending⟩ := r
  cases pending with
  | some p => exact scan_moved base _ p ht
  | none =>
    have hscan := scan_moved base ⟨enclosing, nodes, none⟩ (.empty none t.start t.start) ht
    obtain ⟨kind, text, start⟩ := t
    cases kind with
    | space => rfl
    | semicolon => rfl
    | comment => rfl
    | atKeyword =>
      exact congrArg (fun l => Except.ok (Reading.mk _ _ (some (.empty (some _) _ l)))) hstop
    | closing b =>
      cases b with
      | curly => exact endBlock_moved base ⟨enclosing, nodes, none⟩ start
      | round => exact hscan
      | square => exact hscan
    | _ => exact hscan

theorem closeAll_moved (bs : List OpenBlock) (ns : List Node) :
    closeAll (bs.map (OpenBlock.moved base)) (ns.map (Node.moved base)) =
      (closeAll bs ns).map (Node.moved base) := by
  induction bs generalizing ns with
  | nil => exact List.map_reverse.symm
  | cons b bs ih =>
    rw [List.map_cons, closeAll, closeAll, ← ih, ← List.map_reverse, b.close_moved base]
    rfl

theorem finish_moved (r : Reading) :
    (r.moved base).finish = movedResult base (List.map (Node.moved base)) r.finish := by
  unfold finish
  rw [endPending_moved]
  cases r.endPending with
  | error e => rfl
  | ok r => exact congrArg Except.ok (closeAll_moved base r.enclosing r.nodes)

/-- Tokens that stand further on are read just as they are where they stand. -/
theorem foldlM_moved {ts : List Token} (hts : ∀ t ∈ ts, t.start.line ≠ 0) (r : Reading) :
    (ts.map (Token.moved base)).foldlM step (r.moved base) =
      movedResult base (Reading.moved base) (ts.foldlM step r) := by
  induction ts generalizing r with
  | nil => rfl
  | cons t ts ih =>
    rw [List.map_cons, List.foldlM_cons, List.foldlM_cons,
      step_moved base r (hts t List.mem_cons_self)]
    cases r.step t with
    | error e => rfl
    | ok r' => exact ih (fun u hu => hts u (List.mem_cons_of_mem t hu)) r'

end Reading

theorem nodesOf_moved {ts : List Token} (hts : ∀ t ∈ ts, t.start.line ≠ 0) :
    nodesOf (ts.map (Token.moved base)) =
      movedResult base (List.map (Node.moved base)) (nodesOf ts) := by
  have hread := Reading.foldlM_moved base hts .start
  unfold nodesOf
  rw [show Reading.start = Reading.start.moved base from rfl, hread]
  change _ = movedResult _ _ (ts.foldlM Reading.step .start >>= Reading.finish)
  cases ts.foldlM Reading.step .start with
  | error e => rfl
  | ok r => exact Reading.finish_moved base r

end

end Stylesheet

end ResponsiveCss
