-- Texts in a row. Where a text ends with `;` or `}` outside of all blocks, what
-- comes behind it is read as if it stood alone, only at other places.
import ResponsiveCss.Proofs.Stylesheet.Derivation
import ResponsiveCss.Proofs.Stylesheet.Moved
import ResponsiveCss.Proofs.Token.Boundary

namespace ResponsiveCss

/-! ## Tokens -/

namespace Token

open Location

/-- A semicolon or a closing brace is a token in front of any text. -/
theorem isLead_of_ends {t : Token} {rest : List Char} (h : t.IsLead rest)
    (hkind : t.kind = .semicolon ∨ t.kind = .closing .curly) (rest' : List Char) :
    AtBoundary (t.text ++ rest') ∧ t.IsLead rest' := by
  rcases hkind with hkind | hkind
  · have htext := h.text_eq_of_semicolon hkind
    rw [htext]
    exact ⟨.semicolon rest', ';', rest', by rw [htext]; rfl, hkind, htext⟩
  · have htext := h.text_eq_of_brace hkind
    rw [htext]
    exact ⟨.brace rest', '}', rest', by rw [htext]; rfl, hkind, htext⟩

theorem after_start_ne_zero (s : List Char) :
    (Location.start.after s).line ≠ 0 ∧ (Location.start.after s).column ≠ 0 := by
  rw [after_eq]
  constructor
  · exact Nat.ne_of_gt (Nat.add_pos_left Nat.one_pos _)
  · dsimp only [Location.start]
    split <;> omega

/-- Behind a text that ends with such a token, another text has the tokens that it has alone. -/
theorem ofText_append {s : List Char} {t : Token} (hlast : (ofText s).getLast? = some t)
    (hkind : t.kind = .semicolon ∨ t.kind = .closing .curly) (s' : List Char) :
    ofText (s ++ s') = ofText s ++ (ofText s').map (moved (Location.start.after s)) := by
  obtain ⟨before, hbefore⟩ := List.getLast?_eq_some_iff.mp hlast
  have htiled : Tiled .start (before ++ [t]) := hbefore ▸ tiled_ofText s
  have hcover : cover before ++ t.text = s := by
    rw [← cover_ofText s, hbefore, cover_append, cover_cons, cover_nil, List.append_nil]
  have hends := isLead_of_ends htiled.isLead hkind
  have hstop : t.stop = (Location.start.after s).moved .start := by
    have hbase := after_start_ne_zero s
    rw [moved_start hbase.1 hbase.2, htiled.stop_eq, cover_append, cover_cons, cover_nil,
      List.append_nil, hcover]
  calc ofText (s ++ s')
    _ = listAfter .start 0 (cover before ++ (t.text ++ s')) := by
      rw [ofText, ← hcover, List.append_assoc]
    _ = before ++ listAfter t.start 0 (t.text ++ s') := by
      have hne : cover [t] ≠ [] := List.append_ne_nil_of_left_ne_nil htiled.isLead.ne_nil _
      rw [htiled.listAfter_append hne (hends []).1 (hends s').1, ← htiled.start_eq]
    _ = before ++ t :: listAfter ((Location.start.after s).moved .start) 0 s' := by
      rw [(hends s').2.listAfter_eq, hstop]
    _ = ofText s ++ (ofText s').map (moved (Location.start.after s)) := by
      rw [listAfter_moved _ (by decide), hbefore, List.append_assoc]
      rfl

end Token

namespace Stylesheet

open Token (ofText)

/-! ## Readings -/

/-- Nodes in front do not change what is read behind them. -/
theorem Reading.outcome_behind (nodes : List Node) (ts : List Token) :
    (⟨[], nodes, none⟩ : Reading).outcome ts = (nodesOf ts).map (nodes.reverse ++ ·) := by
  rcases nodesOf_cases ts with ⟨ns, hns, hread⟩ | ⟨e, he, hread⟩
  · rw [hread, ← List.append_nil ts, outcome_of_spells hns rfl]
    change Except.ok (ns.reverse ++ nodes).reverse = Except.ok (nodes.reverse ++ ns)
    rw [List.reverse_append, List.reverse_reverse]
  · rw [hread, outcome_of_fails he rfl]
    rfl

/-- Behind the tokens no block is open, and no node has begun without having ended. -/
def BackAtTop (ts : List Token) : Prop :=
  ∃ r, ts.foldlM Reading.step .start = .ok r ∧ r.enclosing = [] ∧ r.pending = none

instance (ts : List Token) : Decidable (BackAtTop ts) :=
  decidable_of_iff ((ts.foldlM Reading.step .start).toOption.any fun r =>
      r.enclosing.isEmpty && r.pending.isNone) (by
    unfold BackAtTop
    cases ts.foldlM Reading.step .start <;> simp [Except.toOption])

theorem nodesOf_append {ts us : List Token} {ns : List Node} (hback : BackAtTop ts)
    (hread : nodesOf ts = .ok ns) : nodesOf (ts ++ us) = (nodesOf us).map (ns ++ ·) := by
  obtain ⟨⟨_, nodes, _⟩, hnodes, rfl, rfl⟩ := hback
  have hns : nodes.reverse = ns := by
    unfold nodesOf at hread
    rw [hnodes] at hread
    exact Except.ok.inj hread
  unfold nodesOf
  rw [List.foldlM_append, hnodes, ← hns]
  exact Reading.outcome_behind nodes us

/-! ## Whole texts -/

/-- A text behind one that ends with `;` or `}` outside of all blocks is read, or fails, as it does
alone, with all its places counted on from the end of the other text. -/
theorem texts_in_a_row_are_read_one_after_the_other {first second : String} {sheet : Stylesheet}
    {t : Token} (hparse : parse first = .ok sheet)
    (hlast : (ofText first.toList).getLast? = some t)
    (hkind : t.kind = .semicolon ∨ t.kind = .closing .curly)
    (hback : BackAtTop (ofText first.toList)) :
    (∀ sheet', parse second = .ok sheet' → parse (first ++ second) =
        .ok ⟨sheet.nodes ++ sheet'.nodes.map (Node.moved (Location.start.after first.toList))⟩) ∧
      ∀ e, parse second = .error e →
        parse (first ++ second) = .error (e.moved (Location.start.after first.toList)) := by
  have hplaced : ∀ u ∈ ofText second.toList, u.start.line ≠ 0 :=
    fun u hu => Token.line_of_mem_listAfter (by decide) hu
  have hfirst : nodesOf (ofText first.toList) = .ok sheet.nodes := by
    rw [nodesOf_eq_ok_iff, ← parse_eq_ok_iff, hparse]
  have hboth : parse (first ++ second) =
      (((movedResult (Location.start.after first.toList)
        (List.map (Node.moved (Location.start.after first.toList)))
        (nodesOf (ofText second.toList))).map (sheet.nodes ++ ·)).map Stylesheet.mk) := by
    unfold parse
    rw [String.toList_append, Token.ofText_append hlast hkind, nodesOf_append hback hfirst,
      nodesOf_moved _ hplaced]
  rw [hboth]
  unfold parse
  cases nodesOf (ofText second.toList) with
  | ok ns =>
    refine ⟨?_, nofun⟩
    rintro _ ⟨⟩
    rfl
  | error e =>
    refine ⟨nofun, ?_⟩
    rintro _ ⟨⟩
    rfl

/-- The first text ends behind a character of two units. Of the second text only the first line has
its columns counted on, and so has the place of a fault in it. -/
theorem a_second_text_is_counted_on :
    let first := "@a b;\n.𝒳 \x7b\x7d"
    let second := " c: d;\n.e \x7b f: g \x7d"
    let sheet : Stylesheet := ⟨[.statement "a" "b" ⟨1, 1⟩, .rule ".𝒳" [] ⟨2, 1⟩]⟩
    let t : Token := ⟨.closing .curly, ['}'], ⟨2, 6⟩⟩
    (parse first = .ok sheet ∧ (ofText first.toList).getLast? = some t ∧
      (t.kind = .semicolon ∨ t.kind = .closing .curly) ∧ BackAtTop (ofText first.toList)) ∧
    parse (first ++ second) =
      .ok ⟨sheet.nodes ++ [.declaration ⟨"c", "d", false, ⟨2, 8⟩⟩,
        .rule ".e" [.declaration ⟨"f", "g", false, ⟨3, 6⟩⟩] ⟨3, 1⟩]⟩ ∧
    parse (first ++ " x;") = .error ⟨.unknownWord "x", ⟨2, 8⟩⟩ := by
  intro first second sheet t
  have hparse : parse first = .ok sheet := by decide +kernel
  have hlast : (ofText first.toList).getLast? = some t := by decide +kernel
  have hkind : t.kind = .semicolon ∨ t.kind = .closing .curly := by decide
  have hback : BackAtTop (ofText first.toList) := by decide +kernel
  have hsecond : parse second = .ok ⟨[.declaration ⟨"c", "d", false, ⟨1, 2⟩⟩,
      .rule ".e" [.declaration ⟨"f", "g", false, ⟨2, 6⟩⟩] ⟨2, 1⟩]⟩ := by decide +kernel
  have hfault : parse " x;" = .error ⟨.unknownWord "x", ⟨1, 2⟩⟩ := by decide +kernel
  have hbase : Location.start.after first.toList = ⟨2, 7⟩ := by decide +kernel
  have hread :=
    (texts_in_a_row_are_read_one_after_the_other hparse hlast hkind hback).1 _ hsecond
  have hfail :=
    (texts_in_a_row_are_read_one_after_the_other hparse hlast hkind hback).2 _ hfault
  rw [hbase] at hread hfail
  exact ⟨⟨hparse, hlast, hkind, hback⟩, hread, hfail⟩

end Stylesheet

end ResponsiveCss
