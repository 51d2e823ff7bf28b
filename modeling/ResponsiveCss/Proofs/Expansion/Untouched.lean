-- Texts that are left alone. At-rules are named by the at-keywords of the text.
-- Where no character is escaped, such a name is written out behind its sign, so a
-- text without `@responsive` has no responsive blocks.
import ResponsiveCss.Proofs.Expansion.Rerun
import ResponsiveCss.Proofs.Stylesheet.Derivation

namespace ResponsiveCss

/-! ## Names without escapes -/

namespace Token

theorem charOf_eq_self {c : Char} (h : charOf c.toNat ≠ replacement) : charOf c.toNat = c := by
  apply charOf_toNat
  intro hzero
  exact h (by rw [hzero]; rfl)

/-- A name without escapes means itself, unless one of its characters cannot be had. -/
theorem unescape_eq_self {w : List Char} (hslash : '\\' ∉ w)
    (hreplaced : replacement ∉ unescape w) : unescape w = w := by
  unfold unescape at hreplaced ⊢
  induction w with
  | nil => rfl
  | cons c w ih =>
    rw [List.mem_cons, not_or] at hslash
    have hstep : unescapeAfter 0 (c :: w) = charOf c.toNat :: unescapeAfter 0 w := by
      rw [unescapeAfter, if_neg fun h => hslash.1 h.symm]
    rw [hstep, List.mem_cons, not_or] at hreplaced
    rw [hstep, ih hslash.2 hreplaced.2, charOf_eq_self fun h => hreplaced.1 h.symm]

/-- An at-keyword without escapes is its sign with its name. -/
theorem IsLead.text_eq_of_keyword {k : Token} {rest name : List Char} (h : k.IsLead rest)
    (hkind : k.kind = .atKeyword) (hslash : '\\' ∉ k.text) (hreplaced : replacement ∉ name)
    (hname : k.keyword = String.ofList name) : k.text = '@' :: name := by
  obtain ⟨c, w, htext⟩ := List.exists_cons_of_ne_nil h.ne_nil
  obtain ⟨s, hs⟩ := h.begins_at hkind
  have hc : c = '@' := by
    rw [htext] at hs
    cases hs
    rfl
  have hkeyword : unescape w = name := by
    have hlist := congrArg String.toList hname
    simpa [keyword, htext] using hlist
  have hw : unescape w = w := by
    apply unescape_eq_self
    · rw [htext, List.mem_cons, not_or] at hslash
      exact hslash.2
    · rwa [hkeyword]
  rw [htext, hc, ← hkeyword, hw]

/-- A token of a text is a part of it. -/
theorem infix_of_mem_ofText {s : List Char} {t : Token} (h : t ∈ ofText s) :
    t.text <:+: s ∧ ∃ rest, t.IsLead rest := by
  obtain ⟨before, behind, hsplit⟩ := List.append_of_mem h
  have htiled := tiled_ofText s
  have hcover := cover_ofText s
  rw [hsplit] at htiled hcover
  refine ⟨⟨cover before, cover behind, ?_⟩, _, htiled.isLead⟩
  rw [← hcover, cover_append, cover_cons, List.append_assoc]

end Token

namespace Stylesheet

/-! ## The keywords of a stylesheet -/

theorem Beginning.Leads.mem_of_keyword {g : Beginning} {head rest : List Token} {name : String}
    (h : g.Leads head rest) (hname : g.keyword = some name) :
    ∃ k ∈ head, k.kind = .atKeyword ∧ k.keyword = name := by
  cases h with
  | @atRule k _ hk =>
    cases hname
    exact ⟨k, List.mem_singleton_self k, hk, rfl⟩
  | other => cases hname

theorem Beginning.Statement.keyword_eq {g : Beginning} {text : List Char} {n : Node} {a : AtRule}
    (h : g.Statement text n) (ha : n.atRule? = some a) : g.keyword = some a.name := by
  cases h with
  | atRule _ hname =>
    cases ha
    exact hname
  | declaration => cases ha

theorem Beginning.keyword_of_block {g : Beginning} {text : List Char} {nodes : List Node}
    {a : AtRule} (ha : (g.block text nodes).atRule? = some a) : g.keyword = some a.name := by
  unfold Beginning.block at ha
  split at ha
  · rename_i name hname
    cases ha
    exact hname
  · cases ha

/-- An at-rule has its name from an at-keyword among the tokens. -/
theorem Spells.keyword_of_mem {e : Ending} {ts : List Token} {ns : List Node} {n : Node}
    {a : AtRule} (h : Spells e ts ns) (hn : n ∈ ns) (ha : n.atRule? = some a) :
    ∃ k ∈ ts, k.kind = .atKeyword ∧ k.keyword = a.name := by
  have hfront : ∀ {head rest : List Token},
      (∃ k ∈ head, k.kind = .atKeyword ∧ k.keyword = a.name) →
        ∃ k ∈ head ++ rest, k.kind = .atKeyword ∧ k.keyword = a.name :=
    fun ⟨k, hk, h⟩ => ⟨k, List.mem_append_left _ hk, h⟩
  induction h with
  | nil => cases hn
  | gap _ _ ih =>
    obtain ⟨k, hk, h⟩ := ih hn
    exact ⟨k, List.mem_cons_of_mem _ hk, h⟩
  | comment _ _ ih =>
    rcases List.mem_cons.mp hn with rfl | hn
    · cases ha
    · obtain ⟨k, hk, h⟩ := ih hn
      exact ⟨k, List.mem_cons_of_mem _ hk, h⟩
  | statement hleads _ _ hstatement _ ih =>
    rcases List.mem_cons.mp hn with rfl | hn
    · exact hfront (hleads.mem_of_keyword (hstatement.keyword_eq ha))
    · obtain ⟨k, hk, h⟩ := ih hn
      exact ⟨k, by simp [hk], h⟩
  | block hleads _ _ _ _ _ _ ih =>
    rcases List.mem_cons.mp hn with rfl | hn
    · exact hfront (hleads.mem_of_keyword (Beginning.keyword_of_block ha))
    · obtain ⟨k, hk, h⟩ := ih hn
      exact ⟨k, by simp [hk], h⟩
  | lastStatement hleads _ hstatement =>
    rw [List.mem_singleton.mp hn] at ha
    exact hfront (hleads.mem_of_keyword (hstatement.keyword_eq ha))
  | lastBlock hleads _ _ _ _ =>
    rw [List.mem_singleton.mp hn] at ha
    exact hfront (hleads.mem_of_keyword (Beginning.keyword_of_block ha))

/-- Where nothing is escaped, at-rules occur only if their names are written out. -/
theorem named_eq_nil_of_not_infix {css name : String} {sheet : Stylesheet}
    (hparse : parse css = .ok sheet) (hslash : '\\' ∉ css.toList)
    (hreplaced : Token.replacement ∉ name.toList) (hname : ¬ '@' :: name.toList <:+: css.toList) :
    sheet.named name = [] := by
  rw [List.eq_nil_iff_forall_not_mem]
  intro a ha
  obtain ⟨⟨n, hn, han⟩, hnamed⟩ := mem_named.mp ha
  obtain ⟨k, hk, hkind, hkeyword⟩ := (parse_eq_ok_iff.mp hparse).keyword_of_mem hn han
  obtain ⟨hpart, rest, hlead⟩ := Token.infix_of_mem_ofText hk
  have htext : k.text = '@' :: name.toList :=
    hlead.text_eq_of_keyword hkind (fun h => hslash (hpart.subset h)) hreplaced
      (by rw [hkeyword, hnamed, String.ofList_toList])
  exact hname (htext ▸ hpart)

end Stylesheet

/-! ## Whole texts -/

namespace Expander

open Stylesheet Expansion

/-- A text without `@responsive` and without escapes comes back as it is, in every style, unless it
cannot be read. -/
theorem a_text_without_the_mark_comes_back [Minifier] (e : Expander) (style : OutputStyle)
    (css : String) (hmark : ¬ "@responsive".toList <:+: css.toList) (hslash : '\\' ∉ css.toList) :
    (∃ f, parse css = .error f ∧ e.process style css = .error (.parse f)) ∨
      e.process style css = .ok ⟨css, ⟨false, 0, 0, []⟩⟩ := by
  cases hparse : parse css with
  | error f =>
    refine .inl ⟨f, rfl, ?_⟩
    unfold process run
    rw [hparse]
  | ok sheet =>
    have hnone : sheet.named responsive = [] :=
      named_eq_nil_of_not_infix hparse hslash (by decide) hmark
    exact .inr (process_of_named_eq_nil e style hparse hnone)

/-- The name is cut in two by a character that cannot be had, and by a space in a text. -/
theorem a_broken_mark_comes_back :
    let e : Expander := ⟨.ofList [⟨"small", "print"⟩]⟩
    let css := "@respon\x00sive \x7b .a \x7b\x7d \x7d .b \x7b content: '@ responsive' \x7d"
    (¬ "@responsive".toList <:+: css.toList ∧ '\\' ∉ css.toList) ∧
      e.process .minified css = .ok ⟨css, ⟨false, 0, 0, []⟩⟩ := by
  intro e css
  have hmark : ¬ "@responsive".toList <:+: css.toList := by decide +kernel
  have hslash : '\\' ∉ css.toList := by decide +kernel
  have hread : (parse css).toOption.isSome = true := by decide +kernel
  refine ⟨⟨hmark, hslash⟩, ?_⟩
  rcases a_text_without_the_mark_comes_back e .minified css hmark hslash with ⟨f, hf, -⟩ | h
  · rw [hf] at hread
    cases hread
  · exact h

end Expander

end ResponsiveCss
