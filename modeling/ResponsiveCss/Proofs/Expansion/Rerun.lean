-- Running twice is running once. An expansion leaves no responsive blocks and
-- keeps a plain stylesheet plain, so its text is read back and there is
-- nothing left to do.
import ResponsiveCss.Expansion.Expander
import ResponsiveCss.Proofs.Expansion.Outcome
import ResponsiveCss.Proofs.Expansion.Suffixed
import ResponsiveCss.Proofs.Stylesheet.RoundTrip

namespace ResponsiveCss

open Text Expansion

/-! ## Places do not count -/

theorem Node.isNamed_unplaced (name : String) (n : Node) :
    n.unplaced.isNamed name = n.isNamed name := by
  cases n <;> rfl

namespace Stylesheet

theorem named_eq_nil_of_unplaced {s t : Stylesheet} {name : String}
    (h : t.unplaced = s.unplaced) (hs : s.named name = []) : t.named name = [] := by
  rw [named_eq_nil_iff] at hs ⊢
  intro n hn
  have hnodes : t.nodes.map Node.unplaced = s.nodes.map Node.unplaced := by
    rw [← Node.allUnplaced_eq_map, ← Node.allUnplaced_eq_map]
    exact congrArg Stylesheet.nodes h
  have hmem : n.unplaced ∈ s.nodes.map Node.unplaced := by
    rw [← hnodes]
    exact List.mem_map_of_mem hn
  obtain ⟨m, hm, heq⟩ := List.mem_map.mp hmem
  rw [← Node.isNamed_unplaced, ← heq, Node.isNamed_unplaced]
  exact hs m hm

end Stylesheet

/-! ## What stays plain -/

/-- The name of the breakpoint may follow any plain selector, and its query is plain. -/
structure Breakpoint.Plain (b : Breakpoint) : Prop where
  name : ∀ c ∈ b.name.toList, isWord c = true
  query : PlainPrelude b.query

instance (b : Breakpoint) : Decidable b.Plain :=
  decidable_of_iff (b.name.toList.all isWord = true ∧ PlainPrelude b.query) (by
    rw [List.all_eq_true]
    exact ⟨fun ⟨h, h'⟩ => ⟨h, h'⟩, fun ⟨h, h'⟩ => ⟨h, h'⟩⟩)

namespace Node

theorem plain_append {n : Node} {more : List Node} (hn : n.Plain) (hmore : AllPlain more) :
    (n.append more).Plain := by
  cases n with
  | statement name params =>
    cases more with
    | nil => exact hn
    | cons m more => exact ⟨hn.1, hn.2.prelude, hmore⟩
  | block name params nodes =>
    refine ⟨hn.1, hn.2.1, ?_⟩
    have hnodes := hn.2.2
    rw [allPlain_iff] at hnodes hmore ⊢
    intro m hm
    rcases List.mem_append.mp hm with hm | hm
    · exact hnodes m hm
    · exact hmore m hm
  | rule => exact hn
  | declaration => exact hn
  | comment => exact hn

/-- The rules in a plain at-rule are plain. -/
theorem plain_of_mem_rules {n : Node} {a : AtRule} {r : Rule} (hn : n.Plain)
    (ha : n.atRule? = some a) (hr : r ∈ a.rules) : r.toNode.Plain := by
  cases n with
  | statement =>
    cases ha
    cases hr
  | block name params nodes =>
    cases ha
    obtain ⟨m, hm, hrule⟩ := List.mem_filterMap.mp hr
    have hplain := allPlain_iff.mp hn.2.2 m hm
    cases m <;> cases hrule
    exact hplain
  | rule => cases ha
  | declaration => cases ha
  | comment => cases ha

end Node

namespace Expansion

theorem plain_of_mem_variants {s : Stylesheet} {b : Breakpoint} {r : Rule} (hs : s.Plain)
    (hb : b.Plain) (hr : r ∈ s.variants b) : r.toNode.Plain := by
  obtain ⟨a, ha, hra⟩ := List.mem_flatMap.mp hr
  obtain ⟨⟨n, hn, han⟩, -⟩ := Stylesheet.mem_named.mp ha
  obtain ⟨q, hq, rfl⟩ := List.mem_map.mp hra
  have hplain := Node.plain_of_mem_rules (Node.allPlain_iff.mp hs n hn) han
    (List.mem_filter.mp hq).1
  obtain ⟨hne, hselector, hnodes⟩ := hplain
  obtain ⟨hne', hselector'⟩ :=
    plainPrelude_renamed (fragments? (trim a.params.toList)) hb.name hne hselector
  exact ⟨hne', hselector', hnodes⟩

theorem allPlain_variants {s : Stylesheet} {b : Breakpoint} (hs : s.Plain) (hb : b.Plain) :
    Node.AllPlain ((s.variants b).map Rule.toNode) := by
  rw [Node.allPlain_iff]
  intro n hn
  obtain ⟨r, hr, rfl⟩ := List.mem_map.mp hn
  exact plain_of_mem_variants hs hb hr

theorem plain_staying {bs : List Breakpoint} {s : Stylesheet} {n : Node} (hs : s.Plain)
    (hbs : ∀ b ∈ bs, b.Plain) (i : Nat) (hn : n.Plain) : (staying bs s i n).Plain := by
  unfold staying
  split
  · rename_i b hb
    have hmem : b ∈ bs := List.mem_of_find?_eq_some hb
    exact Node.plain_append hn (allPlain_variants hs (hbs b hmem))
  · exact hn

theorem plain_expand {bs : Breakpoints} {s : Stylesheet} {r : Report} (hs : s.Plain)
    (hbs : ∀ b ∈ bs.toList, b.Plain) (hok : (expand bs s).report = .ok r) :
    (expand bs s).sheet.Plain := by
  by_cases hnamed : s.named responsive = []
  · rw [expand_of_named_eq_nil bs hnamed]
    exact hs
  · unfold Stylesheet.Plain
    rw [nodes_expand hnamed hok, Node.allPlain_iff]
    intro n hn
    rcases List.mem_append.mp hn with hn | hn
    · obtain ⟨i, hi, rfl⟩ := List.mem_mapIdx.mp (List.mem_filter.mp hn).1
      exact plain_staying hs hbs i (Node.allPlain_iff.mp hs _ (List.getElem_mem hi))
    · obtain ⟨b, hb, rfl⟩ := List.mem_map.mp hn
      have hplain := hbs b (List.mem_filter.mp hb).1
      exact ⟨by decide, hplain.query, allPlain_variants hs hplain⟩

end Expansion

/-! ## Whole texts -/

namespace Expander

open Stylesheet

/-- A text without responsive blocks comes back as it is. -/
theorem process_of_named_eq_nil [Minifier] (e : Expander) (style : OutputStyle) {css : String}
    {sheet : Stylesheet} (hparse : parse css = .ok sheet) (hnone : sheet.named responsive = []) :
    e.process style css = .ok ⟨css, .idle⟩ := by
  unfold process run
  rw [hparse]
  dsimp only
  rw [expand_of_named_eq_nil e.breakpoints hnone]
  rfl

/-- Otherwise it is the text of the expanded stylesheet. -/
theorem render_of_process [Minifier] {e : Expander} {style : OutputStyle} {css : String}
    {sheet : Stylesheet} {first : Processed} (hparse : parse css = .ok sheet) (hne : sheet.named responsive ≠ [])
    (hrun : e.process style css = .ok first) :
    (expand e.breakpoints sheet).report = .ok first.report ∧
      (expand e.breakpoints sheet).sheet.render style = .ok first.css := by
  unfold process run at hrun
  rw [hparse] at hrun
  dsimp only at hrun
  cases hreport : (expand e.breakpoints sheet).report with
  | error f =>
    rw [hreport] at hrun
    cases hrun
  | ok report =>
    rw [hreport] at hrun
    dsimp only at hrun
    rw [if_pos (expanded_of_named_ne_nil hne hreport)] at hrun
    cases hrender : (expand e.breakpoints sheet).sheet.render style with
    | error f =>
      rw [hrender] at hrun
      cases hrun
    | ok text =>
      rw [hrender] at hrun
      cases hrun
      exact ⟨rfl, rfl⟩

/-- What an expander made of the text of a plain stylesheet, written compact or pretty, it
leaves as it is the next time, and has nothing to report. -/
theorem running_twice_is_running_once [Minifier] (e : Expander) (style : OutputStyle)
    (css : String) (sheet : Stylesheet) (first : Processed) (hstyle : style ≠ .minified)
    (hbreakpoints : ∀ b ∈ e.breakpoints.toList, b.Plain) (hparse : parse css = .ok sheet)
    (hplain : sheet.Plain) (hrun : e.process style css = .ok first) :
    e.process style first.css = .ok ⟨first.css, ⟨false, 0, 0, []⟩⟩ := by
  by_cases hnone : sheet.named responsive = []
  · have hfirst := process_of_named_eq_nil e style hparse hnone
    rw [hrun] at hfirst
    cases hfirst
    exact hrun
  · obtain ⟨hreport, hrender⟩ := render_of_process hparse hnone hrun
    -- The text is read as the expanded stylesheet, and that has no responsive blocks.
    obtain ⟨t, ht, hunplaced⟩ := parse_of_allWritten (plain_expand hplain hbreakpoints hreport)
      (allWritten_of_render hstyle hrender)
    exact process_of_named_eq_nil e style ht
      (named_eq_nil_of_unplaced hunplaced (named_expand hreport))

theorem eq_ok_of_toOption {ε α : Type} {x : Except ε α} {a : α} (h : x.toOption = some a) :
    x = .ok a := by
  cases x with
  | error => cases h
  | ok b =>
    cases h
    rfl

/-- A text with a block under parameters and a media statement that becomes a block. -/
theorem the_second_run_changes_nothing :
    let e : Expander := ⟨.ofList [⟨"small", "(min-width: 10px)"⟩, ⟨"", "print"⟩]⟩
    let css := "@responsive (.a, .b) \x7b .a.b:not(.c) \x7b top: 0 !IMPORTANT \x7d .c \x7b \x7d \x7d " ++
      "@media print;"
    let sheet : Stylesheet :=
      ⟨[.block "responsive" "(.a, .b)" [.rule ".a.b:not(.c)"
          [.declaration ⟨"top", "0", true, ⟨1, 39⟩⟩] ⟨1, 24⟩, .rule ".c" [] ⟨1, 59⟩] ⟨1, 1⟩,
        .statement "media" "print" ⟨1, 68⟩]⟩
    let text := "@media print \x7b .a-.b-:not(.c) \x7b top: 0 !important; \x7d \x7d " ++
      "@media (min-width: 10px) \x7b .a-small.b-small:not(.c) \x7b top: 0 !important; \x7d \x7d"
    (OutputStyle.compact ≠ .minified ∧ (∀ b ∈ e.breakpoints.toList, b.Plain) ∧
      parse css = .ok sheet ∧ sheet.Plain ∧
      e.process .compact css = .ok ⟨text, ⟨true, 1, 2, [⟨".c", ⟨1, 59⟩⟩]⟩⟩) ∧
    e.process .compact text = .ok ⟨text, ⟨false, 0, 0, []⟩⟩ := by
  intro e css sheet text
  have hbreakpoints : ∀ b ∈ e.breakpoints.toList, b.Plain := by decide +kernel
  have hparse : parse css = .ok sheet := eq_ok_of_toOption (by decide +kernel)
  have hplain : sheet.Plain := by decide +kernel
  have hrun : e.process .compact css = .ok ⟨text, ⟨true, 1, 2, [⟨".c", ⟨1, 59⟩⟩]⟩⟩ :=
    eq_ok_of_toOption (by decide +kernel)
  have hstyle : OutputStyle.compact ≠ .minified := by decide
  have hagain :=
    running_twice_is_running_once e .compact css sheet _ hstyle hbreakpoints hparse hplain hrun
  exact ⟨⟨hstyle, hbreakpoints, hparse, hplain, hrun⟩, hagain⟩

end Expander

end ResponsiveCss
