-- Printing and reading again. Whatever text writes plain nodes is read as
-- these nodes, at new places; so both forms of printing are undone.
import ResponsiveCss.Minified.Basic
import ResponsiveCss.Proofs.Stylesheet.Declaration
import ResponsiveCss.Proofs.Stylesheet.Plain
import ResponsiveCss.Proofs.Stylesheet.Reading
import ResponsiveCss.Proofs.Stylesheet.Written

namespace ResponsiveCss

open Text Token

/-! ## Plain texts are calm -/

theorem isCalm_of_isPlain {c : Char} (h : isPlain c = true) : isCalm c = true := by
  simp [isCalm, h]

theorem calmText_of_isPlain {s : List Char} (h : ∀ c ∈ s, isPlain c = true) : CalmText s :=
  calmText_of_noParens (fun c hc => isCalm_of_isPlain (h c hc)) (noParens_of_isPlain h)

theorem calmText_of_prelude {s : String} (h : PlainPrelude s) : CalmText s.toList := by
  refine ⟨fun c hc => ?_, h.balanced, h.noUrl⟩
  rcases h.chars c hc with hc | rfl | rfl
  · exact isCalm_of_isPlain hc
  · rfl
  · rfl

theorem isPlain_of_space {s : List Char} (h : ∀ c ∈ s, c = ' ') : ∀ c ∈ s, isPlain c = true := by
  intro c hc
  rw [h c hc]
  decide

theorem allBlank_of_space {s : List Char} (h : ∀ c ∈ s, c = ' ') : AllBlank s := by
  intro c hc
  rw [h c hc, isBlank_space]

/-- A name token begins where a plain name does. -/
theorem startsName_of_plainName {name : String} (h : PlainName name) (s : List Char) :
    startsName (name.toList ++ s) = true := by
  cases hname : name.toList with
  | nil =>
    have := h.1
    rw [hname] at this
    cases this
  | cons c t =>
    have halpha : c.isAlpha = true := by
      have := h.1
      rwa [hname] at this
    refine startsName_of_isNameStart ?_ (by simp [isNameStart, halpha])
    rintro rfl
    cases halpha

/-- A text that is not empty begins with something else than white space. -/
theorem head_of_prelude {s : String} (hne : s ≠ "") (h : PlainPrelude s) :
    ∃ c t, s.toList = c :: t ∧ c ≠ ' ' ∧ isSpace c = false := by
  cases hs : s.toList with
  | nil => exact absurd (String.toList_eq_nil_iff.mp hs) hne
  | cons c t =>
    have hspace : c ≠ ' ' := by
      rintro rfl
      exact h.tight.1 (by rw [hs]; rfl)
    have hcalm := (calmText_of_prelude h).chars c (by rw [hs]; simp)
    exact ⟨c, t, rfl, hspace, by rw [isSpace_of_isCalm hcalm]; simpa using hspace⟩

/-- The text of a declaration has only plain characters and the sign of its mark. -/
theorem isPlain_of_mem_text {d : Declaration} (hproperty : PlainValue d.property)
    (hvalue : PlainValue d.value) {c : Char} (hc : c ∈ d.text) : isPlain c = true ∨ c = '!' := by
  have hmark : (' ' :: Declaration.importantMark).all (fun c => isPlain c || c = '!') = true := by
    decide
  unfold Declaration.text at hc
  rw [List.mem_append, List.mem_append, List.mem_cons, List.mem_cons] at hc
  rcases hc with (hc | rfl | rfl | hc) | hc
  · exact Or.inl (hproperty.chars c hc)
  · exact Or.inl (by decide)
  · exact Or.inl (by decide)
  · exact Or.inl (hvalue.chars c hc)
  · split at hc
    · simpa using List.all_eq_true.mp hmark c hc
    · cases hc

theorem noParens_text {d : Declaration} (hproperty : PlainValue d.property)
    (hvalue : PlainValue d.value) : NoParens d.text := by
  intro c hc
  constructor <;> (rintro rfl; exact absurd (isPlain_of_mem_text hproperty hvalue hc) (by decide))

theorem calmText_text {d : Declaration} (hproperty : PlainValue d.property)
    (hvalue : PlainValue d.value) : CalmText d.text := by
  refine calmText_of_noParens (fun c hc => ?_) (noParens_text hproperty hvalue)
  rcases isPlain_of_mem_text hproperty hvalue hc with hc | rfl
  · exact isCalm_of_isPlain hc
  · rfl

namespace Stylesheet

open Node

namespace Reading

/-- The prelude `p` begins a node with this keyword and this text. -/
structure Begins (p : Prelude) (keyword : Option String) (text : String) : Prop where
  keyword : p.keyword = keyword
  text : String.ofList (trim p.kept.reverse) = text
  groups : p.groups = []

theorem Begins.close_block {p : Prelude} {name text : String} (h : Begins p (some name) text)
    (before nodes : List Node) :
    (p.block before).close nodes = .block name text nodes p.start := by
  unfold Prelude.block OpenBlock.close
  rw [h.keyword, h.text]

theorem Begins.close_rule {p : Prelude} {text : String} (h : Begins p none text)
    (before nodes : List Node) : (p.block before).close nodes = .rule text nodes p.start := by
  unfold Prelude.block OpenBlock.close
  rw [h.keyword, h.text]

theorem Begins.statement_eq {p : Prelude} {name text : String} (h : Begins p (some name) text) :
    p.statement p.kept = .ok (.statement name text p.start) := by
  unfold Prelude.statement
  rw [h.keyword]
  exact congrArg (fun t => Except.ok (Node.statement name t p.start)) h.text

theorem Scanned.kept_reverse {keyword : Option String} {start noted : Location}
    {text : List Char} {p : Prelude} (h : Scanned (.empty keyword start noted) text p)
    (hlast : text.getLast? ≠ some ')') : p.kept.reverse = text := by
  rw [h.kept hlast, h.read]
  simp [Prelude.empty]

section

variable {enclosing : List OpenBlock} {nodes : List Node} {l : Location} {rest : List Char}
  {stop : Char}

theorem heading_toList (name params : String) :
    ∃ gap, (gap = [' '] ∨ gap = [] ∧ params = "") ∧
      (AtRule.heading name params).toList = '@' :: name.toList ++ (gap ++ params.toList) := by
  unfold AtRule.heading
  by_cases h : params = ""
  · exact ⟨[], Or.inr ⟨rfl, h⟩, by simp [h]⟩
  · exact ⟨[' '], Or.inl rfl, by simp [h]⟩

theorem toList_commentText (text : String) : (commentText text).toList =
    '/' :: '*' :: (' ' :: (text.toList ++ [' ']) ++ ['*', '/']) := by
  simp [commentText]

theorem readOn_heading {name params : String} {tail : List Char} (hname : PlainName name)
    (hparams : PlainPrelude params) (htail : ∀ c ∈ tail, c = ' ')
    (hlast : (params.toList ++ tail).getLast? ≠ some ')') (hstop : isStop stop = true) :
    ∃ l' p, (⟨enclosing, nodes, none⟩ : Reading).readOn l
        ((AtRule.heading name params).toList ++ tail ++ stop :: rest) =
      (⟨enclosing, nodes, some p⟩ : Reading).readOn l' (stop :: rest) ∧
        Begins p (some name) params := by
  obtain ⟨gap, hgap, hheading⟩ := heading_toList name params
  have hspaces : ∀ c ∈ gap, c = ' ' := by
    rcases hgap with rfl | ⟨rfl, -⟩ <;> simp
  -- What stands behind the name is calm, and its first character belongs to no name.
  have hcalm : CalmText (gap ++ (params.toList ++ tail)) := by
    have hplain := isPlain_of_space htail
    have hinner := (calmText_of_prelude hparams).append (calmText_of_isPlain hplain)
      (noParens_of_isPlain hplain)
    rcases hgap with rfl | ⟨rfl, -⟩
    · exact hinner.behind_space
    · exact hinner
  have hhead : ∀ d, (gap ++ (params.toList ++ tail)).head? = some d → isWord d = false := by
    intro d hd
    rcases hgap with rfl | ⟨rfl, rfl⟩
    · cases hd
      decide
    · rw [htail d (List.mem_of_head? hd)]
      decide
  have hlast' : (gap ++ (params.toList ++ tail)).getLast? ≠ some ')' := by
    rw [List.getLast?_append]
    intro h
    rcases Option.or_eq_some_iff.mp h with h | ⟨-, h⟩
    · exact hlast h
    · have := hspaces _ (List.mem_of_getLast? h)
      cases this
  obtain ⟨l₁, hkeyword⟩ := readOn_keyword (l := l) (startsName_of_plainName hname _)
    hname.2 (endsName_of_calm hcalm.chars hstop hhead)
  obtain ⟨l₂, p, hread, hscanned⟩ :=
    readOn_calm (p := .empty (some (String.ofList name.toList)) l l₁) (l := l₁) hcalm hstop rfl rfl
  refine ⟨l₂, p, ?_, hscanned.keyword.trans (by simp [Prelude.empty]), ?_, hscanned.groups⟩
  · rw [← hread, ← hkeyword, hheading]
    simp
  · rw [hscanned.kept_reverse hlast', ← List.append_assoc]
    rw [trim_between (allBlank_of_space hspaces) hparams.trimmed (allBlank_of_space htail)]
    simp

theorem readOn_selector {selector : String} (hne : selector ≠ "")
    (hselector : PlainPrelude selector) :
    ∃ l' p, (⟨enclosing, nodes, none⟩ : Reading).readOn l (selector.toList ++ ' ' :: '{' :: rest) =
      (⟨enclosing, nodes, some p⟩ : Reading).readOn l' ('{' :: rest) ∧ Begins p none selector := by
  have hspace : CalmText [' '] := calmText_of_isPlain (isPlain_of_space (by simp))
  have hcalm := (calmText_of_prelude hselector).append hspace (by simp [NoParens])
  have hhead : (selector.toList ++ [' ']).head? ≠ some ' ' := by
    obtain ⟨c, t, hs, hc, -⟩ := head_of_prelude hne hselector
    rw [hs]
    simpa using hc
  obtain ⟨l', p, hread, hscanned⟩ :=
    readOn_start (l := l) (by simp) hhead hcalm (show isStop '{' = true by decide)
  refine ⟨l', p, ?_, hscanned.keyword, ?_, hscanned.groups⟩
  · rw [← hread]
    simp
  · rw [hscanned.kept_reverse (by simp), trim_append_blank _ allBlank_space]
    rw [trim_eq_self hselector.trimmed, String.ofList_toList]

theorem readOn_declaration {d : Declaration} (hd : (Node.declaration d).Plain) :
    ∃ l' source, (⟨enclosing, nodes, none⟩ : Reading).readOn l (d.render.toList ++ rest) =
      (⟨enclosing, .declaration { d with source } :: nodes, none⟩ : Reading).readOn l' rest := by
  obtain ⟨⟨hne, hproperty, hcolon⟩, hvalue⟩ := hd
  have htext := d.toList_render
  have hhead : d.text.head? ≠ some ' ' := by
    obtain ⟨c, t, hs, hc, -⟩ := head_of_prelude hne hproperty.prelude
    rw [Declaration.text, hs]
    simpa using hc
  have hlast : d.text.getLast? ≠ some ')' := by
    intro h
    exact (noParens_text hproperty hvalue _ (List.mem_of_getLast? h)).2 rfl
  obtain ⟨l', p, hread, hscanned⟩ :=
    readOn_start (l := l) (show d.text ≠ [] by simp [Declaration.text]) hhead
      (calmText_text hproperty hvalue) (show isStop ';' = true by decide)
  have hof := Declaration.ofText_text hne hproperty hcolon hvalue p.start
  refine ⟨l'.after [';'], p.start, ?_⟩
  rw [htext, List.append_assoc, List.singleton_append, hread, readOn_semicolon hscanned.groups]
  have hstatement : p.statement p.kept = .ok (.declaration { d with source := p.start }) := by
    unfold Prelude.statement
    rw [hscanned.keyword]
    change (Declaration.ofText p.kept.reverse p.start).map Node.declaration = _
    rw [hscanned.kept_reverse hlast, hof]
    rfl
  rw [hstatement]
  rfl

theorem readOn_commentText {text : String} (h : PlainComment text) :
    ∃ l', (⟨enclosing, nodes, none⟩ : Reading).readOn l ((commentText text).toList ++ rest) =
      (⟨enclosing, .comment text l :: nodes, none⟩ : Reading).readOn l' rest := by
  have hclosed : ¬ ['*', '/'] <:+: ' ' :: (text.toList ++ [' ']) := by
    have hinside : ¬ ['*', '/'] <:+: text.toList := by
      rw [← occursIn_iff, h.closed]
      decide
    rw [List.infix_cons_iff, List.infix_concat_iff, not_or, not_or]
    refine ⟨by simp, ?_, hinside⟩
    rintro ⟨t, ht⟩
    have hlast := congrArg List.getLast? ht
    simp at hlast
  have htrim : trim (' ' :: (text.toList ++ [' '])) = text.toList := by
    rw [← List.singleton_append, trim_blank_append allBlank_space,
      trim_append_blank _ allBlank_space, h.trimmed]
  obtain ⟨l', hread⟩ := readOn_comment (l := l) hclosed
  refine ⟨l', ?_⟩
  rw [toList_commentText, hread, htrim, String.ofList_toList]

end

/-! ## Whole nodes -/

/-- What stands between the braces becomes the inside of the node that `p` begins. -/
theorem readOn_braced {enclosing : List OpenBlock} {nodes ms : List Node} {p : Prelude}
    {l l' : Location} {inner rest : List Char} (hgroups : p.groups = [])
    (hinner : (⟨p.block nodes :: enclosing, [], none⟩ : Reading).readOn (l.after ['{'])
        (inner ++ '}' :: rest) =
      (⟨p.block nodes :: enclosing, ms.reverse ++ [], none⟩ : Reading).readOn l' ('}' :: rest)) :
    (⟨enclosing, nodes, some p⟩ : Reading).readOn l ('{' :: (inner ++ '}' :: rest)) =
      (⟨enclosing, (p.block nodes).close ms :: nodes, none⟩ : Reading).readOn (l'.after ['}'])
        rest := by
  rw [readOn_open hgroups, hinner, readOn_close, List.append_nil, List.reverse_reverse]
  rfl

/-- A text that writes a plain node begins with something else than white space. -/
theorem head_of_written {n : Node} (hn : n.Plain) {s : List Char} (hs : Written n s) :
    ∃ c t, s = c :: t ∧ isSpace c = false := by
  cases n with
  | statement name params =>
    obtain ⟨gap, -, hheading⟩ := heading_toList name params
    cases hs
    exact ⟨'@', _, by rw [hheading]; rfl, rfl⟩
  | block name params inside =>
    obtain ⟨gap, -, hheading⟩ := heading_toList name params
    obtain ⟨inner, -, rfl⟩ := hs
    exact ⟨'@', _, by rw [hheading]; rfl, rfl⟩
  | rule selector inside =>
    obtain ⟨c, t, hselector, -, hspace⟩ := head_of_prelude hn.1 hn.2.1
    obtain ⟨inner, -, rfl⟩ := hs
    exact ⟨c, _, by rw [hselector]; rfl, hspace⟩
  | declaration d =>
    obtain ⟨c, t, hproperty, -, hspace⟩ := head_of_prelude hn.1.1 hn.1.2.1.prelude
    cases hs
    exact ⟨c, _, by rw [d.toList_render, Declaration.text, hproperty]; rfl, hspace⟩
  | comment text =>
    cases hs
    exact ⟨'/', _, toList_commentText text, rfl⟩

mutual

/-- A text that writes a plain node is read as this node. -/
theorem readOn_written (n : Node) (hn : n.Plain) {s : List Char} (hs : Written n s)
    (enclosing : List OpenBlock) (nodes : List Node) (l : Location) (rest : List Char) :
    ∃ l' m, m.unplaced = n.unplaced ∧
      (⟨enclosing, nodes, none⟩ : Reading).readOn l (s ++ rest) =
        (⟨enclosing, m :: nodes, none⟩ : Reading).readOn l' rest := by
  cases n with
  | statement name params source =>
    obtain ⟨hname, hparams⟩ := hn
    cases hs
    have hlast : (params.toList ++ []).getLast? ≠ some ')' := by
      rw [List.append_nil]
      intro h
      exact (noParens_of_isPlain hparams.chars _ (List.mem_of_getLast? h)).2 rfl
    obtain ⟨l', p, hread, hp⟩ :=
      readOn_heading (l := l) hname hparams.prelude (by simp) hlast
        (show isStop ';' = true by decide)
    refine ⟨l'.after [';'], .statement name params p.start, rfl, ?_⟩
    rw [List.append_nil] at hread
    rw [List.append_assoc, List.singleton_append, hread, readOn_semicolon hp.groups,
      hp.statement_eq]
    rfl
  | block name params inside source =>
    obtain ⟨hname, hparams, hinside⟩ := hn
    obtain ⟨inner, hinner, rfl⟩ := hs
    obtain ⟨l₁, p, hread, hp⟩ :=
      readOn_heading (l := l) hname hparams (show ∀ c ∈ [' '], c = ' ' by simp) (by simp)
        (show isStop '{' = true by decide)
    obtain ⟨l₂, ms, hms, hread'⟩ :=
      readOn_allWritten inside hinside hinner (p.block nodes :: enclosing) [] (l₁.after ['{'])
        ('}' :: rest) (by rintro c ⟨⟩; rfl)
    have hplace : (Node.block name params ms p.start).unplaced =
        (Node.block name params inside source).unplaced := by
      rw [Node.unplaced, hms, Node.unplaced]
    refine ⟨l₂.after ['}'], .block name params ms p.start, hplace, ?_⟩
    have hbraced : (AtRule.heading name params).toList ++ braced inner ++ rest =
        (AtRule.heading name params).toList ++ [' '] ++ '{' :: (inner ++ '}' :: rest) := by
      simp [braced]
    rw [hbraced, hread, readOn_braced hp.groups hread', hp.close_block]
  | rule selector inside source =>
    obtain ⟨hne, hselector, hinside⟩ := hn
    obtain ⟨inner, hinner, rfl⟩ := hs
    obtain ⟨l₁, p, hread, hp⟩ := readOn_selector (l := l) hne hselector
    obtain ⟨l₂, ms, hms, hread'⟩ :=
      readOn_allWritten inside hinside hinner (p.block nodes :: enclosing) [] (l₁.after ['{'])
        ('}' :: rest) (by rintro c ⟨⟩; rfl)
    have hplace : (Node.rule selector ms p.start).unplaced =
        (Node.rule selector inside source).unplaced := by
      rw [Node.unplaced, hms, Node.unplaced]
    refine ⟨l₂.after ['}'], .rule selector ms p.start, hplace, ?_⟩
    have hbraced : selector.toList ++ braced inner ++ rest =
        selector.toList ++ ' ' :: '{' :: (inner ++ '}' :: rest) := by
      simp [braced]
    rw [hbraced, hread, readOn_braced hp.groups hread', hp.close_rule]
  | declaration d =>
    cases hs
    obtain ⟨l', source, hread⟩ := readOn_declaration (l := l) hn
    exact ⟨l', .declaration { d with source }, rfl, hread⟩
  | comment text source =>
    cases hs
    obtain ⟨l', hread⟩ := readOn_commentText (l := l) hn
    exact ⟨l', .comment text l, rfl, hread⟩

theorem readOn_allWritten (ns : List Node) (hns : AllPlain ns) {s : List Char}
    (hs : AllWritten ns s) (enclosing : List OpenBlock) (nodes : List Node) (l : Location)
    (rest : List Char) (hrest : ∀ c, rest.head? = some c → isSpace c = false) :
    ∃ l' ms, allUnplaced ms = allUnplaced ns ∧
      (⟨enclosing, nodes, none⟩ : Reading).readOn l (s ++ rest) =
        (⟨enclosing, ms.reverse ++ nodes, none⟩ : Reading).readOn l' rest := by
  cases ns with
  | nil =>
    obtain ⟨l', hread⟩ := readOn_gap (l := l) hs hrest
    exact ⟨l', [], rfl, hread⟩
  | cons n more =>
    obtain ⟨hn, hmore⟩ := hns
    obtain ⟨gap, own, text, hgap, hown, htext, rfl⟩ := hs
    have hhead : ∀ c, (own ++ (text ++ rest)).head? = some c → isSpace c = false := by
      obtain ⟨d, t, rfl, hspace⟩ := head_of_written hn hown
      rintro c ⟨⟩
      exact hspace
    obtain ⟨l₁, hread₁⟩ := readOn_gap (l := l) hgap hhead
    obtain ⟨l₂, m, hm, hread₂⟩ := readOn_written n hn hown enclosing nodes l₁ (text ++ rest)
    obtain ⟨l₃, ms, hms, hread₃⟩ :=
      readOn_allWritten more hmore htext enclosing (m :: nodes) l₂ rest hrest
    refine ⟨l₃, m :: ms, by rw [allUnplaced, allUnplaced, hm, hms], ?_⟩
    calc (⟨enclosing, nodes, none⟩ : Reading).readOn l (gap ++ own ++ text ++ rest)
        = (⟨enclosing, nodes, none⟩ : Reading).readOn l (gap ++ (own ++ (text ++ rest))) := by
          simp only [List.append_assoc]
      _ = (⟨enclosing, m :: nodes, none⟩ : Reading).readOn l₂ (text ++ rest) := by
          rw [hread₁, hread₂]
      _ = (⟨enclosing, (m :: ms).reverse ++ nodes, none⟩ : Reading).readOn l₃ rest := by
          rw [hread₃]
          simp

end

end Reading

/-! ## Whole texts -/

/-- A text that writes the nodes of a plain stylesheet is read as this stylesheet. -/
theorem parse_of_allWritten {s : Stylesheet} (h : s.Plain) {text : String}
    (htext : AllWritten s.nodes text.toList) :
    ∃ t, parse text = .ok t ∧ t.unplaced = s.unplaced := by
  obtain ⟨l', ms, hms, hread⟩ :=
    Reading.readOn_allWritten s.nodes h htext [] [] .start [] (by rintro c ⟨⟩)
  rw [List.append_nil, List.append_nil, Reading.readOn_nil] at hread
  refine ⟨⟨ms⟩, ?_, congrArg Stylesheet.mk hms⟩
  have htokens : (Token.ofText text.toList).foldlM Reading.step .start =
      .ok ⟨[], ms.reverse, none⟩ := hread
  unfold parse nodesOf
  rw [htokens]
  change Except.ok (Stylesheet.mk ms.reverse.reverse) = _
  rw [List.reverse_reverse]

theorem allWritten_of_render [Minifier] {s : Stylesheet} {style : OutputStyle} (hstyle : style ≠ .minified)
    {text : String} (h : s.render style = .ok text) : AllWritten s.nodes text.toList := by
  cases style with
  | compact =>
    cases h
    exact s.allWritten_compact
  | pretty =>
    cases h
    exact s.allWritten_pretty
  | minified => exact absurd rfl hstyle

/-- A plain stylesheet that is written compact or pretty and read again is the same but for the
places of its nodes. -/
theorem a_plain_stylesheet_is_read_back [Minifier] (s : Stylesheet) (style : OutputStyle) (h : s.Plain)
    (hstyle : style ≠ .minified) :
    ∃ text t, s.render style = .ok text ∧ parse text = .ok t ∧ t.unplaced = s.unplaced := by
  obtain ⟨text, htext⟩ : ∃ text, s.render style = .ok text := by
    cases style with
    | compact => exact ⟨_, rfl⟩
    | pretty => exact ⟨_, rfl⟩
    | minified => exact absurd rfl hstyle
  obtain ⟨t, hparse, ht⟩ := parse_of_allWritten h (allWritten_of_render hstyle htext)
  exact ⟨text, t, htext, hparse, ht⟩

/-- Nodes of all kinds, three blocks deep, with texts that are empty where they may be. -/
theorem nested_nodes_are_read_back :
    let s : Stylesheet :=
      ⟨[.statement "charset" "" ⟨9, 9⟩, .comment "a ; b \x7b c" .start,
        .block "media" "(min-width: 10px) and (url : 1)"
          [.block "supports" "" [.rule ".a > b:not(.c)::before" [] ⟨7, 7⟩,
            .declaration ⟨"--x", "", true, ⟨3, 3⟩⟩] ⟨2, 2⟩, .comment "" .nowhere] ⟨1, 1⟩,
        .rule "1-5" [.declaration ⟨"color", "#f00 10%", true, .start⟩,
          .declaration ⟨"top", "-.5e-3em", false, .start⟩] .start]⟩
    (s.Plain ∧ OutputStyle.pretty ≠ .minified) ∧
      ∃ text t, s.render .pretty = .ok text ∧ parse text = .ok t ∧ t.unplaced = s.unplaced := by
  intro s
  have hplain : s.Plain := by decide +kernel
  exact ⟨⟨hplain, by decide⟩, a_plain_stylesheet_is_read_back s .pretty hplain (by decide)⟩

end Stylesheet

end ResponsiveCss
