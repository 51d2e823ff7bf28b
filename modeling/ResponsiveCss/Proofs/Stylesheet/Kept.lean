-- What is kept of a node whose beginning is being read. All of its text so far
-- is in `read`. The text that counts at a `;` or `{` and the place that is
-- given for a fault stop at the opening bracket of a group, until a token
-- behind the group comes; so a group directly in front of the end is lost.
import Mathlib.Data.List.Induction
import ResponsiveCss.Proofs.Token.Tiling
import ResponsiveCss.Stylesheet.Parse

namespace ResponsiveCss.Stylesheet

open Text
open Token (cover cover_cons cover_nil cover_append Tiled)

/-! ## The groups of a stretch of tokens -/

/-- The groups that are open behind the tokens. -/
def openGroups (ts : List Token) : List Bracket :=
  ts.foldl (fun groups t => Prelude.regroup groups t.kind) []

/-- The last of the tokens stands in a group, which it may close. -/
def EndsInGroup (ts : List Token) : Prop := openGroups ts.dropLast ≠ []

/-- The tokens `inside` stand in the group that the last of the tokens `outer` opens, and this
one stands in no group. -/
structure Grouped (outer inside : List Token) : Prop where
  outside : ¬ EndsInGroup outer
  inside : ∀ n < inside.length, openGroups (outer ++ inside.take n) ≠ []

theorem openGroups_concat (ts : List Token) (t : Token) :
    openGroups (ts ++ [t]) = Prelude.regroup (openGroups ts) t.kind := by
  unfold openGroups
  rw [List.foldl_append, List.foldl_cons, List.foldl_nil]

theorem Grouped.start : Grouped [] [] := ⟨fun h => h rfl, nofun⟩

/-- A token outside of groups counts, and so does all that is in front of it. -/
theorem Grouped.outer_concat {ts : List Token} (h : openGroups ts = []) (t : Token) :
    Grouped (ts ++ [t]) [] := by
  refine ⟨fun hends => hends ?_, nofun⟩
  rwa [List.dropLast_concat]

theorem Grouped.inside_concat {outer inside : List Token} (h : Grouped outer inside)
    (hopen : openGroups (outer ++ inside) ≠ []) (t : Token) : Grouped outer (inside ++ [t]) := by
  refine ⟨h.outside, fun n hn => ?_⟩
  rw [List.length_append, List.length_singleton] at hn
  by_cases hlt : n < inside.length
  · rw [List.take_append_of_le_length (Nat.le_of_lt hlt)]
    exact h.inside n hlt
  · rw [show n = inside.length by omega, List.take_left]
    exact hopen

theorem Grouped.endsInGroup_iff {outer inside : List Token} (h : Grouped outer inside) :
    EndsInGroup (outer ++ inside) ↔ inside ≠ [] := by
  constructor
  · rintro hends rfl
    rw [List.append_nil] at hends
    exact h.outside hends
  · intro hne
    have hlen := List.length_pos_iff.mpr hne
    unfold EndsInGroup
    rw [List.dropLast_append_of_ne_nil hne, List.dropLast_eq_take]
    exact h.inside _ (by omega)

/-! ## What a token does -/

/-- A token of the node being read that does not end it. -/
inductive Prelude.Grows (p : Prelude) (t : Token) : Prelude → Prop
  | inside : p.groups ≠ [] → Grows p t (p.pushInside t)
  | push : p.groups = [] → Prelude.regroup [] t.kind = [] → Grows p t (p.push t)
  | enter (b : Bracket) : p.groups = [] → Prelude.regroup [] t.kind = [b] →
    Grows p t (p.enter b t)

namespace Reading

/-- The node that the token belongs to: one that is being read, or one that begins with it. -/
def current (r : Reading) (t : Token) : Prelude := r.pending.getD (.empty none t.start t.start)

/-- What one token does to a reading. -/
inductive Does (r : Reading) (t : Token) : Reading → Prop
  | pass : r.pending = none → t.kind = .space ∨ t.kind = .semicolon → Does r t r
  | comment : r.pending = none → t.kind = .comment →
    Does r t (r.add (.comment (String.ofList (trim t.commentBody)) t.start))
  | keyword : r.pending = none → t.kind = .atKeyword →
    Does r t { r with pending := some (.empty (some t.keyword) t.start t.stop) }
  | grow (p : Prelude) : (r.current t).Grows t p → Does r t { r with pending := some p }
  | statement (p : Prelude) (n : Node) : r.pending = some p → p.groups = [] →
    t.kind = .semicolon → p.statement p.kept = .ok n → Does r t ({ r with pending := none }.add n)
  | opens : (r.current t).groups = [] → t.kind = .opening .curly →
    Does r t ⟨(r.current t).block r.nodes :: r.enclosing, [], none⟩
  | closes (b : OpenBlock) (more : List OpenBlock) (r' : Reading) : (r.current t).groups = [] →
    t.kind = .closing .curly → r.enclosing = b :: more → r.endPending = .ok r' →
    Does r t ⟨more, b.close r'.nodes.reverse :: b.before, none⟩

/-- What the end of the text, or of the block around it, does to a reading. -/
theorem endPending_eq_ok {r r' : Reading} (h : r.endPending = .ok r') :
    r.pending = none ∧ r' = r ∨ ∃ p n, r.pending = some p ∧ p.statement p.read = .ok n ∧
      r' = { r with pending := none }.add n := by
  unfold endPending at h
  split at h
  · rename_i hnone
    cases h
    exact .inl ⟨hnone, rfl⟩
  · rename_i p hp
    cases hn : p.statement p.read with
    | error e =>
      rw [hn] at h
      cases h
    | ok n =>
      rw [hn] at h
      cases h
      exact .inr ⟨p, n, hp, hn, rfl⟩

theorem enclosing_endPending {r r' : Reading} (h : r.endPending = .ok r') :
    r'.enclosing = r.enclosing := by
  rcases endPending_eq_ok h with ⟨-, rfl⟩ | ⟨p, n, -, -, rfl⟩ <;> rfl

theorem endBlock_does {r r' : Reading} {t : Token} {fault : Location}
    (hgroups : (r.current t).groups = []) (hbrace : t.kind = .closing .curly)
    (h : r.endBlock fault = .ok r') : r.Does t r' := by
  unfold endBlock at h
  split at h
  · cases h
  · rename_i b more henclosing
    cases hend : r.endPending with
    | error e =>
      rw [hend] at h
      cases h
    | ok r₁ =>
      rw [hend] at h
      cases h
      exact .closes b more r₁ hgroups hbrace henclosing hend

theorem pending_eq_current {r : Reading} (t : Token) (h : r.pending ≠ none) :
    r.pending = some (r.current t) := by
  unfold current
  cases hpending : r.pending with
  | none => exact absurd hpending h
  | some p => rfl

theorem scan_does {r r' : Reading} {t : Token} (h : r.scan (r.current t) t = .ok r')
    (hkind : r.pending = none → t.kind ≠ .semicolon ∧ t.kind ≠ .closing .curly) :
    r.Does t r' := by
  unfold scan at h
  split at h
  · rename_i hgroups
    cases h
    exact .grow _ (.inside (by rw [hgroups]; exact List.cons_ne_nil _ _))
  · rename_i hgroups
    split at h
    · rename_i hsemicolon
      have hpending := pending_eq_current t fun hnone => (hkind hnone).1 hsemicolon
      cases hn : (r.current t).statement (r.current t).kept with
      | error e =>
        rw [hn] at h
        cases h
      | ok n =>
        rw [hn] at h
        cases h
        exact .statement _ n hpending hgroups hsemicolon hn
    · rename_i hbrace
      cases h
      exact .opens hgroups hbrace
    · rename_i hbrace
      have hpending := pending_eq_current t fun hnone => (hkind hnone).2 hbrace
      rw [← hpending] at h
      exact endBlock_does hgroups hbrace h
    · cases h
    · cases h
    · rename_i b _ hopening
      cases h
      exact .grow _ (.enter b hgroups (by rw [hopening]; rfl))
    · rename_i hcall
      cases h
      exact .grow _ (.enter .round hgroups (by rw [hcall]; rfl))
    · rename_i hopening hcall
      cases h
      refine .grow _ (.push hgroups ?_)
      cases hk : t.kind with
      | opening b => exact absurd hk (hopening b)
      | call => exact absurd hk hcall
      | _ => rfl

theorem current_of_pending_eq_none {r : Reading} (t : Token) (h : r.pending = none) :
    r.current t = .empty none t.start t.start := by
  rw [current, h, Option.getD_none]

theorem current_of_pending {r : Reading} {p : Prelude} (t : Token) (h : r.pending = some p) :
    r.current t = p := by
  rw [current, h, Option.getD_some]

theorem step_does {r r' : Reading} {t : Token} (h : r.step t = .ok r') : r.Does t r' := by
  unfold step at h
  split at h
  · rename_i p hpending
    rw [← current_of_pending t hpending] at h
    exact scan_does h fun hnone => by simp [hnone] at hpending
  · rename_i hpending
    have hcurrent := current_of_pending_eq_none t hpending
    split at h
    · rename_i hspace
      cases h
      exact .pass hpending (.inl hspace)
    · rename_i hsemicolon
      cases h
      exact .pass hpending (.inr hsemicolon)
    · rename_i hcomment
      cases h
      exact .comment hpending hcomment
    · rename_i hkeyword
      cases h
      exact .keyword hpending hkeyword
    · rename_i hbrace
      exact endBlock_does (by rw [hcurrent]; rfl) hbrace h
    · rename_i hsemicolon _ _ hbrace
      rw [← hcurrent] at h
      exact scan_does h fun _ => ⟨hsemicolon, hbrace⟩

end Reading

/-! ## The tokens of the node being read -/

/-- The node being read begins behind `front`. `head` is the keyword of an at-rule, and the
tokens behind it are `outer`, which count, and `inside`, which do not yet. -/
structure Prelude.Reads (p : Prelude) (front head outer inside : List Token) : Prop where
  keyword : p.keyword = none ∧ head = [] ∨
    ∃ k, head = [k] ∧ k.kind = .atKeyword ∧ p.keyword = some k.keyword
  start : p.start = Location.start.after (cover front)
  read : p.read = (cover (outer ++ inside)).reverse
  groups : p.groups = openGroups (outer ++ inside)
  kept : p.kept = (cover outer).reverse
  noted : p.noted = Location.start.after (cover (front ++ head ++ outer))
  grouped : Grouped outer inside

/-- Nothing but the beginning has been read. -/
theorem Prelude.reads_empty {keyword : Option String} (front head : List Token)
    (hhead : keyword = none ∧ head = [] ∨
      ∃ k, head = [k] ∧ k.kind = .atKeyword ∧ keyword = some k.keyword) :
    (Prelude.empty keyword (Location.start.after (cover front))
      (Location.start.after (cover (front ++ head)))).Reads front head [] [] :=
  ⟨hhead, rfl, rfl, rfl, rfl, by rw [List.append_nil]; rfl, .start⟩

theorem Prelude.Reads.grow {p p' : Prelude} {front head outer inside : List Token} {t : Token}
    (h : p.Reads front head outer inside) (hgrows : p.Grows t p')
    (hstop : t.stop = Location.start.after (cover (front ++ head ++ (outer ++ inside) ++ [t]))) :
    ∃ outer' inside', outer ++ inside ++ [t] = outer' ++ inside' ∧
      p'.Reads front head outer' inside' := by
  have hread : t.text.reverse ++ p.read = (cover (outer ++ inside ++ [t])).reverse := by
    rw [h.read, cover_append _ [t], cover_cons, cover_nil, List.append_nil, List.reverse_append]
  -- Outside of groups all that has been read counts from now on.
  have houter : ∀ groups, p.groups = [] → Prelude.regroup [] t.kind = groups →
      { p.push t with groups }.Reads front head (outer ++ inside ++ [t]) [] := by
    intro groups hnil hgroups
    have hopen : openGroups (outer ++ inside) = [] := h.groups ▸ hnil
    refine ⟨h.keyword, h.start, ?_, ?_, hread, ?_, .outer_concat hopen t⟩
    · rw [List.append_nil]
      exact hread
    · rw [List.append_nil, openGroups_concat, hopen]
      exact hgroups.symm
    · rw [← List.append_assoc]
      exact hstop
  cases hgrows with
  | inside hopen =>
    refine ⟨outer, inside ++ [t], List.append_assoc .., h.keyword, h.start, ?_, ?_, h.kept, h.noted,
      h.grouped.inside_concat (h.groups ▸ hopen) t⟩
    · rw [← List.append_assoc]
      exact hread
    · rw [← List.append_assoc, openGroups_concat, ← h.groups]
      rfl
  | push hnil hgroups =>
    have hsame : p.push t = { p.push t with groups := [] } := by rw [← hnil]; rfl
    rw [hsame]
    exact ⟨_, [], (List.append_nil _).symm, houter [] hnil hgroups⟩
  | enter b hnil hgroups => exact ⟨_, [], (List.append_nil _).symm, houter [b] hnil hgroups⟩

namespace Reading

theorem foldlM_concat_eq_ok {before : List Token} {t : Token} {r' : Reading}
    (h : (before ++ [t]).foldlM step start = .ok r') :
    ∃ r, before.foldlM step start = .ok r ∧ r.step t = .ok r' := by
  simp only [List.foldlM_append, List.foldlM_cons, List.foldlM_nil, bind_pure] at h
  cases hr : before.foldlM step start with
  | error e =>
    rw [hr] at h
    cases h
  | ok r =>
    rw [hr] at h
    exact ⟨r, rfl, h⟩

/-- The reading of the tokens `before` has come to the node being read. -/
def Reaches (r : Reading) (before : List Token) (p : Prelude) : Prop :=
  ∃ front head outer inside, before = front ++ head ++ (outer ++ inside) ∧
    front.foldlM step start = .ok { r with pending := none } ∧ p.Reads front head outer inside

theorem reaches_current_of {before : List Token} {r : Reading} {t : Token}
    (hread : before.foldlM step start = .ok r)
    (hstart : t.start = Location.start.after (cover before))
    (hpending : ∀ p, r.pending = some p → r.Reaches before p) : r.Reaches before (r.current t) := by
  cases hp : r.pending with
  | some p =>
    rw [current_of_pending t hp]
    exact hpending p hp
  | none =>
    rw [current_of_pending_eq_none t hp, hstart]
    have hempty := Prelude.reads_empty before [] (.inl ⟨rfl, rfl⟩)
    rw [List.append_nil] at hempty
    refine ⟨before, [], [], [], by simp, ?_, hempty⟩
    rw [hread, ← hp]

theorem reaches_of_pending {before behind : List Token} {r : Reading} {p : Prelude}
    (htiled : Tiled .start (before ++ behind)) (hread : before.foldlM step start = .ok r)
    (hp : r.pending = some p) : r.Reaches before p := by
  induction before using List.reverseRecOn generalizing behind r p with
  | nil =>
    cases hread
    cases hp
  | append_singleton before t ih =>
    rw [List.append_assoc] at htiled
    obtain ⟨r₀, hr₀, hstep⟩ := foldlM_concat_eq_ok hread
    cases step_does hstep with
    | pass hnone _ =>
      rw [hnone] at hp
      cases hp
    | comment hnone _ =>
      change r₀.pending = some p at hp
      rw [hnone] at hp
      cases hp
    | keyword hnone hkeyword =>
      cases hp
      have hempty := Prelude.reads_empty before [t] (.inr ⟨t, rfl, hkeyword, rfl⟩)
      rw [← htiled.start_eq, ← htiled.stop_eq] at hempty
      refine ⟨before, [t], [], [], by simp, ?_, hempty⟩
      rw [hr₀, ← hnone]
    | grow p' hgrows =>
      cases hp
      obtain ⟨front, head, outer, inside, hbefore, hfront, hreads⟩ :=
        reaches_current_of hr₀ htiled.start_eq fun p hp => ih htiled hr₀ hp
      have hstop := htiled.stop_eq
      rw [hbefore] at hstop
      obtain ⟨outer', inside', hsplit, hreads'⟩ := hreads.grow hgrows hstop
      refine ⟨front, head, outer', inside', ?_, hfront, hreads'⟩
      rw [hbefore, List.append_assoc _ _ [t], hsplit]
    | statement => cases hp
    | opens => cases hp
    | closes => cases hp

theorem reaches_current {before behind : List Token} {r : Reading} {t : Token}
    (htiled : Tiled .start (before ++ t :: behind)) (hread : before.foldlM step start = .ok r) :
    r.Reaches before (r.current t) :=
  reaches_current_of hread htiled.start_eq fun _ hp => reaches_of_pending htiled hread hp

/-! ## The end of a node -/

/-- At the token `t` the reading takes `text` for the node that ends there, and names `place` if
it fails there. -/
structure Ends (r : Reading) (t : Token) (text : List Char) (place : Location) : Prop where
  semicolon : ∀ p, r.pending = some p → t.kind = .semicolon →
    r.step t = (p.statement text.reverse).map fun n => { r with pending := none }.add n
  block : t.kind = .opening .curly →
    r.step t = .ok ⟨⟨(r.current t).keyword, String.ofList (trim text), (r.current t).start,
      r.nodes⟩ :: r.enclosing, [], none⟩
  brace : t.kind = .closing .curly → r.enclosing = [] →
    r.step t = .error ⟨.unexpectedBrace, place⟩
  badString : t.kind = .badString → r.step t = .error ⟨.unclosedString, place⟩
  badUrl : t.kind = .badUrl → r.step t = .error ⟨.malformedUrl, place⟩

theorem step_eq_scan {r : Reading} {t : Token}
    (h : r.pending = none → t.kind = .opening .curly ∨ t.kind = .badString ∨ t.kind = .badUrl) :
    r.step t = r.scan (r.current t) t := by
  unfold step
  cases hpending : r.pending with
  | some p => rw [current_of_pending t hpending]
  | none =>
    rw [current_of_pending_eq_none t hpending]
    rcases h hpending with hkind | hkind | hkind <;> simp only [hkind]

theorem ends_current {r : Reading} {t : Token} (hgroups : (r.current t).groups = []) :
    r.Ends t (r.current t).kept.reverse (r.current t).noted := by
  refine ⟨?_, ?_, ?_, ?_, ?_⟩
  · intro p hp hkind
    rw [step_eq_scan fun hnone => by simp [hnone] at hp]
    rw [current_of_pending t hp] at hgroups ⊢
    simp [scan, hgroups, hkind]
  · intro hkind
    rw [step_eq_scan fun _ => .inl hkind]
    simp [scan, hgroups, hkind, Prelude.block]
  · intro hkind hnil
    cases hpending : r.pending with
    | none =>
      rw [current_of_pending_eq_none t hpending]
      simp [step, hpending, hkind, endBlock, hnil, Prelude.empty]
    | some p =>
      rw [step_eq_scan fun hnone => by simp [hnone] at hpending]
      simp [scan, hgroups, hkind, endBlock, hnil]
  · intro hkind
    rw [step_eq_scan fun _ => .inr (.inl hkind)]
    simp [scan, hgroups, hkind]
  · intro hkind
    rw [step_eq_scan fun _ => .inr (.inr hkind)]
    simp [scan, hgroups, hkind]

/-- A node that ends at `;` or `{` keeps its text up to the last token in front of which no
group is open, and a fault is placed behind that token. So the text is whole and the fault is
at its own place exactly if no group ends directly in front. -/
theorem a_node_keeps_its_source_unless_a_group_is_last {text : String} {before behind : List Token}
    {t : Token} {r : Reading} (htext : Token.ofText text.toList = before ++ t :: behind)
    (hread : before.foldlM step start = .ok r) (hgroups : (r.current t).groups = []) :
    ∃ front head outer inside,
      before = front ++ head ++ (outer ++ inside) ∧
      text.toList = cover (front ++ head) ++ cover (outer ++ inside) ++ cover (t :: behind) ∧
      front.foldlM step start = .ok { r with pending := none } ∧
      (r.current t).Reads front head outer inside ∧
      r.Ends t (cover outer) (Location.start.after (cover (front ++ head ++ outer))) ∧
      (cover outer = cover (outer ++ inside) ↔ ¬ EndsInGroup (outer ++ inside)) ∧
      (Location.start.after (cover (front ++ head ++ outer)) = t.start ↔
        ¬ EndsInGroup (outer ++ inside)) := by
  have htiled := Token.tiled_ofText text.toList
  rw [htext] at htiled
  obtain ⟨front, head, outer, inside, hbefore, hfront, hreads⟩ :=
    reaches_current htiled hread
  have hlast : ¬ EndsInGroup (outer ++ inside) ↔ inside = [] := by
    rw [hreads.grouped.endsInGroup_iff, Decidable.not_not]
  rw [hbefore, List.append_assoc, List.append_assoc outer] at htiled
  refine ⟨front, head, outer, inside, hbefore, ?_, hfront, hreads, ?_, ?_, ?_⟩
  · rw [← Token.cover_ofText text.toList, htext, hbefore, cover_append, cover_append]
  · rw [← hreads.noted, ← List.reverse_reverse (cover outer), ← hreads.kept]
    exact ends_current hgroups
  · rw [hlast]
    exact htiled.tail.2.between_eq_nil_iff.1
  · rw [← List.append_assoc] at htiled
    rw [hlast]
    exact htiled.between_eq_nil_iff.2

/-- The group of `:not` ends directly in front of the block. -/
theorem a_selector_loses_the_inside_of_its_last_group :
    let before := (Token.ofText ".a:not(.b)\x7b\x7d".toList).take 7
    let t : Token := ⟨.opening .curly, ['\x7b'], ⟨1, 11⟩⟩
    let r : Reading :=
      ⟨[], [], some ⟨none, ⟨1, 1⟩, ")b.(ton:a.".toList, "(ton:a.".toList, ⟨1, 8⟩, []⟩⟩
    before.foldlM step start = .ok r ∧
      ∃ outer inside : List Token, cover outer = ".a:not(".toList ∧ cover inside = ".b)".toList ∧
        EndsInGroup (outer ++ inside) ∧ r.Ends t (cover outer) ⟨1, 8⟩ := by
  intro before t r
  have hread : before.foldlM step start = .ok r := by rfl
  have hcut : Token.ofText ".a:not(.b)\x7b\x7d".toList =
      before ++ t :: [⟨.closing .curly, ['\x7d'], ⟨1, 12⟩⟩] := by decide
  obtain ⟨front, head, outer, inside, -, -, -, hreads, hends, htext, -⟩ :=
    a_node_keeps_its_source_unless_a_group_is_last hcut hread rfl
  have hkept : "(ton:a.".toList = (cover outer).reverse := hreads.kept
  have hread' : ")b.(ton:a.".toList = (cover (outer ++ inside)).reverse := hreads.read
  have houter : cover outer = ".a:not(".toList := by
    rw [← List.reverse_inj, ← hkept]
    decide
  have hinside : cover inside = ".b)".toList := by
    rw [cover_append, houter, List.reverse_append] at hread'
    rw [← List.reverse_inj]
    exact List.append_cancel_right (hread'.symm.trans (by decide))
  have hplace : (⟨1, 8⟩ : Location) = Location.start.after (cover (front ++ head ++ outer)) :=
    hreads.noted
  rw [← hplace] at hends
  refine ⟨hread, outer, inside, houter, hinside, ?_, hends⟩
  by_contra hlast
  have hnil := htext.mpr hlast
  rw [cover_append, hinside] at hnil
  simp at hnil

theorem a_group_in_front_of_the_end_is_cut :
    parse ".a:not(.b)\x7b\x7d" = .ok ⟨[.rule ".a:not(" [] ⟨1, 1⟩]⟩ ∧
      parse "(a)\x7d" = .error ⟨.unexpectedBrace, ⟨1, 2⟩⟩ := by
  constructor <;> decide +kernel

end Reading

end ResponsiveCss.Stylesheet
