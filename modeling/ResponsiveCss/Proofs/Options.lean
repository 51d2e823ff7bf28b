-- Options are read from every JSON text that spells them: however its strings
-- are written, whatever white space it has and whatever else its object holds.
import Mathlib.Data.List.Forall2
import ResponsiveCss.Options
import ResponsiveCss.Proofs.Json.Values

namespace ResponsiveCss.Options

open Json

/-! ## Texts that spell options -/

/-- A member with the name of the breakpoint as its key and the query as its value. -/
inductive SpellsBreakpoint (b : Breakpoint) : List Char → Prop
  | intro {query s : List Char} (hquery : Spells b.query.toList query)
      (h : Member b.name.toList ('"' :: query ++ ['"']) s) : SpellsBreakpoint b s

/-- An object with these breakpoints as its members, in this order. A name may come again. -/
inductive SpellsBreakpoints (bs : List Breakpoint) : List Char → Prop
  | intro {members : List (List Char)} {s : List Char}
      (hmembers : List.Forall₂ SpellsBreakpoint bs members) (h : Entries true members s) :
      SpellsBreakpoints bs ('\x7b' :: s ++ ['\x7d'])

/-- A member of another name than `breakpoints`, with a value of any kind. -/
inductive OtherMember : List Char → Prop
  | intro {name value s : List Char} (hname : name ≠ "breakpoints".toList) (hvalue : IsValue value)
      (h : Member name value s) : OtherMember s

/-- An object with just one member `breakpoints`, whose value has these breakpoints. -/
inductive SpellsOptions (bs : List Breakpoint) : List Char → Prop
  | intro {front back value own s : List Char} {before after : List (List Char)}
      (hfront : Gap front) (hback : Gap back) (hbefore : ∀ m ∈ before, OtherMember m)
      (hafter : ∀ m ∈ after, OtherMember m) (hvalue : SpellsBreakpoints bs value)
      (hown : Member "breakpoints".toList value own)
      (h : Entries true (before ++ own :: after) s) :
      SpellsOptions bs (front ++ '\x7b' :: s ++ '\x7d' :: back)

/-! ## One member -/

variable {first : Bool} {gap lead rest : List Char}

theorem nextMember_closed (hgap : Gap gap) :
    nextMember first (gap ++ '\x7d' :: rest) = .ok (.closed rest) := by
  unfold nextMember
  rw [skipBlanks_append hgap, skipBlanks_cons rfl]
  rfl

theorem nextMember_lead (hlead : Lead first lead) (s : List Char) :
    nextMember first (lead ++ '"' :: s) = key s := by
  unfold nextMember
  cases hlead with
  | first hgap =>
    rw [skipBlanks_append hgap, skipBlanks_cons rfl]
    rfl
  | later hbefore hbehind =>
    rw [List.append_assoc, List.cons_append, skipBlanks_append hbefore, skipBlanks_cons rfl]
    dsimp only
    rw [skipBlanks_append hbehind, skipBlanks_cons rfl]
    rfl

/-- The key of a member is read as its name, and the value stands behind the colon. -/
theorem nextMember_member {name value m : List Char} (hlead : Lead first lead)
    (h : Member name value m) (rest : List Char) :
    ∃ s gap, nextMember first (lead ++ m ++ rest) = .ok (.key name s) ∧ Gap gap ∧
      colon s = .ok (gap ++ (value ++ rest)) := by
  obtain @⟨own, before, behind, hkey, hbefore, hbehind⟩ := h
  refine ⟨before ++ ':' :: (behind ++ (value ++ rest)), behind, ?_, hbehind,
    colon_append hbefore _⟩
  have hname := string_append hkey (before ++ ':' :: (behind ++ (value ++ rest)))
  simp only [List.append_assoc, List.cons_append]
  rw [nextMember_lead hlead, key, hname]
  rfl

/-! ## Breakpoints -/

theorem query_append {text q : List Char} (hgap : Gap gap) (h : Spells text q) (rest : List Char) :
    query (gap ++ ('"' :: q ++ ['"'] ++ rest)) = .ok (text, rest) := by
  unfold query
  rw [skipBlanks_append hgap, List.append_assoc, List.cons_append, skipBlanks_cons rfl]
  exact string_append h rest

/-- The step: a member that spells a breakpoint gives just this breakpoint. -/
theorem pairs_member {b : Breakpoint} {m : List Char} (hlead : Lead first lead)
    (h : SpellsBreakpoint b m) (rest : List Char) :
    pairs first (lead ++ m ++ rest) = (pairs false rest).map fun (l, rest) => (b :: l, rest) := by
  obtain ⟨hquery, hmember⟩ := h
  obtain ⟨s, gap, hnext, hgap, hcolon⟩ := nextMember_member hlead hmember rest
  have hread := query_append hgap hquery rest
  rw [pairs, hnext]
  dsimp only
  rw [hcolon]
  dsimp only
  rw [hread]
  simp

/-- The run: the members give the breakpoints in their order. -/
theorem pairs_members {bs : List Breakpoint} {members : List (List Char)} {s : List Char}
    (hmembers : List.Forall₂ SpellsBreakpoint bs members) (h : Entries first members s)
    (rest : List Char) : pairs first (s ++ '\x7d' :: rest) = .ok (bs, rest) := by
  induction hmembers generalizing first s with
  | nil =>
    cases h with
    | done hgap =>
      rw [pairs, nextMember_closed hgap]
  | cons hb _ ih =>
    cases h with
    | entry hlead hmore =>
      rw [List.append_assoc, pairs_member hlead hb, ih hmore]
      rfl

theorem breakpointsValue_append {bs : List Breakpoint} {value : List Char} (hgap : Gap gap)
    (h : SpellsBreakpoints bs value) (rest : List Char) :
    breakpointsValue (gap ++ (value ++ rest)) = .ok (some (.ofList bs), rest) := by
  obtain ⟨hmembers, hentries⟩ := h
  unfold breakpointsValue
  rw [skipBlanks_append hgap, List.append_assoc, List.cons_append, skipBlanks_cons rfl]
  dsimp only
  rw [if_neg (by decide), if_pos rfl, List.singleton_append, pairs_members hmembers hentries]
  rfl

/-! ## The members of the options -/

/-- A member of another name is passed over. -/
theorem members_other {found : Option (Option Breakpoints)} {m : List Char}
    (hlead : Lead first lead) (h : OtherMember m) (hrest : Stops rest) :
    members first found (lead ++ m ++ rest) = members false found rest := by
  obtain @⟨name, value, _, hname, hvalue, hmember⟩ := h
  obtain ⟨s, gap, hnext, hgap, hcolon⟩ := nextMember_member hlead hmember rest
  have hskip : skipValue (gap ++ (value ++ rest)) = .ok rest :=
    (skipWithin_gap .list hgap).trans (skipValue_append hvalue hrest)
  rw [members, hnext]
  dsimp only
  rw [if_neg (show name ≠ breakpointsKey from hname), hcolon]
  dsimp only
  rw [hskip]

/-- The member `breakpoints` is what the options are made of. -/
theorem members_own {bs : List Breakpoint} {value m : List Char} (hlead : Lead first lead)
    (hvalue : SpellsBreakpoints bs value) (h : Member "breakpoints".toList value m)
    (rest : List Char) :
    members first none (lead ++ m ++ rest) = members false (some (some (.ofList bs))) rest := by
  obtain ⟨s, gap, hnext, hgap, hcolon⟩ := nextMember_member hlead h rest
  have hread := breakpointsValue_append hgap hvalue rest
  conv => lhs; rw [members, hnext]
  dsimp only
  rw [if_pos (show "breakpoints".toList = breakpointsKey from rfl), if_neg (by decide), hcolon]
  dsimp only
  rw [hread]

/-- The run: members of other names are passed over up to those that follow them. -/
theorem members_others (found : Option (Option Breakpoints)) {others more : List (List Char)}
    {s : List Char} (hothers : ∀ m ∈ others, OtherMember m)
    (h : Entries first (others ++ more) s) (rest : List Char) :
    ∃ first' s', Entries first' more s' ∧
      members first found (s ++ '\x7d' :: rest) = members first' found (s' ++ '\x7d' :: rest) := by
  induction others generalizing first s with
  | nil => exact ⟨first, s, h, rfl⟩
  | cons m others ih =>
    obtain ⟨hother, hothers⟩ := List.forall_mem_cons.mp hothers
    cases h with
    | @entry _ lead _ s _ hlead hmore =>
      obtain ⟨first', s', hs', hrun⟩ := ih hothers hmore
      have hstops : Stops (s ++ '\x7d' :: rest) := stops_entries hmore .object rest
      refine ⟨first', s', hs', ?_⟩
      rw [List.append_assoc, members_other hlead hother hstops]
      exact hrun

/-- All members: those around `breakpoints` change nothing. -/
theorem members_entries {bs : List Breakpoint} {value own s : List Char}
    {before after : List (List Char)} (hbefore : ∀ m ∈ before, OtherMember m)
    (hafter : ∀ m ∈ after, OtherMember m) (hvalue : SpellsBreakpoints bs value)
    (hown : Member "breakpoints".toList value own) (h : Entries first (before ++ own :: after) s)
    (rest : List Char) :
    members first none (s ++ '\x7d' :: rest) = .ok (⟨some (.ofList bs)⟩, rest) := by
  obtain ⟨_, _, hs', hfront⟩ := members_others none hbefore h rest
  cases hs' with
  | @entry _ lead _ inside _ hlead hmore =>
    rw [← List.append_nil after] at hmore
    obtain ⟨_, _, hgap, hback⟩ := members_others (some (some (.ofList bs))) hafter hmore rest
    cases hgap with
    | done hgap =>
      rw [hfront, List.append_assoc, members_own hlead hvalue hown, hback, members,
        nextMember_closed hgap]
      rfl

/-! ## The options as a whole -/

theorem readAll_spelled {bs : List Breakpoint} {s : List Char} (h : SpellsOptions bs s) :
    readAll s = .ok ⟨some (.ofList bs)⟩ := by
  obtain @⟨front, back, value, own, s, before, after, hfront, hback, hbefore, hafter, hvalue,
    hown, h⟩ := h
  have hread : read (front ++ '\x7b' :: s ++ '\x7d' :: back) =
      .ok (⟨some (.ofList bs)⟩, back) := by
    unfold read
    rw [List.append_assoc, List.cons_append, skipBlanks_append hfront, skipBlanks_cons rfl]
    exact (if_pos rfl).trans (members_entries hbefore hafter hvalue hown h back)
  unfold readAll
  rw [hread]
  dsimp only
  rw [skipBlanks_gap hback]

/-- However a text spells options, they are read with just the breakpoints that it spells. -/
theorem options_are_read_however_they_are_spelled (bs : List Breakpoint) (text : String)
    (h : SpellsOptions bs text.toList) : ofJson text = .ok ⟨some (.ofList bs)⟩ := by
  unfold ofJson
  rw [readAll_spelled h]

/-- The key and a query are written with escapes, and in front of them stands a value with a key
that is no text: half of a pair of surrogates. -/
theorem an_escaped_key_and_a_name_that_comes_again_are_read :
    ofJson ("\x7b\"a\":[-1e3,\x7b\"\\ud83d\":\"\"\x7d], " ++
        "\"\\u0062reakpoints\":\x7b\"m\":\"\",\"m\":\"\\ud83d\\ude00\"\x7d\x7d") =
      .ok ⟨some (.ofList [⟨"m", ""⟩, ⟨"m", "😀"⟩])⟩ := by
  have hgap : Gap [] := by decide
  -- The strings, from their single characters on.
  have ha : Spells ['a'] ['a'] := spells_literals (by decide)
  have hm : Spells ['m'] ['m'] := spells_literals (by decide)
  have hrest : Spells "reakpoints".toList "reakpoints".toList := spells_literals (by decide)
  have hb : FourDigits "0062".toList 'b'.toNat :=
    .intro (i := 0) (j := 0) (k := 6) (l := 2) (by decide) (by decide) (by decide) (by decide)
  have hhigh : FourDigits "d83d".toList 0xD83D :=
    .intro (i := 13) (j := 8) (k := 3) (l := 13) (by decide) (by decide) (by decide) (by decide)
  have hlow : FourDigits "de00".toList 0xDE00 :=
    .intro (i := 13) (j := 14) (k := 0) (l := 0) (by decide) (by decide) (by decide) (by decide)
  have hface : Spells "😀".toList "\\ud83d\\ude00".toList :=
    .cons (.surrogates hhigh hlow (by decide) (by decide) rfl) .nil
  have hkey : Spells "breakpoints".toList "\\u0062reakpoints".toList :=
    .cons (.number hb) hrest
  -- The member of another name, from the inside out.
  have hnumeral : IsNumeral "-1e3".toList :=
    @IsNumeral.intro ['-'] ['1'] [] ['e', '3'] (.inr rfl) ⟨by decide, by decide⟩ .none
      (@IsExponent.some 'e' [] ['3'] (.inl rfl) (.inl rfl) (by decide))
  have hobject : IsValue "\x7b\"\\ud83d\":\"\"\x7d".toList :=
    @IsValue.container .object [("\"\\ud83d\":".toList, ['"', '"'])] _
      (List.forall_mem_singleton.mpr (.object (.cons (.number hhigh) .nil) hgap hgap))
      (List.forall_mem_singleton.mpr (.string .nil)) (.entry (.first hgap) (.done hgap))
  have hlist : IsValue "[-1e3,\x7b\"\\ud83d\":\"\"\x7d]".toList :=
    @IsValue.container .list [([], "-1e3".toList), ([], "\x7b\"\\ud83d\":\"\"\x7d".toList)] _
      (List.forall_mem_cons.mpr ⟨.list, List.forall_mem_singleton.mpr .list⟩)
      (List.forall_mem_cons.mpr ⟨.numeral hnumeral, List.forall_mem_singleton.mpr hobject⟩)
      (.entry (.first hgap) (.entry (.later hgap hgap) (.done hgap)))
  have hother : OtherMember "\"a\":[-1e3,\x7b\"\\ud83d\":\"\"\x7d]".toList :=
    .intro (by decide) hlist (.intro ha hgap hgap)
  -- The breakpoints.
  have hempty : SpellsBreakpoint ⟨"m", ""⟩ "\"m\":\"\"".toList :=
    .intro .nil (.intro hm hgap hgap)
  have hpair : SpellsBreakpoint ⟨"m", "😀"⟩ "\"m\":\"\\ud83d\\ude00\"".toList :=
    .intro hface (.intro hm hgap hgap)
  have hvalue : SpellsBreakpoints [⟨"m", ""⟩, ⟨"m", "😀"⟩]
      "\x7b\"m\":\"\",\"m\":\"\\ud83d\\ude00\"\x7d".toList :=
    .intro (.cons hempty (.cons hpair .nil))
      (.entry (.first hgap) (.entry (.later hgap hgap) (.done hgap)))
  exact options_are_read_however_they_are_spelled _ _
    (@SpellsOptions.intro _ [] [] _ _ _ [_] [] hgap hgap (List.forall_mem_singleton.mpr hother)
      (List.forall_mem_nil _) hvalue (.intro hkey hgap hgap)
      (.entry (.first hgap) (.entry (@Lead.later [] [' '] hgap (by decide)) (.done hgap))))

end ResponsiveCss.Options
