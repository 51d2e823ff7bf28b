-- The tokens of calm texts. A calm text is a plain one with parentheses and
-- exclamation marks; `;` or `{` follows it. Its tokens lie inside the text and
-- are names, numbers, signs and parentheses, as long as no `url(` begins in it.
import ResponsiveCss.Proofs.Text.Occurrence
import ResponsiveCss.Proofs.Token.Reach

namespace ResponsiveCss.Token

open Text

/-! ## Calm characters -/

/-- A character of a calm text. -/
def isCalm (c : Char) : Bool := isPlain c || c = '!' || c = '(' || c = ')'

/-- A character that ends a calm text. -/
def isStop (c : Char) : Bool := c = ';' || c = '{'

theorem toNat_of_isCalm {c : Char} (h : isCalm c = true) : 32 ≤ c.toNat ∧ c.toNat < 127 := by
  simp only [isCalm, Bool.or_eq_true, decide_eq_true_eq] at h
  rcases h with ((h | rfl) | rfl) | rfl
  · exact toNat_of_isPlain h
  all_goals decide

/-- A text of calm characters with balanced parentheses and no call of `url`. -/
structure CalmText (s : List Char) : Prop where
  chars : ∀ c ∈ s, isCalm c = true
  balanced : balanced 0 s = true
  noUrl : callsUrl [] s = false

theorem calmText_of_noParens {s : List Char} (h : ∀ c ∈ s, isCalm c = true) (hp : NoParens s) :
    CalmText s := ⟨h, balanced_of_noParens hp, callsUrl_of_noParens hp []⟩

theorem CalmText.append {s w : List Char} (h : CalmText s) (hw : CalmText w) (hp : NoParens w) :
    CalmText (s ++ w) := by
  refine ⟨fun c hc => ?_, ?_, ?_⟩
  · rcases List.mem_append.mp hc with hc | hc
    · exact h.chars c hc
    · exact hw.chars c hc
  · rw [balanced_append_noParens hp, h.balanced]
  · rw [callsUrl_append_noParens hp, h.noUrl]

theorem CalmText.behind_space {s : List Char} (h : CalmText s) : CalmText (' ' :: s) := by
  refine ⟨fun c hc => ?_, ?_, ?_⟩
  · rcases List.mem_cons.mp hc with rfl | hc
    · decide
    · exact h.chars c hc
  · simpa [Text.balanced] using h.balanced
  · simpa [callsUrl, isWord] using h.noUrl

/-! ## The first token of a calm text -/

/-- Kinds of tokens that only stand for their text. -/
def Kind.isQuiet : Kind → Bool
  | .space | .colon | .comma | .ident | .hash | .number | .percentage | .dimension | .commentClose
  | .comparison | .delim => true
  | _ => false

/-- A token of a calm text, by its kind and its text. -/
inductive CalmToken : Kind → List Char → Prop where
  | quiet {k : Kind} {own : List Char} (hk : k.isQuiet = true) (hp : NoParens own)
      (hs : k = .space → own.head? = some ' ') : CalmToken k own
  | opening : CalmToken (.opening .round) ['(']
  | call {name : List Char} (hp : NoParens name) : CalmToken .call (name ++ ['('])
  | closing : CalmToken (.closing .round) [')']

/-- How many parentheses are open behind a token of this kind. -/
def Kind.depthAfter (depth : Nat) : Kind → Nat
  | .opening _ | .call => depth + 1
  | .closing _ => depth - 1
  | _ => depth

theorem CalmToken.balanced_after {k : Kind} {own more : List Char} {depth : Nat}
    (h : CalmToken k own) (hbal : balanced depth (own ++ more) = true) :
    balanced (k.depthAfter depth) more = true ∧ (k = .closing .round → depth ≠ 0) := by
  cases h with
  | quiet hk hp hs =>
    rw [balanced_append_of_noParens hp] at hbal
    cases k <;> first | exact ⟨hbal, fun h => by cases h⟩ | cases hk
  | opening => exact ⟨hbal, fun h => by cases h⟩
  | @call name hp =>
    rw [List.append_assoc, balanced_append_of_noParens hp] at hbal
    exact ⟨hbal, fun h => by cases h⟩
  | closing =>
    have hclose : depth ≠ 0 ∧ balanced (depth - 1) more = true := by
      simpa [balanced] using hbal
    exact ⟨hclose.2, fun _ => hclose.1⟩

/-- No `url(` begins in `s`. If the end of a word stands in front of `s`, then no name begins
there, as in `1-5`. -/
def Clean (s behind : List Char) : Prop :=
  ∃ word, callsUrl word s = false ∧ (word = [] ∨ startsName (s ++ behind) = false)

/-- The token `t` takes `own` from the calm text and leaves `more`. -/
structure Cut (text behind : List Char) (t : Kind × Nat) (own more : List Char) : Prop where
  text_eq : text = own ++ more
  nonempty : own ≠ []
  length_eq : t.2 = own.length
  calm : CalmToken t.1 own
  clean : Clean more behind

theorem clean_of_callsUrl {s : List Char} (h : callsUrl [] s = false) (behind : List Char) :
    Clean s behind := ⟨[], h, Or.inl rfl⟩

theorem noParens_of_isWord {w : List Char} (h : ∀ c ∈ w, isWord c = true) : NoParens w :=
  noParens_of_isPlain fun c hc => isPlain_iff.mpr (Or.inl (h c hc))

theorem noParens_append {a b : List Char} (ha : NoParens a) (hb : NoParens b) :
    NoParens (a ++ b) := by
  intro c hc
  rcases List.mem_append.mp hc with hc | hc
  · exact ha c hc
  · exact hb c hc

/-- The word at the beginning of a text, and what follows it. -/
theorem word_split (s : List Char) :
    ∃ w more, s = w ++ more ∧ (∀ c ∈ w, isWord c = true) ∧
      ∀ c, more.head? = some c → isWord c = false := by
  refine ⟨s.takeWhile isWord, s.dropWhile isWord, List.takeWhile_append_dropWhile.symm,
    fun c hc => List.all_eq_true.mp List.all_takeWhile c hc, fun c hc => ?_⟩
  have := List.head?_dropWhile_not isWord s
  rw [hc] at this
  simpa using this

section

variable {c stop : Char} {s rest : List Char}

theorem isCalm_of_isStop (h : isStop stop = true) :
    isCalm stop = false ∧ isNamePart stop = false ∧ isNameStart stop = false ∧
      isNumberPart stop = false := by
  simp only [isStop, Bool.or_eq_true, decide_eq_true_eq] at h
  rcases h with rfl | rfl <;> decide

/-- Where a word of a calm text ends, a name ends. -/
theorem endsName_of_calm (hs : ∀ d ∈ s, isCalm d = true) (hstop : isStop stop = true)
    (hhead : ∀ d, s.head? = some d → isWord d = false) : EndsName (s ++ stop :: rest) := by
  intro d hd
  cases s with
  | nil =>
    cases hd
    refine ⟨(isCalm_of_isStop hstop).2.1, ?_⟩
    rintro rfl
    revert hstop
    decide
  | cons c s =>
    cases hd
    have hc := hs d (by simp)
    refine ⟨by rw [isNamePart_eq_isWord (toNat_of_isCalm hc), hhead d rfl], ?_⟩
    rintro rfl
    revert hc
    decide

theorem cut_numeric (hs : ∀ d ∈ s, isCalm d = true) (hstop : isStop stop = true)
    (hclean : Clean s (stop :: rest)) (hn : numberLength (s ++ stop :: rest) ≠ 0) :
    ∃ own more, Cut s (stop :: rest) (numeric (s ++ stop :: rest)) own more := by
  obtain ⟨word, hword, -⟩ := hclean
  have hle : numberLength (s ++ stop :: rest) ≤ s.length :=
    numberLength_le (isCalm_of_isStop hstop).2.2.2
  have hpart := numberTo_numberLength (s ++ stop :: rest)
  unfold numeric
  dsimp only
  generalize numberLength (s ++ stop :: rest) = n at hn hle hpart
  -- The number lies inside the calm text: `num` is its text, `tail` what follows.
  obtain ⟨num, tail, rfl, rfl⟩ : ∃ num tail, s = num ++ tail ∧ n = num.length :=
    ⟨s.take n, s.drop n, (List.take_append_drop n s).symm, by simp [hle]⟩
  have hnum : NoParens num := by
    intro d hd
    have := hpart d (by simp [hd])
    constructor <;> (rintro rfl; revert this; decide)
  have hne : num ≠ [] := fun h => hn (by simp [h])
  rw [List.append_assoc, List.drop_left]
  obtain ⟨word', hword'⟩ := callsUrl_drop hword
  split
  · rename_i heq
    cases tail with
    | nil =>
      cases heq
      exact absurd hstop (by decide)
    | cons d tail =>
      cases heq
      refine ⟨num ++ ['%'], tail, by simp, by simp, by simp, ?_, ?_⟩
      · exact .quiet rfl (noParens_append hnum (by simp [NoParens])) (fun h => by cases h)
      · exact clean_of_callsUrl (callsUrl_drop_of_not_isWord (by decide) hword) _
  · split
    · obtain ⟨w, more, rfl, hw, hmore⟩ := word_split tail
      have hcalm : ∀ d ∈ more, isCalm d = true := fun d hd => hs d (by simp [hd])
      rw [List.append_assoc, nameLength_word hw (endsName_of_calm hcalm hstop hmore)]
      refine ⟨num ++ w, more, by simp, by simp [hne], by simp, ?_, ?_⟩
      · exact .quiet rfl (noParens_append hnum (noParens_of_isWord hw)) (fun h => by cases h)
      · obtain ⟨word'', hword''⟩ := callsUrl_drop hword'
        exact clean_of_callsUrl (callsUrl_nil_of_head hmore hword'') _
    · rename_i hname
      exact ⟨num, tail, rfl, hne, rfl, .quiet rfl hnum (fun h => by cases h), word', hword',
        Or.inr (by simpa using hname)⟩

theorem cut_nameLike (hs : ∀ d ∈ s, isCalm d = true) (hstop : isStop stop = true)
    (hclean : Clean s (stop :: rest)) (hname : startsName (s ++ stop :: rest) = true) :
    ∃ own more, Cut s (stop :: rest) (nameLike (s ++ stop :: rest)) own more := by
  obtain ⟨word, hword, hfresh⟩ := hclean
  have hnil : word = [] := by
    rcases hfresh with h | h
    · exact h
    · rw [hname] at h
      cases h
  subst hnil
  obtain ⟨w, more, rfl, hw, hmore⟩ := word_split s
  have hcalm : ∀ d ∈ more, isCalm d = true := fun d hd => hs d (by simp [hd])
  have hends : EndsName (more ++ stop :: rest) := endsName_of_calm hcalm hstop hmore
  have hne : w ≠ [] := by
    rintro rfl
    rw [List.nil_append, startsName_of_endsName hends] at hname
    cases hname
  rw [callsUrl_append_word [] hw] at hword
  unfold nameLike
  dsimp only
  rw [List.append_assoc, nameLength_word hw hends, List.drop_left, List.take_left,
    unescape_word hw]
  split
  · rename_i heq
    cases more with
    | nil =>
      cases heq
      exact absurd hstop (by decide)
    | cons d more =>
      cases heq
      rw [callsUrl, if_neg (by decide), Bool.or_eq_false_iff] at hword
      have hurl : sameLetters w ['u', 'r', 'l'] = false := by simpa using hword.1
      rw [if_neg (by simp [hurl])]
      exact ⟨w ++ ['('], more, by simp, by simp, by simp, .call (noParens_of_isWord hw),
        clean_of_callsUrl hword.2 _⟩
  · exact ⟨w, more, rfl, hne, rfl, .quiet rfl (noParens_of_isWord hw) (fun h => by cases h),
      clean_of_callsUrl (callsUrl_nil_of_head hmore hword) _⟩

theorem hashLike_cases (s : List Char) :
    hashLike s = (.hash, nameLength s + 1) ∨ hashLike s = (.delim, 1) := by
  unfold hashLike
  generalize (startsName s || _) = named
  cases named
  · exact Or.inr rfl
  · exact Or.inl rfl

theorem cut_hashLike (hs : ∀ d ∈ s, isCalm d = true) (hstop : isStop stop = true)
    (hclean : Clean ('#' :: s) (stop :: rest)) :
    ∃ own more, Cut ('#' :: s) (stop :: rest) (hashLike (s ++ stop :: rest)) own more := by
  obtain ⟨word, hword, -⟩ := hclean
  have hword' : callsUrl [] s = false := callsUrl_drop_of_not_isWord (w := []) (by decide) hword
  have hparens : NoParens ['#'] := by simp [NoParens]
  rcases hashLike_cases (s ++ stop :: rest) with heq | heq <;> rw [heq]
  · obtain ⟨w, more, rfl, hw, hmore⟩ := word_split s
    have hcalm : ∀ d ∈ more, isCalm d = true := fun d hd => hs d (by simp [hd])
    rw [List.append_assoc, nameLength_word hw (endsName_of_calm hcalm hstop hmore)]
    rw [callsUrl_append_word [] hw] at hword'
    exact ⟨'#' :: w, more, rfl, by simp, by simp,
      .quiet rfl (noParens_append hparens (noParens_of_isWord hw)) (fun h => by cases h),
      clean_of_callsUrl (callsUrl_nil_of_head hmore hword') _⟩
  · exact ⟨['#'], s, rfl, by simp, by simp, .quiet rfl hparens (fun h => by cases h),
      clean_of_callsUrl hword' _⟩

theorem isSpace_of_isCalm (h : isCalm c = true) : isSpace c = decide (c = ' ') := by
  have hc := toNat_of_isCalm h
  have hctrl : c ≠ '\t' ∧ c ≠ '\n' ∧ c ≠ '\r' ∧ c ≠ '\x0c' := by
    refine ⟨?_, ?_, ?_, ?_⟩ <;> (rintro rfl; revert hc; decide)
  simp [isSpace, isLineBreak, hctrl]

theorem cut_space (hs : ∀ d ∈ s, isCalm d = true) (hstop : isStop stop = true)
    (hclean : Clean (' ' :: s) (stop :: rest)) :
    ∃ own more, Cut (' ' :: s) (stop :: rest) (.space, spacesLength (s ++ stop :: rest) + 1)
      own more := by
  obtain ⟨word, hword, -⟩ := hclean
  have hstop' : isSpace stop = false := by
    simp only [isStop, Bool.or_eq_true, decide_eq_true_eq] at hstop
    rcases hstop with rfl | rfl <;> decide
  have hlen : spacesLength (s ++ stop :: rest) = (s.takeWhile isSpace).length := by
    unfold spacesLength
    rw [List.takeWhile_append, List.takeWhile_cons_of_neg (by simp [hstop'])]
    split <;> simp [*]
  have hspaces : ∀ d ∈ s.takeWhile isSpace, d = ' ' := by
    intro d hd
    have hcalm := hs d ((List.takeWhile_prefix isSpace).subset hd)
    have := List.all_eq_true.mp List.all_takeWhile d hd
    rw [isSpace_of_isCalm hcalm] at this
    simpa using this
  have hsplit : ' ' :: s = ' ' :: s.takeWhile isSpace ++ s.dropWhile isSpace := by simp
  refine ⟨' ' :: s.takeWhile isSpace, s.dropWhile isSpace, hsplit, by simp, by simp [hlen], ?_, ?_⟩
  · refine .quiet rfl ?_ (fun _ => rfl)
    intro d hd
    have hd : d = ' ' := by
      rcases List.mem_cons.mp hd with hd | hd
      · exact hd
      · exact hspaces d hd
    simp [hd]
  · have hword' : callsUrl [] s = false := callsUrl_drop_of_not_isWord (w := []) (by decide) hword
    rw [← List.takeWhile_append_dropWhile (p := isSpace) (l := s)] at hword'
    refine clean_of_callsUrl (callsUrl_drop_of_gap (fun d hd => ?_) hword') _
    rw [hspaces d hd]
    decide

theorem cut_delim (hs : ∀ d ∈ c :: s, isCalm d = true)
    (hclean : Clean (c :: s) (stop :: rest)) (hc : c ≠ '(' ∧ c ≠ ')')
    (hnumber : numberLength (c :: s ++ stop :: rest) = 0)
    (hname : startsName (c :: s ++ stop :: rest) = false) :
    ∃ own more, Cut (c :: s) (stop :: rest) (.delim, 1) own more := by
  obtain ⟨word, hword, -⟩ := hclean
  refine ⟨[c], s, rfl, by simp, rfl, .quiet rfl (by simpa [NoParens] using hc)
    (fun h => by cases h), ?_⟩
  by_cases hw : isWord c = true
  · -- A lone character of a word can only be a hyphen, and no name may begin behind it.
    have hhyphen : c = '-' := by
      apply Classical.byContradiction
      intro hne
      by_cases hdigit : c.isDigit = true
      · exact numberLength_of_isDigit hdigit hnumber
      · have hstart : isNameStart c = true := by
          have hpart : isNamePart c = true := by
            rw [isNamePart_eq_isWord (toNat_of_isCalm (hs c (by simp))), hw]
          simpa [isNamePart, hdigit, hne] using hpart
        rw [List.cons_append, startsName_of_isNameStart hne hstart] at hname
        cases hname
    subst hhyphen
    obtain ⟨word', hword'⟩ := callsUrl_drop (w := ['-']) hword
    exact ⟨word', hword', Or.inr (startsName_of_hyphen hname)⟩
  · exact clean_of_callsUrl (callsUrl_drop_of_not_isWord (w := []) (by simpa using hw) hword) _

theorem cut_sign (hs : ∀ d ∈ c :: s, isCalm d = true) (hstop : isStop stop = true)
    (hclean : Clean (c :: s) (stop :: rest)) (hc : c ≠ '(' ∧ c ≠ ')')
    (hnumber : numberLength (c :: s ++ stop :: rest) = 0)
    (hname : startsName (c :: s ++ stop :: rest) = false) :
    ∃ own more, Cut (c :: s) (stop :: rest) (sign (c :: s ++ stop :: rest)) own more := by
  rcases sign_cases (c :: s ++ stop :: rest) with hsign | ⟨d, more, heq, hsign⟩ <;> rw [hsign]
  · exact cut_delim hs hclean hc hnumber hname
  · cases s with
    | nil =>
      cases heq
      exact absurd hstop (by decide)
    | cons e s =>
      cases heq
      obtain ⟨word, hword, -⟩ := hclean
      refine ⟨[c, '='], s, rfl, by simp, rfl, ?_, ?_⟩
      · exact .quiet rfl (by simpa [NoParens] using hc) (fun h => by cases h)
      · exact clean_of_callsUrl (callsUrl_drop_of_not_isWord (w := [c]) (by decide) hword) _

theorem cut_numberOrName (hs : ∀ d ∈ c :: s, isCalm d = true) (hstop : isStop stop = true)
    (hclean : Clean (c :: s) (stop :: rest)) (hc : c ≠ '(' ∧ c ≠ ')') :
    ∃ own more,
      Cut (c :: s) (stop :: rest) (numberOrName (c :: s ++ stop :: rest)) own more := by
  unfold numberOrName
  split
  · exact cut_numeric hs hstop hclean ‹_›
  · rename_i hnumber
    split
    · rename_i hclose
      obtain ⟨t, ht⟩ := List.isPrefixOf_iff_prefix.mp hclose
      obtain ⟨more, hmore⟩ : ∃ more, c :: s = ['-', '-', '>'] ++ more := by
        -- The stop is none of the three characters, so they all lie in the calm text.
        rcases s with _ | ⟨d, _ | ⟨e, more⟩⟩
        · simp only [List.cons_append, List.nil_append, List.cons.injEq] at ht
          rw [← ht.2.1] at hstop
          cases hstop
        · simp only [List.cons_append, List.nil_append, List.cons.injEq] at ht
          rw [← ht.2.2.1] at hstop
          cases hstop
        · simp only [List.cons_append, List.nil_append, List.cons.injEq] at ht
          exact ⟨more, by simp [← ht.1, ← ht.2.1, ← ht.2.2.1]⟩
      obtain ⟨word, hword, -⟩ := hclean
      rw [hmore] at hword ⊢
      refine ⟨['-', '-', '>'], more, rfl, by simp, rfl, ?_, ?_⟩
      · exact .quiet rfl (by simp [NoParens]) (fun h => by cases h)
      · exact clean_of_callsUrl
          (callsUrl_drop_of_not_isWord (w := ['-', '-']) (c := '>') (by decide) hword) _
    · split
      · exact cut_nameLike hs hstop hclean ‹_›
      · rename_i hname
        exact cut_sign hs hstop hclean hc (by simpa using hnumber) (by simpa using hname)

theorem cut_single {k : Kind} (hclean : Clean (c :: s) (stop :: rest))
    (hcalm : CalmToken k [c]) (hc : isWord c = false) :
    ∃ own more, Cut (c :: s) (stop :: rest) (k, 1) own more := by
  obtain ⟨word, hword, -⟩ := hclean
  exact ⟨[c], s, rfl, by simp, rfl, hcalm,
    clean_of_callsUrl (callsUrl_drop_of_not_isWord (w := []) hc hword) _⟩

/-- The first token of a calm text lies inside it, and the rest of the text is clean again. -/
theorem cut_lead (hs : ∀ d ∈ c :: s, isCalm d = true) (hstop : isStop stop = true)
    (hclean : Clean (c :: s) (stop :: rest)) :
    ∃ own more, Cut (c :: s) (stop :: rest) (lead c (s ++ stop :: rest)) own more := by
  have hs' : ∀ d ∈ s, isCalm d = true := fun d hd => hs d (by simp [hd])
  have hc := hs c (by simp)
  unfold lead
  split
  case h_3 => exact cut_single hclean .opening (by decide)
  case h_4 => exact cut_single hclean .closing (by decide)
  case h_9 =>
    exact cut_single hclean (.quiet rfl (by simp [NoParens]) (fun h => by cases h)) (by decide)
  case h_10 =>
    exact cut_single hclean (.quiet rfl (by simp [NoParens]) (fun h => by cases h)) (by decide)
  case h_12 => exact cut_hashLike hs' hstop hclean
  case h_16 =>
    rw [isSpace_of_isCalm hc]
    by_cases hspace : c = ' '
    · subst hspace
      simpa using cut_space hs' hstop hclean
    · rw [if_neg (by simpa using hspace)]
      exact cut_numberOrName hs hstop hclean ⟨by assumption, by assumption⟩
  -- The other characters that begin a token are not calm.
  all_goals exact absurd hc (by decide)

end

end ResponsiveCss.Token
