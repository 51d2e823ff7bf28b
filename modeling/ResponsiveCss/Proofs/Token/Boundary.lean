-- A token that ends in front of `;` or `}` ends there whatever comes next: the
-- end of the text, or either of the two with any text behind it. This is shown
-- for every part of a token by the function that says how far the part reaches.
-- A part that only the end of the text cuts short, such as an open string, would
-- hold `;` and `}` as well, so a boundary has to follow in the first place.
import ResponsiveCss.Proofs.Token.Tiling

namespace ResponsiveCss.Token

open Location

/-! ## Boundaries -/

/-- The text is over or goes on with a character that belongs to no token in front of it, unless
that token holds any text. -/
inductive AtBoundary : List Char → Prop
  | nil : AtBoundary []
  | semicolon (s : List Char) : AtBoundary (';' :: s)
  | brace (s : List Char) : AtBoundary ('}' :: s)

section

variable {s rest rest' : List Char}

theorem AtBoundary.take (h : AtBoundary rest) (n : Nat) : AtBoundary (rest.take n) := by
  cases n with
  | zero => exact .nil
  | succ n =>
    cases h with
    | nil => exact .nil
    | semicolon s => exact .semicolon _
    | brace s => exact .brace _

theorem AtBoundary.head?_append (h : AtBoundary rest) {c : Char} (hsemicolon : c ≠ ';')
    (hbrace : c ≠ '}') : (s ++ rest).head? = some c ↔ s.head? = some c := by
  cases s with
  | cons d s => rfl
  | nil =>
    cases h with
    | nil => rfl
    | semicolon => simpa using hsemicolon.symm
    | brace => simpa using hbrace.symm

/-! ## Looking ahead -/

theorem takeWhile_append {p : Char → Bool} (hsemicolon : p ';' = false) (hbrace : p '}' = false)
    (h : AtBoundary rest) : (s ++ rest).takeWhile p = s.takeWhile p := by
  induction s with
  | nil => cases h <;> simp [hsemicolon, hbrace]
  | cons c s ih => rw [List.cons_append, List.takeWhile_cons, List.takeWhile_cons, ih]

theorem startsLineBreak_append (h : AtBoundary rest) :
    startsLineBreak (s ++ rest) = startsLineBreak s := by
  cases s with
  | nil => cases h <;> rfl
  | cons c s => rfl

theorem spaceLength_cons {c : Char} (hcrlf : ¬ (c = '\r' ∧ s.head? = some '\n')) :
    spaceLength (c :: s) = if isSpace c then 1 else 0 := by
  rw [spaceLength]
  rintro s' rfl rfl
  exact hcrlf ⟨rfl, rfl⟩

theorem spaceLength_append (h : AtBoundary rest) : spaceLength (s ++ rest) = spaceLength s := by
  cases s with
  | nil => cases h <;> rfl
  | cons c s =>
    by_cases hcrlf : c = '\r' ∧ s.head? = some '\n'
    · obtain ⟨rfl, hs⟩ := hcrlf
      obtain ⟨s, rfl⟩ := List.head?_eq_some_iff.mp hs
      rfl
    · have hcrlf' : ¬ (c = '\r' ∧ (s ++ rest).head? = some '\n') := by
        rwa [h.head?_append (by decide) (by decide)]
      rw [List.cons_append, spaceLength_cons hcrlf, spaceLength_cons hcrlf']

theorem spacesLength_append (h : AtBoundary rest) : spacesLength (s ++ rest) = spacesLength s := by
  unfold spacesLength
  rw [takeWhile_append rfl rfl h]

theorem spacesLength_le (s : List Char) : spacesLength s ≤ s.length :=
  (List.takeWhile_sublist _).length_le

theorem startsName_cons {c : Char} (h : c ≠ '-') (h' : c ≠ '\\') :
    startsName (c :: s) = isNameStart c := by
  rw [startsName]
  · rintro d s' rfl
    exact absurd rfl h
  · rintro rfl
    exact absurd rfl h'

theorem startsName_append (h : AtBoundary rest) : startsName (s ++ rest) = startsName s := by
  cases s with
  | nil => cases h <;> rfl
  | cons c s =>
    by_cases hslash : c = '\\'
    · subst hslash
      exact congrArg (!·) (startsLineBreak_append h)
    by_cases hhyphen : c = '-'
    · subst hhyphen
      cases s with
      | nil => cases h <;> rfl
      | cons d s => rfl
    · rw [List.cons_append, startsName_cons hhyphen hslash, startsName_cons hhyphen hslash]

theorem isPrefixOf_append {mark : List Char} (hsemicolon : ';' ∉ mark) (hbrace : '}' ∉ mark)
    (h : AtBoundary rest) : mark.isPrefixOf (s ++ rest) = mark.isPrefixOf s := by
  induction mark generalizing s with
  | nil => rfl
  | cons m mark ih =>
    rw [List.mem_cons, not_or] at hsemicolon hbrace
    cases s with
    | nil =>
      cases h with
      | nil => rfl
      | semicolon => simp [List.isPrefixOf, Ne.symm hsemicolon.1]
      | brace => simp [List.isPrefixOf, Ne.symm hbrace.1]
    | cons c s =>
      rw [List.cons_append, List.isPrefixOf_cons_cons, List.isPrefixOf_cons_cons,
        ih hsemicolon.2 hbrace.2]

theorem sign_append (h : AtBoundary rest) : sign (s ++ rest) = sign s := by
  cases s with
  | nil => cases h <;> simp [sign]
  | cons c s =>
    rw [List.cons_append, sign, sign]
    simp only [h.head?_append (s := s) (c := '=') (by decide) (by decide)]

/-! ## Numbers -/

theorem digitsLength_append (h : AtBoundary rest) : digitsLength (s ++ rest) = digitsLength s := by
  unfold digitsLength
  rw [takeWhile_append rfl rfl h]

theorem digitsLength_le (s : List Char) : digitsLength s ≤ s.length :=
  (List.takeWhile_sublist _).length_le

theorem signLength_append (h : AtBoundary rest) : signLength (s ++ rest) = signLength s := by
  cases s with
  | nil => cases h <;> rfl
  | cons c s => rfl

theorem signLength_le (s : List Char) : signLength s ≤ s.length := by
  unfold signLength
  split
  · split <;> simp
  · simp

theorem fractionLength_append (h : AtBoundary rest) :
    fractionLength (s ++ rest) = fractionLength s := by
  cases s with
  | nil => cases h <;> rfl
  | cons c s => rw [List.cons_append, fractionLength, digitsLength_append h, fractionLength]

theorem fractionLength_le (s : List Char) : fractionLength s ≤ s.length := by
  unfold fractionLength
  split
  · split
    · exact Nat.succ_le_succ (digitsLength_le _)
    · exact Nat.zero_le _
  · exact Nat.le_refl 0

theorem exponentLength_append (h : AtBoundary rest) :
    exponentLength (s ++ rest) = exponentLength s := by
  cases s with
  | nil => cases h <;> rfl
  | cons c s =>
    rw [List.cons_append, exponentLength, exponentLength, signLength_append h,
      List.drop_append_of_le_length (signLength_le s), digitsLength_append h]

theorem numberLength_append (h : AtBoundary rest) : numberLength (s ++ rest) = numberLength s := by
  have hsign := signLength_le s
  have hdigits := digitsLength_le (s.drop (signLength s))
  have hfraction := fractionLength_le (s.drop (signLength s + digitsLength (s.drop (signLength s))))
  rw [List.length_drop] at hdigits hfraction
  unfold numberLength
  dsimp only
  rw [signLength_append h, List.drop_append_of_le_length hsign, digitsLength_append h,
    List.drop_append_of_le_length (by omega), fractionLength_append h,
    List.drop_append_of_le_length (by omega), exponentLength_append h]

/-! ## Escapes -/

theorem escapeDigits_append (h : AtBoundary rest) : escapeDigits (s ++ rest) = escapeDigits s := by
  unfold escapeDigits
  rw [List.take_append, takeWhile_append rfl rfl (h.take _)]

theorem length_escapeDigits_le (s : List Char) : (escapeDigits s).length ≤ s.length :=
  calc (escapeDigits s).length
    _ ≤ ((s.take 6).takeWhile fun c => (hexValue? c).isSome).length := List.length_filterMap_le _ _
    _ ≤ (s.take 6).length := (List.takeWhile_sublist _).length_le
    _ ≤ s.length := List.length_take_le' 6 s

theorem escapeLength_append (hs : s ≠ []) (h : AtBoundary rest) :
    escapeLength (s ++ rest) = escapeLength s := by
  have hpos : 1 ≤ s.length := List.length_pos_iff.mpr hs
  unfold escapeLength
  rw [escapeDigits_append h]
  split
  · rw [List.length_append]
    omega
  · rw [List.drop_append_of_le_length (length_escapeDigits_le s), spaceLength_append h]

theorem escapeLength_ne_zero (hs : s ≠ []) : escapeLength s ≠ 0 := by
  have hpos : 1 ≤ s.length := List.length_pos_iff.mpr hs
  unfold escapeLength
  split
  · omega
  · rename_i hdigits
    intro hzero
    exact hdigits (Nat.eq_zero_of_add_eq_zero_right hzero)

/-! ## Single steps -/

theorem commentLength_cons {c : Char} (hend : ¬ (c = '*' ∧ s.head? = some '/')) :
    commentLength (c :: s) = commentLength s + 1 := by
  rw [commentLength]
  rintro s' rfl rfl
  exact hend ⟨rfl, rfl⟩

theorem badUrlLength_cons {c : Char} (hround : c ≠ ')')
    (hslash : ¬ (c = '\\' ∧ (s.head? = some ')' ∨ s.head? = some '\\'))) :
    badUrlLength (c :: s) = badUrlLength s + 1 := by
  rw [badUrlLength]
  · exact hround
  · rintro t rfl rfl
    exact hslash ⟨rfl, .inl rfl⟩
  · rintro t rfl rfl
    exact hslash ⟨rfl, .inr rfl⟩

theorem length_urlAfter_ne_zero (skip : Nat) (hs : s ≠ []) : (urlAfter skip s).length ≠ 0 := by
  obtain ⟨c, s, rfl⟩ := List.exists_cons_of_ne_nil hs
  cases skip with
  | succ skip => exact Nat.succ_ne_zero _
  | zero =>
    rw [urlAfter]
    split
    · exact Nat.succ_ne_zero _
    · split
      · exact length_urlEnd_ne_zero (List.cons_ne_nil c s)
      · split
        · exact Nat.succ_ne_zero _
        · split <;> exact Nat.succ_ne_zero _

/-- A url with quotes is a call; this is seen from its first character that is no space. -/
theorem url?_of_drop {spaces : Nat} {t : List Char} (hspaces : spacesLength s = spaces)
    (hdrop : s.drop spaces = t) :
    url? s =
      if t.head? = some '"' ∨ t.head? = some '\'' then none
      else some ((urlAfter 0 t).grow spaces) := by
  unfold url?
  dsimp only
  rw [hspaces, hdrop]
  split
  · rfl
  · rfl
  · rename_i hdouble hsingle
    rw [if_neg]
    rintro (hquote | hquote)
    · obtain ⟨t, rfl⟩ := List.head?_eq_some_iff.mp hquote
      exact hdouble t rfl
    · obtain ⟨t, rfl⟩ := List.head?_eq_some_iff.mp hquote
      exact hsingle t rfl

/-- What a name with this end is, where `t` stands behind it. -/
theorem nameLike_of_drop {n : Nat} {t : List Char} (hn : nameLength s = n) (hdrop : s.drop n = t) :
    nameLike s =
      if t.head? = some '(' then
        if Text.sameLetters (unescape (s.take n)) ['u', 'r', 'l'] then
          match url? t.tail with
          | none => (.call, n + 1)
          | some e => (if e.good then .url else .badUrl, n + 1 + e.length)
        else (.call, n + 1)
      else (.ident, n) := by
  unfold nameLike
  dsimp only
  rw [hn, hdrop]
  split
  · rfl
  · rename_i hround
    rw [if_neg]
    intro hhead
    obtain ⟨t, rfl⟩ := List.head?_eq_some_iff.mp hhead
    exact hround t rfl

theorem nameLength_le_nameLike (s : List Char) : nameLength s ≤ (nameLike s).2 := by
  unfold nameLike
  dsimp only
  split
  · split
    · split <;> dsimp only <;> omega
    · exact Nat.le_succ _
  · exact Nat.le_refl _

theorem numeric_of_drop {n : Nat} {t : List Char} (hn : numberLength s = n) (hdrop : s.drop n = t) :
    numeric s =
      if t.head? = some '%' then (.percentage, n + 1)
      else if startsName t then (.dimension, n + nameLength t) else (.number, n) := by
  unfold numeric
  dsimp only
  rw [hn, hdrop]
  split
  · rfl
  · rename_i hpercent
    have hhead : t.head? ≠ some '%' := by
      intro hhead
      obtain ⟨t, rfl⟩ := List.head?_eq_some_iff.mp hhead
      exact hpercent t rfl
    rw [if_neg hhead]

/-- The characters that begin tokens of kinds of their own. -/
def marks : List Char :=
  ['"', '\'', '(', ')', '[', ']', '{', '}', ',', ':', ';', '#', '@', '/', '<']

theorem lead_of_not_mem {c : Char} (hc : c ∉ marks) :
    lead c s = if isSpace c then (.space, spacesLength s + 1) else numberOrName (c :: s) := by
  unfold lead
  split
  iterate 15 exact absurd hc (by decide)
  · rfl

/-! ## Parts that end within the text

The part ends within `s`, and a boundary follows in `rest`. The end of the text would not do there,
since it ends parts that go on in front of `;` or `}`. -/

variable (hne : rest ≠ []) (h : AtBoundary rest) (h' : AtBoundary rest')

include hne h h'

/-- The scanner `f` takes what it has to skip. -/
theorem escapeLength_eq_of_within (f : Nat → List Char → Nat)
    (hf : ∀ skip d s, f (skip + 1) (d :: s) ≠ 0)
    (hlen : f (escapeLength (s ++ rest)) (s ++ rest) ≤ s.length) :
    escapeLength (s ++ rest') = escapeLength (s ++ rest) := by
  have hs : s ≠ [] := by
    rintro rfl
    obtain ⟨n, hn⟩ := Nat.exists_eq_succ_of_ne_zero (escapeLength_ne_zero hne)
    obtain ⟨b, r, rfl⟩ := List.exists_cons_of_ne_nil hne
    rw [List.nil_append, hn] at hlen
    exact hf n b r (Nat.le_zero.mp hlen)
  rw [escapeLength_append hs h, escapeLength_append hs h']

theorem stringEscapeLength_eq_of_within (f : Nat → List Char → Nat)
    (hf : ∀ skip d s, f (skip + 1) (d :: s) ≠ 0)
    (hlen : f (stringEscapeLength (s ++ rest)) (s ++ rest) ≤ s.length) :
    stringEscapeLength (s ++ rest') = stringEscapeLength (s ++ rest) := by
  unfold stringEscapeLength at hlen ⊢
  rw [startsLineBreak_append h] at hlen ⊢
  rw [startsLineBreak_append h']
  split
  · rw [spaceLength_append h, spaceLength_append h']
  · rename_i hbreak
    rw [if_neg hbreak] at hlen
    exact escapeLength_eq_of_within hne h h' f hf hlen

theorem nameLengthAfter_append {skip : Nat} (hlen : nameLengthAfter skip (s ++ rest) ≤ s.length) :
    nameLengthAfter skip (s ++ rest') = nameLengthAfter skip (s ++ rest) := by
  induction s generalizing skip with
  | nil =>
    cases skip with
    | succ skip =>
      obtain ⟨b, r, rfl⟩ := List.exists_cons_of_ne_nil hne
      exact absurd hlen (Nat.not_succ_le_zero _)
    | zero => cases h <;> cases h' <;> rfl
  | cons c s ih =>
    cases skip with
    | succ skip => exact congrArg (· + 1) (ih (Nat.le_of_succ_le_succ hlen))
    | zero =>
      rw [List.cons_append, nameLengthAfter, startsLineBreak_append h] at hlen
      rw [List.cons_append, List.cons_append, nameLengthAfter, nameLengthAfter,
        startsLineBreak_append h, startsLineBreak_append h']
      split
      · rename_i hpart
        rw [if_pos hpart] at hlen
        rw [ih (Nat.le_of_succ_le_succ hlen)]
      · rename_i hpart
        rw [if_neg hpart] at hlen
        split
        · rename_i hslash
          rw [if_pos hslash] at hlen
          have hlen := Nat.le_of_succ_le_succ hlen
          have hesc := escapeLength_eq_of_within hne h h' nameLengthAfter
            (fun _ _ _ => Nat.succ_ne_zero _) hlen
          rw [hesc, ih hlen]
        · rfl

theorem nameLength_append (hlen : nameLength (s ++ rest) ≤ s.length) :
    nameLength (s ++ rest') = nameLength (s ++ rest) :=
  nameLengthAfter_append hne h h' hlen

/-! ## Strings and comments -/

theorem stringAfter_append {quote : Char} (hsemicolon : quote ≠ ';') (hbrace : quote ≠ '}')
    {skip : Nat} (hlen : (stringAfter quote skip (s ++ rest)).length ≤ s.length) :
    stringAfter quote skip (s ++ rest') = stringAfter quote skip (s ++ rest) := by
  induction s generalizing skip with
  | nil =>
    cases skip with
    | succ skip =>
      obtain ⟨b, r, rfl⟩ := List.exists_cons_of_ne_nil hne
      exact absurd hlen (Nat.not_succ_le_zero _)
    | zero =>
      cases h with
      | nil => exact absurd rfl hne
      | semicolon =>
        simp [stringAfter, Ne.symm hsemicolon, isLineBreak, Extent.grow] at hlen
      | brace => simp [stringAfter, Ne.symm hbrace, isLineBreak, Extent.grow] at hlen
  | cons c s ih =>
    cases skip with
    | succ skip => exact congrArg (Extent.grow 1) (ih (Nat.le_of_succ_le_succ hlen))
    | zero =>
      rw [List.cons_append, stringAfter] at hlen
      rw [List.cons_append, List.cons_append, stringAfter, stringAfter]
      split
      · rfl
      · rename_i hquoted
        rw [if_neg hquoted] at hlen
        split
        · rfl
        · rename_i hbreak
          rw [if_neg hbreak] at hlen
          split
          · rename_i hslash
            rw [if_pos hslash] at hlen
            have hlen := Nat.le_of_succ_le_succ hlen
            have hesc := stringEscapeLength_eq_of_within hne h h'
              (fun n s => (stringAfter quote n s).length) (fun _ _ _ => Nat.succ_ne_zero _) hlen
            rw [hesc, ih hlen]
          · rename_i hslash
            rw [if_neg hslash] at hlen
            rw [ih (Nat.le_of_succ_le_succ hlen)]

theorem commentLength_append (hlen : commentLength (s ++ rest) ≤ s.length) :
    commentLength (s ++ rest') = commentLength (s ++ rest) := by
  induction s with
  | nil =>
    cases h with
    | nil => exact absurd rfl hne
    | semicolon => exact absurd hlen (Nat.not_succ_le_zero _)
    | brace => exact absurd hlen (Nat.not_succ_le_zero _)
  | cons c s ih =>
    by_cases hend : c = '*' ∧ s.head? = some '/'
    · obtain ⟨rfl, hs⟩ := hend
      obtain ⟨s, rfl⟩ := List.head?_eq_some_iff.mp hs
      rfl
    · -- No slash follows a star at the end of `s`.
      have hgoes : ∀ t, AtBoundary t →
          commentLength (c :: (s ++ t)) = commentLength (s ++ t) + 1 := by
        intro t ht
        apply commentLength_cons
        rwa [ht.head?_append (by decide) (by decide)]
      rw [List.cons_append, hgoes rest h] at hlen
      rw [List.cons_append, List.cons_append, hgoes rest h, hgoes rest' h',
        ih (Nat.le_of_succ_le_succ hlen)]

/-! ## Urls -/

theorem badUrlLength_append (hlen : badUrlLength (s ++ rest) ≤ s.length) :
    badUrlLength (s ++ rest') = badUrlLength (s ++ rest) := by
  fun_induction badUrlLength s with
  | case1 s => rfl
  | case2 s ih => exact congrArg (· + 2) (ih (Nat.le_of_add_le_add_right hlen))
  | case3 s ih => exact congrArg (· + 2) (ih (Nat.le_of_add_le_add_right hlen))
  | case4 c s hround hescaped hslash ih =>
    have hgoes : ∀ t, AtBoundary t → badUrlLength (c :: (s ++ t)) = badUrlLength (s ++ t) + 1 := by
      intro t ht
      apply badUrlLength_cons hround
      rw [ht.head?_append (by decide) (by decide), ht.head?_append (by decide) (by decide)]
      rintro ⟨rfl, hs | hs⟩
      · obtain ⟨s, rfl⟩ := List.head?_eq_some_iff.mp hs
        exact hescaped s rfl rfl
      · obtain ⟨s, rfl⟩ := List.head?_eq_some_iff.mp hs
        exact hslash s rfl rfl
    rw [List.cons_append, hgoes rest h] at hlen
    rw [List.cons_append, List.cons_append, hgoes rest h, hgoes rest' h',
      ih (Nat.le_of_succ_le_succ hlen)]
  | case5 => exact absurd (Nat.le_zero.mp hlen) (badUrlLength_ne_zero hne)

theorem urlEnd_append (hlen : (urlEnd (s ++ rest)).length ≤ s.length) :
    urlEnd (s ++ rest') = urlEnd (s ++ rest) := by
  induction s with
  | nil => exact absurd (Nat.le_zero.mp hlen) (length_urlEnd_ne_zero hne)
  | cons c s ih =>
    rw [List.cons_append, urlEnd] at hlen
    rw [List.cons_append, List.cons_append, urlEnd, urlEnd]
    split
    · rename_i hspace
      rw [if_pos hspace] at hlen
      rw [ih (Nat.le_of_succ_le_succ hlen)]
    · rename_i hspace
      rw [if_neg hspace] at hlen
      split
      · rfl
      · rename_i hround
        rw [if_neg hround] at hlen
        rw [badUrlLength_append hne h h' (Nat.le_of_succ_le_succ hlen)]

theorem urlAfter_append {skip : Nat} (hlen : (urlAfter skip (s ++ rest)).length ≤ s.length) :
    urlAfter skip (s ++ rest') = urlAfter skip (s ++ rest) := by
  induction s generalizing skip with
  | nil => exact absurd (Nat.le_zero.mp hlen) (length_urlAfter_ne_zero skip hne)
  | cons c s ih =>
    cases skip with
    | succ skip => exact congrArg (Extent.grow 1) (ih (Nat.le_of_succ_le_succ hlen))
    | zero =>
      rw [List.cons_append, urlAfter, startsLineBreak_append h] at hlen
      rw [List.cons_append, List.cons_append, urlAfter, urlAfter, startsLineBreak_append h,
        startsLineBreak_append h']
      split
      · rfl
      · rename_i hround
        rw [if_neg hround] at hlen
        split
        · rename_i hspace
          rw [if_pos hspace] at hlen
          rw [← List.cons_append] at hlen
          rw [← List.cons_append, ← List.cons_append, urlEnd_append hne h h' hlen]
        · rename_i hspace
          rw [if_neg hspace] at hlen
          split
          · rename_i hbad
            rw [if_pos hbad] at hlen
            rw [badUrlLength_append hne h h' (Nat.le_of_succ_le_succ hlen)]
          · rename_i hbad
            rw [if_neg hbad] at hlen
            split
            · rename_i hslash
              rw [if_pos hslash] at hlen
              have hlen := Nat.le_of_succ_le_succ hlen
              have hesc := escapeLength_eq_of_within hne h h' (fun n s => (urlAfter n s).length)
                (fun _ _ _ => Nat.succ_ne_zero _) hlen
              rw [hesc, ih hlen]
            · rename_i hslash
              rw [if_neg hslash] at hlen
              rw [ih (Nat.le_of_succ_le_succ hlen)]

theorem url?_append (hlen : ∀ e, url? (s ++ rest) = some e → e.length ≤ s.length) :
    url? (s ++ rest') = url? (s ++ rest) := by
  have hle := spacesLength_le s
  have hurl : ∀ t, AtBoundary t → url? (s ++ t) =
      if (s.drop (spacesLength s)).head? = some '"' ∨ (s.drop (spacesLength s)).head? = some '\''
      then none else some ((urlAfter 0 (s.drop (spacesLength s) ++ t)).grow (spacesLength s)) := by
    intro t ht
    have hhead := fun c => ht.head?_append (s := s.drop (spacesLength s)) (c := c)
    rw [url?_of_drop (spacesLength_append ht) (List.drop_append_of_le_length hle)]
    simp only [hhead '"' (by decide) (by decide), hhead '\'' (by decide) (by decide)]
  rw [hurl rest h] at hlen
  rw [hurl rest h, hurl rest' h']
  split
  · rfl
  · rename_i hquote
    rw [if_neg hquote] at hlen
    -- The url ends within what is left of `s` behind the spaces.
    have hlen : (urlAfter 0 (s.drop (spacesLength s) ++ rest)).length + spacesLength s ≤ s.length :=
      hlen _ rfl
    rw [urlAfter_append hne h h' (by rw [List.length_drop]; omega)]

/-! ## Tokens -/

theorem nameLike_append (hlen : (nameLike (s ++ rest)).2 ≤ s.length) :
    nameLike (s ++ rest') = nameLike (s ++ rest) := by
  have hle : nameLength (s ++ rest) ≤ s.length := Nat.le_trans (nameLength_le_nameLike _) hlen
  have hname := nameLength_append hne h h' hle
  generalize hn : nameLength (s ++ rest) = n at hle hname
  have hdrop : ∀ t, (s ++ t).drop n = s.drop n ++ t := fun t => List.drop_append_of_le_length hle
  have hhead : ∀ t, AtBoundary t →
      ((s.drop n ++ t).head? = some '(' ↔ (s.drop n).head? = some '(') :=
    fun t ht => ht.head?_append (by decide) (by decide)
  rw [nameLike_of_drop hn (hdrop rest), List.take_append_of_le_length hle] at hlen
  rw [nameLike_of_drop hn (hdrop rest), nameLike_of_drop hname (hdrop rest'),
    List.take_append_of_le_length hle, List.take_append_of_le_length hle]
  simp only [hhead rest h, hhead rest' h'] at hlen ⊢
  split
  · rename_i hround
    rw [if_pos hround] at hlen
    obtain ⟨inside, hinside⟩ := List.head?_eq_some_iff.mp hround
    rw [hinside, List.cons_append, List.tail_cons] at hlen
    rw [hinside, List.cons_append, List.cons_append, List.tail_cons, List.tail_cons]
    split
    · rename_i hletters
      rw [if_pos hletters] at hlen
      have hcut : n + 1 + inside.length = s.length := by
        have hlength := congrArg List.length hinside
        rw [List.length_drop, List.length_cons] at hlength
        omega
      have hurl : url? (inside ++ rest') = url? (inside ++ rest) := by
        apply url?_append hne h h'
        intro e he
        rw [he] at hlen
        have hwithin : n + 1 + e.length ≤ s.length := hlen
        omega
      rw [hurl]
    · rfl
  · rfl

theorem numeric_append (hlen : (numeric (s ++ rest)).2 ≤ s.length) :
    numeric (s ++ rest') = numeric (s ++ rest) := by
  have hle : numberLength s ≤ s.length := by
    rw [← numberLength_append h]
    cases h with
    | nil => exact absurd rfl hne
    | semicolon => exact numberLength_le rfl
    | brace => exact numberLength_le rfl
  generalize hn : numberLength s = n at hle
  have hnumeric : ∀ t, AtBoundary t → numeric (s ++ t) =
      if (s.drop n).head? = some '%' then (.percentage, n + 1)
      else if startsName (s.drop n) then (.dimension, n + nameLength (s.drop n ++ t))
      else (.number, n) := by
    intro t ht
    have hhead := ht.head?_append (s := s.drop n) (c := '%') (by decide) (by decide)
    rw [numeric_of_drop ((numberLength_append ht).trans hn) (List.drop_append_of_le_length hle),
      startsName_append ht]
    simp only [hhead]
  rw [hnumeric rest h] at hlen
  rw [hnumeric rest h, hnumeric rest' h']
  split
  · rfl
  · rename_i hpercent
    rw [if_neg hpercent] at hlen
    split
    · rename_i hname
      rw [if_pos hname] at hlen
      have hwithin : n + nameLength (s.drop n ++ rest) ≤ s.length := hlen
      rw [nameLength_append hne h h' (by rw [List.length_drop]; omega)]
    · rfl

theorem quoted_append {quote : Char} (hsemicolon : quote ≠ ';') (hbrace : quote ≠ '}')
    (hlen : (quoted quote (s ++ rest)).2 ≤ s.length + 1) :
    quoted quote (s ++ rest') = quoted quote (s ++ rest) := by
  unfold quoted
  rw [stringAfter_append hne h h' hsemicolon hbrace (Nat.le_of_succ_le_succ hlen)]

theorem hashLike_append (hlen : (hashLike (s ++ rest)).2 ≤ s.length + 1) :
    hashLike (s ++ rest') = hashLike (s ++ rest) := by
  cases s with
  | nil => cases h <;> cases h' <;> rfl
  | cons c s =>
    have hhash : ∀ t, AtBoundary t → hashLike (c :: s ++ t) =
        if startsName (c :: s) || (c = '-' || c.isDigit) then (.hash, nameLength (c :: s ++ t) + 1)
        else (.delim, 1) := by
      intro t ht
      unfold hashLike
      rw [startsName_append ht]
      rfl
    rw [hhash rest h] at hlen
    rw [hhash rest h, hhash rest' h']
    split
    · rename_i hnamed
      rw [if_pos hnamed] at hlen
      rw [nameLength_append hne h h' (Nat.le_of_succ_le_succ hlen)]
    · rfl

theorem numberOrName_append (hlen : (numberOrName (s ++ rest)).2 ≤ s.length) :
    numberOrName (s ++ rest') = numberOrName (s ++ rest) := by
  unfold numberOrName at hlen ⊢
  rw [numberLength_append h, isPrefixOf_append (by decide) (by decide) h, startsName_append h,
    sign_append h] at hlen ⊢
  rw [numberLength_append h', isPrefixOf_append (by decide) (by decide) h', startsName_append h',
    sign_append h']
  split
  · rename_i hnumber
    rw [if_pos hnumber] at hlen
    exact numeric_append hne h h' hlen
  · rename_i hnumber
    rw [if_neg hnumber] at hlen
    split
    · rfl
    · rename_i hclose
      rw [if_neg hclose] at hlen
      split
      · rename_i hname
        rw [if_pos hname] at hlen
        exact nameLike_append hne h h' hlen
      · rfl

theorem lead_at_append (hlen : (lead '@' (s ++ rest)).2 ≤ s.length + 1) :
    lead '@' (s ++ rest') = lead '@' (s ++ rest) := by
  have hat : ∀ t, AtBoundary t → lead '@' (s ++ t) =
      if startsName s then (.atKeyword, nameLength (s ++ t) + 1) else (.delim, 1) := by
    intro t ht
    rw [← startsName_append ht]
    rfl
  rw [hat rest h] at hlen
  rw [hat rest h, hat rest' h']
  split
  · rename_i hname
    rw [if_pos hname] at hlen
    rw [nameLength_append hne h h' (Nat.le_of_succ_le_succ hlen)]
  · rfl

theorem lead_slash_append (hlen : (lead '/' (s ++ rest)).2 ≤ s.length + 1) :
    lead '/' (s ++ rest') = lead '/' (s ++ rest) := by
  cases s with
  | nil => cases h <;> cases h' <;> rfl
  | cons d s =>
    have hslash : ∀ t, lead '/' (d :: s ++ t) =
        if d = '*' then (.comment, commentLength (s ++ t) + 2) else (.delim, 1) := by
      intro t
      change (if some d = some '*' then _ else _) = _
      simp only [Option.some.injEq]
      rfl
    rw [hslash rest] at hlen
    rw [hslash rest, hslash rest']
    split
    · rename_i hstar
      rw [if_pos hstar] at hlen
      rw [commentLength_append hne h h' (Nat.le_of_add_le_add_right hlen)]
    · rfl

/-- The first token of a text that ends in front of a boundary does not look behind it. -/
theorem lead_append (c : Char) (hlen : (lead c (s ++ rest)).2 ≤ s.length + 1) :
    lead c (s ++ rest') = lead c (s ++ rest) := by
  by_cases hmark : c ∈ marks
  · simp only [marks, List.mem_cons, List.not_mem_nil, or_false] at hmark
    rcases hmark with rfl | rfl | rfl | rfl | rfl | rfl | rfl | rfl | rfl | rfl | rfl | hmark
    · change quoted '"' (s ++ rest') = quoted '"' (s ++ rest)
      exact quoted_append hne h h' (by decide) (by decide) hlen
    · change quoted '\'' (s ++ rest') = quoted '\'' (s ++ rest)
      exact quoted_append hne h h' (by decide) (by decide) hlen
    iterate 9 rfl
    rcases hmark with rfl | rfl | rfl | rfl
    · change hashLike (s ++ rest') = hashLike (s ++ rest)
      exact hashLike_append hne h h' hlen
    · exact lead_at_append hne h h' hlen
    · exact lead_slash_append hne h h' hlen
    · change (if _ then _ else _) = (if _ then _ else _)
      rw [isPrefixOf_append (by decide) (by decide) h, isPrefixOf_append (by decide) (by decide) h']
  · rw [lead_of_not_mem hmark] at hlen ⊢
    rw [lead_of_not_mem hmark]
    split
    · rw [spacesLength_append h, spacesLength_append h']
    · rename_i hspace
      rw [if_neg hspace] at hlen
      exact numberOrName_append (s := c :: s) hne h h' hlen

/-- What a token is does not depend on what stands behind a boundary. -/
theorem IsLead.of_boundary {t : Token} (ht : t.IsLead (s ++ rest)) : t.IsLead (s ++ rest') := by
  obtain ⟨c, u, htext⟩ := List.exists_cons_of_ne_nil ht.ne_nil
  obtain ⟨d, v, hall, hkind, htake⟩ := ht
  rw [htext, List.cons_append, ← List.append_assoc] at hall
  cases hall
  have hpos : 1 ≤ rest.length := List.length_pos_iff.mpr hne
  -- Something is left behind the token, so the token is just as long as its text.
  have hlen : (lead c (u ++ s ++ rest)).2 = u.length + 1 := by
    have hlength := congrArg List.length (htext.symm.trans htake)
    simp only [List.length_cons, List.length_take, List.length_append] at hlength
    omega
  have hlead := lead_append hne h h' c (s := u ++ s) (by rw [hlen, List.length_append]; omega)
  refine ⟨c, u ++ s ++ rest', by rw [htext, List.cons_append, List.append_assoc], ?_, ?_⟩
  · rw [hlead, hkind]
  · rw [hlead, hlen, htext, List.take_succ_cons, List.append_assoc, List.take_left]

end

/-! ## Lists of tokens -/

theorem IsLead.listAfter_eq {t : Token} {rest : List Char} (h : t.IsLead rest) :
    listAfter t.start 0 (t.text ++ rest) = t :: listAfter t.stop 0 rest := by
  obtain ⟨c, s, hall, hkind, htext, hrest⟩ := h.cut
  obtain ⟨n, hn⟩ := Nat.exists_eq_succ_of_ne_zero (Nat.ne_of_gt (whole_lead c s).2)
  rw [hn, List.drop_succ_cons] at hrest
  rw [hall, listAfter, listAfter_skip, hn, Nat.succ_sub_one, ← hrest, ← hkind, ← hn, ← htext]
  rfl

/-- The tokens in front of a boundary stay when something else comes behind it. -/
theorem Tiled.listAfter_append {l : Location} {before behind : List Token} {rest : List Char}
    (htiled : Tiled l (before ++ behind)) (hne : cover behind ≠ [])
    (h : AtBoundary (cover behind)) (h' : AtBoundary rest) :
    listAfter l 0 (cover before ++ rest) =
      before ++ listAfter (l.after (cover before)) 0 rest := by
  induction before generalizing l with
  | nil => rw [cover_nil, List.nil_append, List.nil_append, after_nil]
  | cons t before ih =>
    obtain ⟨rfl, hlead, hbehind⟩ := htiled
    have hlead : t.IsLead (cover before ++ cover behind) := cover_append before behind ▸ hlead
    have hlead := hlead.of_boundary hne h h'
    rw [cover_cons, List.append_assoc, hlead.listAfter_eq, ih hbehind, List.cons_append,
      after_append _ hlead.joins.left]
    rfl

end ResponsiveCss.Token
