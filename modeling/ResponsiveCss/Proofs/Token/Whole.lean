-- No token ends between the `\r` and the `\n` of one line end, and each takes at
-- least one character. This is shown for every part of a token by the function
-- that says how far the part reaches.
import ResponsiveCss.Proofs.Location
import ResponsiveCss.Proofs.Text.Occurrence
import ResponsiveCss.Proofs.Token.Reach

namespace ResponsiveCss.Token

open Location

/-! ## Stretches that cut no line end in two -/

/-- The first `n` characters of the text do not end inside of `\r\n`. -/
def Whole : Nat → List Char → Prop
  | 0, _ => True
  | n + 1, s => s[n]? = some '\r' → s[n + 1]? ≠ some '\n'

theorem whole_zero (s : List Char) : Whole 0 s := trivial

theorem whole_cons {n : Nat} {c : Char} {s : List Char} (h : Whole n s)
    (hc : n = 0 → c = '\r' → s.head? ≠ some '\n') : Whole (n + 1) (c :: s) := by
  cases n with
  | zero =>
    intro hr
    rw [List.getElem?_cons_succ, ← List.head?_eq_getElem?]
    exact hc rfl (by simpa using hr)
  | succ n => exact h

theorem whole_cons_of_ne {n : Nat} {c : Char} {s : List Char} (h : Whole n s) (hc : c ≠ '\r') :
    Whole (n + 1) (c :: s) :=
  whole_cons h fun _ hr => absurd hr hc

/-- The same for a length that takes something from every text but the empty one. -/
theorem whole_cons_of_takes {n : Nat} {c : Char} {s : List Char} (h : Whole n s)
    (htakes : s ≠ [] → n ≠ 0) : Whole (n + 1) (c :: s) := by
  apply whole_cons h
  rintro hzero - hs
  cases s with
  | nil => cases hs
  | cons d s => exact htakes (List.cons_ne_nil d s) hzero

theorem whole_tail {n : Nat} {c : Char} {s : List Char} (h : Whole (n + 1) (c :: s)) :
    Whole n s := by
  cases n with
  | zero => trivial
  | succ n => exact h

/-- The same for a length that takes the first `skip` characters in any case. -/
theorem whole_cons_of_skip (f : Nat → List Char → Nat) (hf : ∀ skip d s, f (skip + 1) (d :: s) ≠ 0)
    {skip : Nat} {c : Char} {s : List Char} (h : Whole (skip + 1) (c :: s))
    (hs : Whole (f skip s) s) : Whole (f skip s + 1) (c :: s) := by
  apply whole_cons hs
  rintro hzero rfl hn
  cases skip with
  | zero =>
    rw [List.head?_eq_getElem?] at hn
    exact h rfl hn
  | succ skip =>
    cases s with
    | nil => cases hn
    | cons d s => exact hf skip d s hzero

theorem Whole.add {m n : Nat} {s : List Char} (hm : Whole m s) (hn : Whole n (s.drop m)) :
    Whole (m + n) s := by
  cases n with
  | zero => exact hm
  | succ n =>
    have hn : (s.drop m)[n]? = some '\r' → (s.drop m)[n + 1]? ≠ some '\n' := hn
    rwa [List.getElem?_drop, List.getElem?_drop] at hn

theorem whole_of_not_mem {n : Nat} {s : List Char} (h : '\r' ∉ s.take n) : Whole n s := by
  cases n with
  | zero => trivial
  | succ n =>
    intro hr
    exact absurd (List.mem_of_getElem? (by rwa [List.getElem?_take_of_lt (Nat.lt_succ_self n)])) h

theorem Whole.joins {n : Nat} {s : List Char} (h : Whole n s) : Joins (s.take n) (s.drop n) := by
  intro hr
  cases n with
  | zero => simp at hr
  | succ n =>
    rw [List.head?_drop]
    by_cases hn : n < s.length
    · have hlast : (s.take (n + 1)).getLast? = s[n]? := by
        rw [List.getLast?_eq_getElem?, List.length_take, Nat.min_eq_left hn]
        exact List.getElem?_take_of_lt (Nat.lt_succ_self n)
      exact h (hlast ▸ hr)
    · rw [List.getElem?_eq_none (by omega)]
      simp

/-! ## Spaces, numbers and names -/

theorem whole_spacesLength (s : List Char) : Whole (spacesLength s) s := by
  induction s with
  | nil => trivial
  | cons c s ih =>
    unfold spacesLength at ih ⊢
    by_cases hc : isSpace c = true
    · rw [List.takeWhile_cons_of_pos hc, List.length_cons]
      apply whole_cons ih
      rintro hn - hs
      cases s with
      | nil => cases hs
      | cons d s =>
        cases hs
        cases hn
    · rw [List.takeWhile_cons_of_neg hc]
      trivial

theorem whole_spaceLength (s : List Char) : Whole (spaceLength s) s := by
  unfold spaceLength
  split
  · exact whole_cons (whole_cons_of_ne (whole_zero _) (by decide)) (by simp)
  · rename_i c s hcrlf
    split
    · apply whole_cons (whole_zero _)
      rintro - rfl hs
      obtain ⟨s', rfl⟩ := List.head?_eq_some_iff.mp hs
      exact hcrlf s' rfl rfl
    · trivial
  · trivial

theorem whole_numberLength (s : List Char) : Whole (numberLength s) s := by
  apply whole_of_not_mem
  intro hr
  exact absurd (numberTo_numberLength s '\r' hr) (by decide)

/-- An escape with a number begins with its digits. -/
theorem isSome_of_mem_escapeDigits {s : List Char} {c : Char}
    (h : c ∈ s.take (escapeDigits s).length) : (hexValue? c).isSome = true := by
  unfold escapeDigits at h
  have hprefix : (s.take 6).takeWhile (fun c => (hexValue? c).isSome) <+: s :=
    (List.takeWhile_prefix _).trans (List.take_prefix 6 s)
  have hlen : (((s.take 6).takeWhile fun c => (hexValue? c).isSome).filterMap hexValue?).length ≤
      ((s.take 6).takeWhile fun c => (hexValue? c).isSome).length := List.length_filterMap_le _ _
  have hmem := (List.take_sublist_take_left hlen).subset h
  rw [← List.prefix_iff_eq_take.mp hprefix] at hmem
  exact List.all_eq_true.mp List.all_takeWhile c hmem

theorem whole_escapeLength {s : List Char} (h : startsLineBreak s = false) :
    Whole (escapeLength s) s := by
  unfold escapeLength
  split
  · cases s with
    | nil => trivial
    | cons c s =>
      have hc : c ≠ '\r' := by
        rintro rfl
        cases h
      rw [List.length_cons, Nat.min_eq_left (by omega)]
      exact whole_cons_of_ne (whole_zero _) hc
  · refine Whole.add (whole_of_not_mem ?_) (whole_spaceLength _)
    intro hr
    exact absurd (isSome_of_mem_escapeDigits hr) (by decide)

theorem whole_nameLengthAfter {skip : Nat} {s : List Char} (h : Whole skip s) :
    Whole (nameLengthAfter skip s) s := by
  induction s generalizing skip with
  | nil => cases skip <;> trivial
  | cons c s ih =>
    cases skip with
    | succ skip =>
      exact whole_cons_of_skip nameLengthAfter (fun _ _ _ => Nat.succ_ne_zero _) h
        (ih (whole_tail h))
    | zero =>
      rw [nameLengthAfter]
      split
      · rename_i hc
        apply whole_cons_of_ne (ih (whole_zero s))
        rintro rfl
        cases hc
      · split
        · rename_i hesc
          simp only [Bool.and_eq_true, decide_eq_true_eq, Bool.not_eq_true'] at hesc
          apply whole_cons_of_ne (ih (whole_escapeLength hesc.2))
          rw [hesc.1]
          decide
        · trivial

theorem whole_nameLength (s : List Char) : Whole (nameLength s) s :=
  whole_nameLengthAfter (whole_zero s)

/-! ## Strings, comments and urls -/

theorem whole_stringEscapeLength (s : List Char) : Whole (stringEscapeLength s) s := by
  unfold stringEscapeLength
  split
  · exact whole_spaceLength s
  · rename_i h
    exact whole_escapeLength (by simpa using h)

theorem not_isLineBreak_cr {c : Char} (h : isLineBreak c = false) : c ≠ '\r' := by
  rintro rfl
  cases h

theorem not_isSpace_cr {c : Char} (h : isSpace c = false) : c ≠ '\r' := by
  rintro rfl
  cases h

theorem whole_stringAfter {quote : Char} (hquote : quote ≠ '\r') {skip : Nat} {s : List Char}
    (h : Whole skip s) : Whole (stringAfter quote skip s).length s := by
  induction s generalizing skip with
  | nil => cases skip <;> trivial
  | cons c s ih =>
    cases skip with
    | succ skip =>
      exact whole_cons_of_skip (fun skip s => (stringAfter quote skip s).length)
        (fun _ _ _ => Nat.succ_ne_zero _) h (ih (whole_tail h))
    | zero =>
      rw [stringAfter]
      split
      · rename_i hc
        exact whole_cons_of_ne (whole_zero s) (hc ▸ hquote)
      · split
        · trivial
        · rename_i hbreak
          have hc := not_isLineBreak_cr (by simpa using hbreak)
          split
          · exact whole_cons_of_ne (ih (whole_stringEscapeLength s)) hc
          · exact whole_cons_of_ne (ih (whole_zero s)) hc

theorem commentLength_ne_zero {s : List Char} (h : s ≠ []) : commentLength s ≠ 0 := by
  unfold commentLength
  split
  · simp
  · simp
  · exact absurd rfl h

theorem whole_commentLength (s : List Char) : Whole (commentLength s) s := by
  fun_induction commentLength s with
  | case1 s => exact whole_cons_of_ne (whole_cons_of_ne (whole_zero s) (by decide)) (by decide)
  | case2 c s hopen ih => exact whole_cons_of_takes ih commentLength_ne_zero
  | case3 => trivial

theorem badUrlLength_ne_zero {s : List Char} (h : s ≠ []) : badUrlLength s ≠ 0 := by
  unfold badUrlLength
  split
  · simp
  · simp
  · simp
  · simp
  · exact absurd rfl h

theorem whole_badUrlLength (s : List Char) : Whole (badUrlLength s) s := by
  fun_induction badUrlLength s with
  | case1 s => exact whole_cons_of_ne (whole_zero s) (by decide)
  | case2 s ih => exact whole_cons_of_ne (whole_cons_of_ne ih (by decide)) (by decide)
  | case3 s ih => exact whole_cons_of_ne (whole_cons_of_ne ih (by decide)) (by decide)
  | case4 c s h₁ h₂ h₃ ih => exact whole_cons_of_takes ih badUrlLength_ne_zero
  | case5 => trivial

theorem length_urlEnd_ne_zero {s : List Char} (h : s ≠ []) : (urlEnd s).length ≠ 0 := by
  unfold urlEnd
  split
  · exact absurd rfl h
  · split
    · exact Nat.succ_ne_zero _
    · split <;> exact Nat.succ_ne_zero _

theorem whole_urlEnd (s : List Char) : Whole (urlEnd s).length s := by
  induction s with
  | nil => trivial
  | cons c s ih =>
    rw [urlEnd]
    split
    · exact whole_cons_of_takes ih length_urlEnd_ne_zero
    · rename_i hspace
      have hc := not_isSpace_cr (by simpa using hspace)
      split
      · exact whole_cons_of_ne (whole_zero s) hc
      · exact whole_cons_of_ne (whole_badUrlLength s) hc

theorem whole_urlAfter {skip : Nat} {s : List Char} (h : Whole skip s) :
    Whole (urlAfter skip s).length s := by
  induction s generalizing skip with
  | nil => cases skip <;> trivial
  | cons c s ih =>
    cases skip with
    | succ skip =>
      exact whole_cons_of_skip (fun skip s => (urlAfter skip s).length)
        (fun _ _ _ => Nat.succ_ne_zero _) h (ih (whole_tail h))
    | zero =>
      rw [urlAfter]
      split
      · rename_i hc
        exact whole_cons_of_ne (whole_zero s) (by rw [hc]; decide)
      · split
        · exact whole_urlEnd (c :: s)
        · rename_i hspace
          have hc := not_isSpace_cr (by simpa using hspace)
          split
          · exact whole_cons_of_ne (whole_badUrlLength s) hc
          · rename_i hbad
            split
            · rename_i hesc
              have hbreak : isUnprintable '\\' = false ∧ startsLineBreak s = false := by
                simpa [hesc] using hbad
              exact whole_cons_of_ne (ih (whole_escapeLength hbreak.2)) hc
            · exact whole_cons_of_ne (ih (whole_zero s)) hc

theorem whole_url? {s : List Char} {e : Extent} (h : url? s = some e) : Whole e.length s := by
  unfold url? at h
  dsimp only at h
  split at h
  · cases h
  · cases h
  · cases h
    have hlen : ∀ n, (urlAfter 0 (s.drop (spacesLength s))).length + n =
        n + (urlAfter 0 (s.drop (spacesLength s))).length := fun n => Nat.add_comm _ n
    change Whole (_ + _) s
    rw [hlen]
    exact (whole_spacesLength s).add (whole_urlAfter (whole_zero _))

/-! ## What begins a text -/

theorem nameLength_ne_zero {s : List Char} (h : startsName s = true) : nameLength s ≠ 0 := by
  unfold startsName at h
  unfold nameLength
  split at h
  · simp [nameLengthAfter, isNamePart]
  · rename_i s
    have hesc : isNamePart '\\' = false := by decide
    simp only [Bool.not_eq_true'] at h
    simp [nameLengthAfter, hesc, h]
  · simp [nameLengthAfter, isNamePart, h]
  · cases h

/-- Names and calls: a bracket behind the name is taken with it. -/
theorem whole_nameLike (s : List Char) : Whole (nameLike s).2 s := by
  have hname := whole_nameLength s
  unfold nameLike
  dsimp only
  split
  · rename_i inside hinside
    have hcall : Whole (nameLength s + 1) s :=
      hname.add (by rw [hinside]; exact whole_cons_of_ne (whole_zero _) (by decide))
    split
    · split
      · exact hcall
      · rename_i e hurl
        have hrest : s.drop (nameLength s + 1) = inside := by
          rw [← List.drop_drop, hinside, List.drop_one, List.tail_cons]
        exact hcall.add (by rw [hrest]; exact whole_url? hurl)
    · exact hcall
  · exact hname

theorem nameLike_pos {s : List Char} (h : startsName s = true) : 0 < (nameLike s).2 := by
  have hname := nameLength_ne_zero h
  unfold nameLike
  dsimp only
  split
  · split
    · split <;> dsimp only <;> omega
    · exact Nat.succ_pos _
  · exact Nat.pos_of_ne_zero hname

theorem whole_numeric (s : List Char) : Whole (numeric s).2 s := by
  have hnumber := whole_numberLength s
  unfold numeric
  dsimp only
  split
  · rename_i hpercent
    exact hnumber.add (by rw [hpercent]; exact whole_cons_of_ne (whole_zero _) (by decide))
  · split
    · exact hnumber.add (whole_nameLength _)
    · exact hnumber

theorem numeric_pos {s : List Char} (h : numberLength s ≠ 0) : 0 < (numeric s).2 := by
  unfold numeric
  dsimp only
  split
  · exact Nat.succ_pos _
  · split <;> dsimp only <;> omega

/-- One character, and then a stretch of the text behind it. -/
theorem whole_first {c : Char} {n : Nat} {s : List Char} (hc : c ≠ '\r') (h : Whole n s) :
    Whole (n + 1) (c :: s) ∧ 0 < n + 1 :=
  ⟨whole_cons_of_ne h hc, Nat.succ_pos n⟩

theorem whole_of_isPrefixOf {mark s : List Char} (h : mark.isPrefixOf s = true)
    (hmark : '\r' ∉ mark) : Whole mark.length s := by
  apply whole_of_not_mem
  obtain ⟨rest, rfl⟩ := List.isPrefixOf_iff_prefix.mp h
  rwa [List.take_left]

/-- A sign has one character, or two of which the second is no line break. -/
theorem whole_sign {c : Char} {s : List Char} (hc : c ≠ '\r') :
    Whole (sign (c :: s)).2 (c :: s) ∧ 0 < (sign (c :: s)).2 := by
  rcases sign_cases (c :: s) with hsign | ⟨d, more, heq, hsign⟩
  · rw [hsign]
    exact whole_first hc (whole_zero s)
  · rw [hsign]
    cases heq
    exact whole_first hc (whole_cons_of_ne (whole_zero more) (by decide))

theorem whole_numberOrName {c : Char} {s : List Char} (hspace : isSpace c = false) :
    Whole (numberOrName (c :: s)).2 (c :: s) ∧ 0 < (numberOrName (c :: s)).2 := by
  unfold numberOrName
  split
  · rename_i hnumber
    exact ⟨whole_numeric _, numeric_pos hnumber⟩
  · split
    · rename_i hclose
      exact ⟨whole_of_isPrefixOf hclose (by decide), by decide⟩
    · split
      · rename_i hname
        exact ⟨whole_nameLike _, nameLike_pos hname⟩
      · exact whole_sign (not_isSpace_cr hspace)

/-- A token takes at least one character and cuts no line end in two. -/
theorem whole_lead (c : Char) (s : List Char) :
    Whole (lead c s).2 (c :: s) ∧ 0 < (lead c s).2 := by
  have hone : c ≠ '\r' → Whole 1 (c :: s) ∧ 0 < 1 := fun hc => whole_first hc (whole_zero s)
  unfold lead
  split
  · exact whole_first (by decide) (whole_stringAfter (by decide) (whole_zero s))
  · exact whole_first (by decide) (whole_stringAfter (by decide) (whole_zero s))
  iterate 9 exact hone (by decide)
  · unfold hashLike
    generalize (startsName s || _) = named
    cases named with
    | true => exact whole_first (by decide) (whole_nameLength s)
    | false => exact hone (by decide)
  · split
    · exact whole_first (by decide) (whole_nameLength s)
    · exact hone (by decide)
  · split
    · rename_i hstar
      obtain ⟨s', rfl⟩ := List.head?_eq_some_iff.mp hstar
      have hcomment := whole_cons_of_ne (whole_commentLength s') (c := '*') (by decide)
      exact whole_first (by decide) hcomment
    · exact hone (by decide)
  · split
    · rename_i hopen
      exact whole_first (by decide) (whole_of_isPrefixOf hopen (by decide))
    · exact hone (by decide)
  · split
    · rename_i hspace
      refine ⟨whole_cons (whole_spacesLength s) ?_, Nat.succ_pos _⟩
      rintro hzero - hs
      obtain ⟨s, rfl⟩ := List.head?_eq_some_iff.mp hs
      cases hzero
    · rename_i hspace
      exact whole_numberOrName (by simpa using hspace)

end ResponsiveCss.Token
