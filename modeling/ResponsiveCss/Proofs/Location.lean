-- Places in a text: the place behind a text is its line and its column, a
-- text moves a place forward, and the places behind two texts in a row come
-- one after the other, unless the cut parts the `\r` and `\n` of one line end.
import ResponsiveCss.Location
import ResponsiveCss.Token.Parts

namespace ResponsiveCss.Location

open Token

/-! ## Lines and columns -/

/-- The number of line ends in a text: a `\r` before `\n` is no line end of its own. -/
def lineEnds : List Char → Nat
  | [] => 0
  | c :: s => (if isLineBreak c && !(c = '\r' && s.head? = some '\n') then 1 else 0) + lineEnds s

/-- The stretch of a text behind its last line end. -/
def lastLine : List Char → List Char
  | [] => []
  | c :: s => if lineEnds (c :: s) = 0 then c :: s else lastLine s

/-- The UTF-16 units of a text. -/
def unitsOf : List Char → Nat
  | [] => 0
  | c :: s => units c + unitsOf s

/-- The place of an offset in a text: one line for every line end in front of it, and one column
for every unit in front of it on its line. -/
def ofOffset (s : List Char) (i : Nat) : Location :=
  ⟨lineEnds (s.take i) + 1, unitsOf (lastLine (s.take i)) + 1⟩

theorem units_pos (c : Char) : 0 < units c := by
  unfold units
  split <;> omega

/-! ## The steps of a place -/

theorem after_crlf (l : Location) (s : List Char) :
    l.after ('\r' :: '\n' :: s) = l.nextLine.after s := by
  rw [after]

theorem after_lineBreak (l : Location) {c : Char} {s : List Char} (hc : isLineBreak c = true)
    (hs : c = '\r' → s.head? ≠ some '\n') : l.after (c :: s) = l.nextLine.after s := by
  rw [after.eq_3]
  · rw [if_pos (by simpa [isLineBreak] using hc)]
  · rintro s' rfl rfl
    exact hs rfl rfl

theorem after_cons (l : Location) {c : Char} {s : List Char} (hc : isLineBreak c = false) :
    l.after (c :: s) = (⟨l.line, l.column + units c⟩ : Location).after s := by
  rw [after.eq_3]
  · rw [if_neg (by simpa [isLineBreak] using hc)]
  · rintro s' rfl
    cases hc

/-- A text begins with `\r\n`, with another line end or with a character on the line. -/
theorem text_cases {motive : List Char → Prop} (s : List Char) (nil : motive [])
    (crlf : ∀ s, motive s → motive ('\r' :: '\n' :: s))
    (lineBreak : ∀ c s, isLineBreak c = true → (c = '\r' → s.head? ≠ some '\n') → motive s →
      motive (c :: s))
    (cons : ∀ c s, isLineBreak c = false → motive s → motive (c :: s)) : motive s := by
  induction hn : s.length using Nat.strongRecOn generalizing s with
  | _ n ih =>
    subst hn
    cases s with
    | nil => exact nil
    | cons c s =>
      by_cases hc : isLineBreak c = true
      · by_cases hs : c = '\r' ∧ s.head? = some '\n'
        · obtain ⟨rfl, hs⟩ := hs
          obtain ⟨s, rfl⟩ := List.head?_eq_some_iff.mp hs
          have hlt : s.length < ('\r' :: '\n' :: s).length := by
            rw [List.length_cons, List.length_cons]
            omega
          exact crlf s (ih s.length hlt s rfl)
        · exact lineBreak c s hc (fun h h' => hs ⟨h, h'⟩) (ih s.length (by simp) s rfl)
      · exact cons c s (by simpa using hc) (ih s.length (by simp) s rfl)

/-! ## The place behind a text -/

theorem lineEnds_crlf (s : List Char) : lineEnds ('\r' :: '\n' :: s) = lineEnds s + 1 := by
  simp [lineEnds, isLineBreak, Nat.add_comm]

theorem lineEnds_lineBreak {c : Char} {s : List Char} (hc : isLineBreak c = true)
    (hs : c = '\r' → s.head? ≠ some '\n') : lineEnds (c :: s) = lineEnds s + 1 := by
  have hflag : (isLineBreak c && !(c = '\r' && s.head? = some '\n')) = true := by
    by_cases h : c = '\r'
    · simpa [hs h] using hc
    · simp [hc, h]
  rw [lineEnds, if_pos hflag, Nat.add_comm]

theorem lineEnds_cons {c : Char} (s : List Char) (hc : isLineBreak c = false) :
    lineEnds (c :: s) = lineEnds s := by
  simp [lineEnds, hc]

theorem lastLine_of_lineEnds_eq_zero {s : List Char} (h : lineEnds s = 0) : lastLine s = s := by
  cases s with
  | nil => rfl
  | cons c s => rw [lastLine, if_pos h]

theorem lastLine_cons {c : Char} {s : List Char} (h : lineEnds (c :: s) ≠ 0) :
    lastLine (c :: s) = lastLine s := by
  rw [lastLine, if_neg h]

theorem after_eq (l : Location) (s : List Char) :
    l.after s =
      ⟨l.line + lineEnds s, (if lineEnds s = 0 then l.column else 1) + unitsOf (lastLine s)⟩ := by
  induction s using text_cases generalizing l with
  | nil => simp [lineEnds, lastLine, unitsOf]
  | crlf s ih =>
    have hsome : lineEnds ('\r' :: '\n' :: s) ≠ 0 := by simp [lineEnds_crlf]
    have hsome' : lineEnds ('\n' :: s) ≠ 0 := by simp [lineEnds, isLineBreak]
    rw [after_crlf, ih, if_neg hsome, lineEnds_crlf, lastLine_cons hsome, lastLine_cons hsome']
    simp [nextLine, Nat.add_assoc, Nat.add_comm]
  | lineBreak c s hc hs ih =>
    have hsome : lineEnds (c :: s) ≠ 0 := by simp [lineEnds_lineBreak hc hs]
    rw [after_lineBreak l hc hs, ih, if_neg hsome, lineEnds_lineBreak hc hs, lastLine_cons hsome]
    simp [nextLine, Nat.add_assoc, Nat.add_comm]
  | cons c s hc ih =>
    have hsame := lineEnds_cons s hc
    rw [after_cons l hc, ih, hsame]
    by_cases h : lineEnds s = 0
    · rw [lastLine_of_lineEnds_eq_zero h, lastLine_of_lineEnds_eq_zero (hsame.trans h)]
      simp [h, unitsOf, Nat.add_assoc]
    · rw [if_neg h, if_neg h, lastLine_cons (by rwa [hsame])]

theorem ofOffset_eq (s : List Char) (i : Nat) : ofOffset s i = Location.start.after (s.take i) := by
  rw [after_eq, ofOffset]
  simp [start, Nat.add_comm]

/-! ## Texts in a row -/

/-- No line end is cut in two between the texts. -/
def Joins (a b : List Char) : Prop := a.getLast? = some '\r' → b.head? ≠ some '\n'

theorem Joins.tail {c : Char} {a b : List Char} (h : Joins (c :: a) b) : Joins a b := by
  intro ha
  apply h
  rw [List.getLast?_cons, ha]
  rfl

theorem Joins.left {a b c : List Char} (h : Joins a (b ++ c)) : Joins a b := by
  intro ha hb
  apply h ha
  rw [List.head?_append, hb]
  rfl

theorem Joins.append {a b c : List Char} (h : Joins a (b ++ c)) (hbc : Joins b c) :
    Joins (a ++ b) c := by
  intro hab
  rw [List.getLast?_append] at hab
  cases hb : b.getLast? with
  | some d => exact hbc (by rwa [hb] at hab ⊢)
  | none =>
    rw [List.getLast?_eq_none_iff.mp hb] at h
    exact h (by rwa [hb] at hab)

theorem after_append (l : Location) {a b : List Char} (h : Joins a b) :
    l.after (a ++ b) = (l.after a).after b := by
  induction a using text_cases generalizing l with
  | nil => simp
  | crlf a ih =>
    rw [List.cons_append, List.cons_append, after_crlf, after_crlf, ih _ h.tail.tail]
  | lineBreak c a hc ha ih =>
    have hab : c = '\r' → (a ++ b).head? ≠ some '\n' := by
      rintro rfl
      cases a with
      | nil => exact h rfl
      | cons d a => exact ha rfl
    rw [List.cons_append, after_lineBreak l hc hab, after_lineBreak l hc ha, ih _ h.tail]
  | cons c a hc ih => rw [List.cons_append, after_cons l hc, after_cons l hc, ih _ h.tail]

/-! ## Earlier and later places -/

/-- The place `l` is on an earlier line than `m`, or in front of it on the same line. -/
def Earlier (l m : Location) : Prop := l.line < m.line ∨ l.line = m.line ∧ l.column < m.column

theorem Earlier.trans {l m n : Location} (h : Earlier l m) (h' : Earlier m n) : Earlier l n := by
  unfold Earlier at h h' ⊢
  omega

theorem Earlier.ne {l m : Location} (h : Earlier l m) : l ≠ m := by
  rintro rfl
  unfold Earlier at h
  omega

/-- A text moves every place forward. -/
theorem earlier_after (l : Location) {s : List Char} (hs : s ≠ []) : Earlier l (l.after s) := by
  induction s using text_cases generalizing l with
  | nil => exact absurd rfl hs
  | crlf s ih =>
    have hnext : Earlier l l.nextLine := Or.inl (Nat.lt_succ_self _)
    rw [after_crlf]
    by_cases hnil : s = []
    · simpa [hnil] using hnext
    · exact hnext.trans (ih _ hnil)
  | lineBreak c s hc hs' ih =>
    have hnext : Earlier l l.nextLine := Or.inl (Nat.lt_succ_self _)
    rw [after_lineBreak l hc hs']
    by_cases hnil : s = []
    · simpa [hnil] using hnext
    · exact hnext.trans (ih _ hnil)
  | cons c s hc ih =>
    have hnext : Earlier l ⟨l.line, l.column + units c⟩ := by
      have := units_pos c
      exact Or.inr ⟨rfl, by simp; omega⟩
    rw [after_cons l hc]
    by_cases hnil : s = []
    · simpa [hnil] using hnext
    · exact hnext.trans (ih _ hnil)

end ResponsiveCss.Location
