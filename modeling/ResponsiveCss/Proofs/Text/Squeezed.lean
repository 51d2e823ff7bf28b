-- Texts of which spaces and line breaks only set their words apart. A text is
-- squeezed when it has one space for every run of them and none at its ends;
-- what is left then are its words with single spaces between them.
import Mathlib.Data.List.DropRight

namespace ResponsiveCss.Text

/-! ## Squeezing -/

/-- A space or a line break. -/
def isGap (c : Char) : Bool := c = ' ' || c = '\n'

/-- The text with one space for every run of gaps. A run that `began` in front of the text has its
space already. -/
def collapseFrom (began : Bool) : List Char → List Char
  | [] => []
  | c :: s =>
    if isGap c then
      if began then collapseFrom true s else ' ' :: collapseFrom true s
    else c :: collapseFrom false s

/-- The text with one space for every run of gaps. -/
def collapse (s : List Char) : List Char := collapseFrom false s

/-- The text without the spaces at its two ends. -/
def dropOuterSpaces (s : List Char) : List Char := (s.dropWhile (· = ' ')).rdropWhile (· = ' ')

/-- The text with one space for every run of gaps and none at its ends. -/
def squeezed (s : List Char) : List Char := dropOuterSpaces (collapse s)

/-! ## Words -/

/-- The stretches between the gaps. -/
def words (s : List Char) : List (List Char) := (s.splitOnP isGap).filter (· ≠ [])

@[simp] theorem words_nil : words [] = [] := by simp [words, List.splitOnP_nil]

/-- A gap sets the words in front of it apart from those behind it. -/
theorem words_append_gap {c : Char} (hc : isGap c = true) (a b : List Char) :
    words (a ++ c :: b) = words a ++ words b := by
  unfold words
  rw [List.splitOnP_append_cons a b hc, List.filter_append]

theorem words_cons_gap {c : Char} (hc : isGap c = true) (s : List Char) :
    words (c :: s) = words s := by
  simpa using words_append_gap hc [] s

theorem words_append_of_head {a b : List Char} (h : ∀ c, b.head? = some c → isGap c = true) :
    words (a ++ b) = words a ++ words b := by
  cases b with
  | nil => simp
  | cons c b =>
    have hc := h c rfl
    rw [words_append_gap hc, words_cons_gap hc]

theorem words_append_of_last {a b : List Char} (h : ∀ c, a.getLast? = some c → isGap c = true) :
    words (a ++ b) = words a ++ words b := by
  rcases List.eq_nil_or_concat a with rfl | ⟨a, c, rfl⟩
  · simp
  · have hc := h c (by simp)
    have ha := words_append_gap hc a []
    rw [words_nil, List.append_nil] at ha
    rw [List.concat_eq_append, List.append_assoc, List.singleton_append, words_append_gap hc, ha]

/-- A character that is no gap is a word of its own in front of a gap. -/
theorem words_cons_of_head {c : Char} {s : List Char} (hc : isGap c = false)
    (hs : ∀ d, s.head? = some d → isGap d = true) : words (c :: s) = [c] :: words s := by
  have hone : words [c] = [[c]] := by
    simp [words, List.splitOnP_cons_eq_if_modifyHead, List.splitOnP_nil, hc]
  rw [← List.singleton_append, words_append_of_head hs, hone, List.singleton_append]

/-- Elsewhere it becomes the first character of the word behind it. -/
theorem words_cons_cons {c d : Char} {s : List Char} (hc : isGap c = false)
    (hd : isGap d = false) :
    ∃ w more, words (d :: s) = w :: more ∧ words (c :: d :: s) = (c :: w) :: more := by
  obtain ⟨w, more, hs⟩ := List.exists_cons_of_ne_nil (List.splitOnP_ne_nil isGap s)
  refine ⟨d :: w, more.filter (· ≠ []), ?_, ?_⟩
  · simp [words, List.splitOnP_cons_eq_if_modifyHead, hs, hd]
  · simp [words, List.splitOnP_cons_eq_if_modifyHead, hs, hc, hd]

/-! ## A squeezed text is its words -/

/-- The words with one space between each two. -/
def joined (s : List Char) : List Char := [' '].intercalate (words s)

theorem joined_cons_gap {c : Char} (hc : isGap c = true) (s : List Char) :
    joined (c :: s) = joined s := by
  rw [joined, words_cons_gap hc, joined]

theorem joined_cons_cons {c d : Char} {s : List Char} (hc : isGap c = false)
    (hd : isGap d = false) : joined (c :: d :: s) = c :: joined (d :: s) := by
  obtain ⟨w, more, hs, hcs⟩ := words_cons_cons (s := s) hc hd
  rw [joined, joined, hcs, hs]
  cases more with
  | nil => simp
  | cons v more => simp [List.intercalate_cons_cons]

theorem joined_cons_of_head {c : Char} {s : List Char} (hc : isGap c = false)
    (hs : ∀ d, s.head? = some d → isGap d = true) :
    joined (c :: s) = c :: if words s = [] then [] else ' ' :: joined s := by
  rw [joined, words_cons_of_head hc hs, joined]
  cases words s with
  | nil => simp
  | cons w more => simp [List.intercalate_cons_cons]

/-- A text is built from its end: by a gap, by a character that ends a word, or by one inside of a
word. -/
@[elab_as_elim]
theorem words_induction {motive : List Char → Prop} (s : List Char) (nil : motive [])
    (gap : ∀ c s, isGap c = true → motive s → motive (c :: s))
    (ends : ∀ c s, isGap c = false → (∀ d, s.head? = some d → isGap d = true) → motive s →
      motive (c :: s))
    (inside : ∀ c d s, isGap c = false → isGap d = false → motive (d :: s) →
      motive (c :: d :: s)) : motive s := by
  induction s with
  | nil => exact nil
  | cons c s ih =>
    cases hc : isGap c with
    | true => exact gap c s hc ih
    | false =>
      cases s with
      | nil => exact ends c [] hc (by simp) ih
      | cons d s =>
        cases hd : isGap d with
        | true => exact ends c (d :: s) hc (by simpa using hd) ih
        | false => exact inside c d s hc hd ih

theorem ne_space_of_not_isGap {c : Char} (hc : isGap c = false) : c ≠ ' ' := by
  rintro rfl
  cases hc

/-- A text without words is joined to nothing; elsewhere no space stands at either end. -/
theorem ends_joined (s : List Char) :
    (words s = [] ∧ joined s = []) ∨
      (∃ c t, joined s = c :: t ∧ c ≠ ' ') ∧ ∃ t c, joined s = t ++ [c] ∧ c ≠ ' ' := by
  induction s using words_induction with
  | nil => exact Or.inl ⟨words_nil, rfl⟩
  | gap c s hc ih =>
    rw [words_cons_gap hc, joined_cons_gap hc]
    exact ih
  | ends c s hc hs ih =>
    right
    rw [joined_cons_of_head hc hs]
    refine ⟨⟨c, _, rfl, ne_space_of_not_isGap hc⟩, ?_⟩
    rcases ih with ⟨hnil, -⟩ | ⟨⟨d, u, hjoined, -⟩, t, e, hlast, he⟩
    · rw [if_pos hnil]
      exact ⟨[], c, rfl, ne_space_of_not_isGap hc⟩
    · have hne : words s ≠ [] := by
        intro hnil
        simp [joined, hnil] at hjoined
      rw [if_neg hne, hlast]
      exact ⟨c :: ' ' :: t, e, rfl, he⟩
  | inside c d s hc hd ih =>
    right
    rw [joined_cons_cons hc hd]
    refine ⟨⟨c, _, rfl, ne_space_of_not_isGap hc⟩, ?_⟩
    rcases ih with ⟨hnil, hjoined⟩ | ⟨-, t, e, hlast, he⟩
    · rw [hjoined]
      exact ⟨[], c, rfl, ne_space_of_not_isGap hc⟩
    · rw [hlast]
      exact ⟨c :: t, e, rfl, he⟩

/-- Behind a gap nothing but a space at the end can be too much. -/
theorem collapseFrom_eq (s : List Char) :
    ∃ spaces, collapseFrom true s = joined s ++ spaces ∧ (∀ c ∈ spaces, c = ' ') ∧
      (words s = [] → spaces = []) := by
  induction s using words_induction with
  | nil => exact ⟨[], rfl, by simp, fun _ => rfl⟩
  | gap c s hc ih =>
    rw [words_cons_gap hc, joined_cons_gap hc, collapseFrom, if_pos hc, if_pos rfl]
    exact ih
  | ends c s hc hs ih =>
    obtain ⟨spaces, heq, hspaces, hnil⟩ := ih
    rw [collapseFrom, if_neg (by simp [hc]), joined_cons_of_head hc hs, words_cons_of_head hc hs]
    cases s with
    | nil => exact ⟨[], rfl, by simp, by simp⟩
    | cons d s =>
      have hd := hs d rfl
      have hbehind : collapseFrom false (d :: s) = ' ' :: collapseFrom true (d :: s) := by
        simp [collapseFrom, hd]
      rw [hbehind, heq]
      by_cases hwords : words (d :: s) = []
      · refine ⟨[' '], ?_, by simp, by simp⟩
        simp [hwords, hnil hwords, joined]
      · exact ⟨spaces, by simp [hwords], hspaces, by simp⟩
  | inside c d s hc hd ih =>
    obtain ⟨spaces, heq, hspaces, -⟩ := ih
    obtain ⟨w, more, -, hwords⟩ := words_cons_cons (s := s) hc hd
    have hbehind : collapseFrom false (d :: s) = collapseFrom true (d :: s) := by
      simp [collapseFrom, hd]
    rw [collapseFrom, if_neg (by simp [hc]), hbehind, heq, joined_cons_cons hc hd, hwords]
    exact ⟨spaces, rfl, hspaces, by simp⟩

theorem dropOuterSpaces_space (s : List Char) :
    dropOuterSpaces (' ' :: s) = dropOuterSpaces s := by
  unfold dropOuterSpaces
  rw [List.dropWhile_cons_of_pos (by simp)]

theorem dropOuterSpaces_collapse (s : List Char) :
    dropOuterSpaces (collapse s) = dropOuterSpaces (collapseFrom true s) := by
  cases s with
  | nil => rfl
  | cons c s =>
    cases hc : isGap c with
    | true => simp [collapse, collapseFrom, hc, dropOuterSpaces_space]
    | false => simp [collapse, collapseFrom, hc]

/-- What is left of a text when it is squeezed are its words with single spaces between them. -/
theorem squeezed_eq_joined (s : List Char) : squeezed s = joined s := by
  obtain ⟨spaces, heq, hspaces, hnil⟩ := collapseFrom_eq s
  unfold squeezed
  rw [dropOuterSpaces_collapse, heq]
  rcases ends_joined s with ⟨hwords, hjoined⟩ | ⟨⟨c, u, hfirst, hc⟩, t, d, hlast, hd⟩
  · rw [hjoined, hnil hwords]
    rfl
  · have hfront : (joined s ++ spaces).dropWhile (· = ' ') = joined s ++ spaces := by
      rw [hfirst, List.cons_append, List.dropWhile_cons_of_neg (by simpa using hc)]
    have hback : (joined s ++ spaces).rdropWhile (· = ' ') = (joined s).rdropWhile (· = ' ') := by
      unfold List.rdropWhile
      rw [List.reverse_append, List.dropWhile_append_of_pos]
      intro d hd
      simpa using hspaces d (List.mem_reverse.mp hd)
    rw [dropOuterSpaces, hfront, hback, hlast, List.rdropWhile_concat_neg _ _ _ (by simpa using hd)]

example : squeezed " a \n\n  b\t\n".toList = "a b\t".toList := by decide

end ResponsiveCss.Text
