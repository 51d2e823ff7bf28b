-- The tokens of a text tile it: each begins where the one before ends. So the
-- place of a token is the place behind the text in front of it, and later
-- tokens stand at later places.
import ResponsiveCss.Proofs.Token.Whole

namespace ResponsiveCss.Token

open Location

/-! ## The tokens of a text -/

/-- The text of a list of tokens. -/
def cover (ts : List Token) : List Char := ts.flatMap text

@[simp] theorem cover_nil : cover [] = [] := rfl

@[simp] theorem cover_cons (t : Token) (ts : List Token) :
    cover (t :: ts) = t.text ++ cover ts := rfl

@[simp] theorem cover_append (ts us : List Token) : cover (ts ++ us) = cover ts ++ cover us :=
  List.flatMap_append

/-- The token is what is read first in a text that goes on with `rest` behind it. -/
def IsLead (t : Token) (rest : List Char) : Prop :=
  ∃ c s, t.text ++ rest = c :: s ∧ t.kind = (lead c s).1 ∧ t.text = (c :: s).take (lead c s).2

/-- The tokens stand one behind the other from `l` on, each as it is read there. -/
def Tiled : Location → List Token → Prop
  | _, [] => True
  | l, t :: ts => t.start = l ∧ t.IsLead (cover ts) ∧ Tiled t.stop ts

theorem IsLead.ne_nil {t : Token} {rest : List Char} (h : t.IsLead rest) : t.text ≠ [] := by
  obtain ⟨c, s, -, -, htext⟩ := h
  obtain ⟨n, hn⟩ := Nat.exists_eq_succ_of_ne_zero (Nat.ne_of_gt (whole_lead c s).2)
  rw [htext, hn, List.take_succ_cons]
  exact List.cons_ne_nil c _

/-- The token is cut off its text, and `rest` is left. -/
theorem IsLead.cut {t : Token} {rest : List Char} (h : t.IsLead rest) :
    ∃ c s, t.text ++ rest = c :: s ∧ t.kind = (lead c s).1 ∧
      t.text = (c :: s).take (lead c s).2 ∧ rest = (c :: s).drop (lead c s).2 := by
  obtain ⟨c, s, hall, hkind, htext⟩ := h
  refine ⟨c, s, hall, hkind, htext, ?_⟩
  have hsplit := List.take_append_drop (lead c s).2 (c :: s)
  rw [← htext, ← hall] at hsplit
  rw [← hall]
  exact (List.append_cancel_left hsplit).symm

theorem IsLead.joins {t : Token} {rest : List Char} (h : t.IsLead rest) : Joins t.text rest := by
  obtain ⟨c, s, -, -, htext, hrest⟩ := h.cut
  rw [htext, hrest]
  exact (whole_lead c s).1.joins

/-- The character that begins every token of this kind, for the kinds that are told by it. -/
def Kind.mark? : Kind → Option Char
  | .atKeyword => some '@'
  | .comment => some '/'
  | .semicolon => some ';'
  | .closing .curly => some '}'
  | _ => none

theorem mark?_nameLike (s : List Char) : (nameLike s).1.mark? = none := by
  unfold nameLike
  dsimp only
  split
  · split
    · split
      · rfl
      · dsimp only
        split <;> rfl
    · rfl
  · rfl

theorem mark?_numeric (s : List Char) : (numeric s).1.mark? = none := by
  unfold numeric
  dsimp only
  split
  · rfl
  · split <;> rfl

theorem mark?_quoted (quote : Char) (s : List Char) : (quoted quote s).1.mark? = none := by
  unfold quoted
  dsimp only
  split <;> rfl

theorem mark?_hashLike (s : List Char) : (hashLike s).1.mark? = none := by
  unfold hashLike
  generalize (startsName s || _) = named
  cases named <;> rfl

theorem mark?_numberOrName (s : List Char) : (numberOrName s).1.mark? = none := by
  unfold numberOrName
  split
  · exact mark?_numeric s
  · split
    · rfl
    · split
      · exact mark?_nameLike s
      · rcases sign_cases s with hsign | ⟨c, more, -, hsign⟩ <;> rw [hsign] <;> rfl

theorem lead_mark (c : Char) (s : List Char) (m : Char) :
    (lead c s).1.mark? = some m → c = m := by
  unfold lead
  split
  · rw [mark?_quoted]
    exact nofun
  · rw [mark?_quoted]
    exact nofun
  iterate 5 exact nofun
  · rintro ⟨⟩
    rfl
  iterate 2 exact nofun
  · rintro ⟨⟩
    rfl
  · rw [mark?_hashLike]
    exact nofun
  · split
    · rintro ⟨⟩
      rfl
    · exact nofun
  · split
    · rintro ⟨⟩
      rfl
    · exact nofun
  · split <;> exact nofun
  · split
    · exact nofun
    · rw [mark?_numberOrName]
      exact nofun

section

variable {t : Token} {rest : List Char}

theorem IsLead.exists_of_mark (h : t.IsLead rest) {m : Char} (hmark : t.kind.mark? = some m) :
    ∃ s, t.text ++ rest = m :: s ∧ t.kind = (lead m s).1 ∧ t.text = (m :: s).take (lead m s).2 := by
  obtain ⟨c, s, hall, hlead, htext⟩ := h
  obtain rfl := lead_mark c s m (hlead ▸ hmark)
  exact ⟨s, hall, hlead, htext⟩

theorem IsLead.text_eq_of_semicolon (h : t.IsLead rest) (hkind : t.kind = .semicolon) :
    t.text = [';'] := by
  obtain ⟨s, -, -, htext⟩ := h.exists_of_mark (m := ';') (by rw [hkind]; rfl)
  exact htext

theorem IsLead.text_eq_of_brace (h : t.IsLead rest) (hkind : t.kind = .closing .curly) :
    t.text = ['}'] := by
  obtain ⟨s, -, -, htext⟩ := h.exists_of_mark (m := '}') (by rw [hkind]; rfl)
  exact htext

theorem IsLead.begins_at (h : t.IsLead rest) (hkind : t.kind = .atKeyword) :
    ['@'] <+: t.text ++ rest := by
  obtain ⟨s, hall, -, -⟩ := h.exists_of_mark (m := '@') (by rw [hkind]; rfl)
  exact ⟨s, hall.symm⟩

theorem IsLead.begins_comment (h : t.IsLead rest) (hkind : t.kind = .comment) :
    ['/', '*'] <+: t.text ++ rest := by
  obtain ⟨s, hall, hlead, -⟩ := h.exists_of_mark (m := '/') (by rw [hkind]; rfl)
  by_cases hstar : s.head? = some '*'
  · obtain ⟨s, rfl⟩ := List.head?_eq_some_iff.mp hstar
    exact ⟨s, hall.symm⟩
  · have hslash : (lead '/' s).1 = .delim := congrArg Prod.fst (if_neg hstar)
    rw [hkind, hslash] at hlead
    cases hlead

end

/-- The tokens of a text tile it. -/
theorem tiled_listAfter (l : Location) (s : List Char) :
    cover (listAfter l 0 s) = s ∧ Tiled l (listAfter l 0 s) := by
  induction hn : s.length using Nat.strongRecOn generalizing s l with
  | _ n ih =>
    subst hn
    cases s with
    | nil => exact ⟨rfl, trivial⟩
    | cons c s =>
      obtain ⟨n, hn⟩ := Nat.exists_eq_succ_of_ne_zero (Nat.ne_of_gt (whole_lead c s).2)
      have hlt : (s.drop n).length < (c :: s).length := by
        rw [List.length_drop, List.length_cons]
        omega
      obtain ⟨hcover, htiled⟩ := ih _ hlt (l.after ((c :: s).take (lead c s).2)) (s.drop n) rfl
      have hsplit : (c :: s).take (lead c s).2 ++ s.drop n = c :: s := by
        rw [hn, List.take_succ_cons, List.cons_append, List.take_append_drop]
      rw [listAfter, listAfter_skip, show (lead c s).2 - 1 = n by omega]
      refine ⟨by rw [cover_cons, hcover, hsplit], rfl, ?_, htiled⟩
      exact ⟨c, s, by rw [hcover, hsplit], rfl, rfl⟩

theorem cover_ofText (s : List Char) : cover (ofText s) = s := (tiled_listAfter .start s).1

theorem tiled_ofText (s : List Char) : Tiled .start (ofText s) := (tiled_listAfter .start s).2

/-! ## The places of tokens -/

section

variable {l : Location} {before behind : List Token} {t : Token}

/-- The tokens behind others tile what is behind their text. -/
theorem Tiled.tail (h : Tiled l (before ++ behind)) :
    Joins (cover before) (cover behind) ∧ Tiled (l.after (cover before)) behind := by
  induction before generalizing l with
  | nil => exact ⟨nofun, h⟩
  | cons t before ih =>
    obtain ⟨rfl, hlead, hrest⟩ := h
    obtain ⟨hjoins, htiled⟩ := ih hrest
    have hall : Joins t.text (cover before ++ cover behind) := by
      rw [← cover_append]
      exact hlead.joins
    rw [cover_cons, after_append _ hall.left]
    exact ⟨hall.append hjoins, htiled⟩

theorem Tiled.start_eq (h : Tiled l (before ++ t :: behind)) : t.start = l.after (cover before) :=
  h.tail.2.1

theorem Tiled.isLead (h : Tiled l (before ++ t :: behind)) : t.IsLead (cover behind) :=
  h.tail.2.2.1

section

variable {between : List Token}

theorem Tiled.after_cover_append (h : Tiled l (before ++ (between ++ behind))) :
    l.after (cover (before ++ between)) = (l.after (cover before)).after (cover between) := by
  have hjoins := h.tail.1
  rw [cover_append] at hjoins
  rw [cover_append, after_append l hjoins.left]

theorem Tiled.stop_eq (h : Tiled l (before ++ t :: behind)) :
    t.stop = l.after (cover (before ++ [t])) := by
  have hone : Tiled l (before ++ ([t] ++ behind)) := h
  rw [hone.after_cover_append, ← h.start_eq, cover_cons, cover_nil, List.append_nil, Token.stop]

theorem Tiled.cover_ne_nil (h : Tiled l (before ++ (between ++ behind))) (hne : between ≠ []) :
    cover between ≠ [] := by
  cases between with
  | nil => exact absurd rfl hne
  | cons t between =>
    have hlead : t.IsLead _ := Tiled.isLead h
    rw [cover_cons]
    exact List.append_ne_nil_of_left_ne_nil hlead.ne_nil _

/-- Tokens move the place forward. -/
theorem Tiled.earlier (h : Tiled l (before ++ (between ++ behind))) (hne : between ≠ []) :
    Earlier (l.after (cover before)) (l.after (cover (before ++ between))) := by
  rw [h.after_cover_append]
  exact earlier_after _ (h.cover_ne_nil hne)

theorem Tiled.between_eq_nil_iff (h : Tiled l (before ++ (between ++ t :: behind))) :
    (cover before = cover (before ++ between) ↔ between = []) ∧
      (l.after (cover before) = t.start ↔ between = []) := by
  have hstart : t.start = l.after (cover (before ++ between)) := by
    rw [← List.append_assoc] at h
    exact h.start_eq
  cases between with
  | nil => simp [hstart]
  | cons u between =>
    have hne := h.cover_ne_nil (List.cons_ne_nil u between)
    have hearlier := h.earlier (List.cons_ne_nil u between)
    rw [hstart]
    simpa using And.intro hne hearlier.ne

end

end

end ResponsiveCss.Token
