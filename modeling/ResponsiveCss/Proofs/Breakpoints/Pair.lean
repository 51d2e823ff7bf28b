-- The pairs `NAME=QUERY`. A text is a pair just if there is more than blanks on
-- both sides of its first `=`. The two sides without the blanks at their ends
-- are the breakpoint, and whatever blanks are put there, it is read again.
import ResponsiveCss.Breakpoints
import ResponsiveCss.Proofs.Text.Occurrence
import ResponsiveCss.Proofs.Text.Trim

namespace ResponsiveCss

namespace Text

/-- Trimming takes blanks away, and only at the two ends. -/
theorem exists_blanks_trim (s : List Char) :
    ∃ front back, AllBlank front ∧ AllBlank back ∧ s = front ++ trim s ++ back := by
  have hfront : AllBlank (s.takeWhile isBlank) :=
    fun c hc => List.all_eq_true.mp List.all_takeWhile c hc
  have hback : AllBlank ((s.dropWhile isBlank).reverse.takeWhile isBlank).reverse :=
    fun c hc => List.all_eq_true.mp List.all_takeWhile c (List.mem_reverse.mp hc)
  refine ⟨_, _, hfront, hback, ?_⟩
  rw [trim, trimEnd, List.append_assoc, ← List.reverse_append, List.takeWhile_append_dropWhile,
    List.reverse_reverse, List.takeWhile_append_dropWhile]

/-- With something trimmed in it, a text is not blank. -/
theorem not_allBlank_between {front s back : List Char} (hs : Trimmed s) (hne : s ≠ []) :
    ¬ AllBlank (front ++ s ++ back) := by
  intro hall
  obtain ⟨c, more, rfl⟩ := List.exists_cons_of_ne_nil hne
  have hc : isBlank c = true := hall c (by simp)
  rw [hs.head c rfl] at hc
  cases hc

end Text

namespace Breakpoint

open Text

/-! ## Pairs by their parts -/

/-- The text has these two parts around its first `=`, and neither of them is blank. -/
structure Parts (pair : String) (before behind : List Char) : Prop where
  split : pair.toList = before ++ '=' :: behind
  first : '=' ∉ before
  name : ¬ AllBlank before
  query : ¬ AllBlank behind

theorem ofPair_of_parts {pair : String} {before behind : List Char}
    (h : Parts pair before behind) :
    ofPair pair = .ok ⟨String.ofList (trim before), String.ofList (trim behind)⟩ := by
  have hname : trim before ≠ [] := mt trim_eq_nil_iff.mp h.name
  have hquery : trim behind ≠ [] := mt trim_eq_nil_iff.mp h.query
  unfold ofPair
  rw [splitFirst?_eq_some_iff.mpr ⟨h.split, h.first⟩]
  simp [hname, hquery]

theorem parts_of_ofPair {pair : String} {b : Breakpoint} (h : ofPair pair = .ok b) :
    ∃ before behind, Parts pair before behind ∧
      b = ⟨String.ofList (trim before), String.ofList (trim behind)⟩ := by
  unfold ofPair at h
  split at h
  · rename_i before behind hsplit
    obtain ⟨hpair, hfirst⟩ := splitFirst?_eq_some_iff.mp hsplit
    dsimp only at h
    split at h
    · cases h
    · rename_i hne
      cases h
      simp only [Bool.or_eq_true, decide_eq_true_eq, not_or, trim_eq_nil_iff] at hne
      exact ⟨before, behind, ⟨hpair, hfirst, hne.1, hne.2⟩, rfl⟩
  · cases h

/-! ## Pairs by their breakpoints -/

/-- A pair can stand for the breakpoint: there is something in both parts and no blank at their
ends, and no `=` in the name. The query may hold any number of them. -/
structure Pairable (b : Breakpoint) : Prop where
  named : b.name ≠ ""
  name : Trimmed b.name.toList
  noSign : '=' ∉ b.name.toList
  queried : b.query ≠ ""
  query : Trimmed b.query.toList

/-- The text is the breakpoint's name, `=` and its query, with any blanks around the two. -/
def Writes (pair : String) (b : Breakpoint) : Prop :=
  ∃ u v w x, AllBlank u ∧ AllBlank v ∧ AllBlank w ∧ AllBlank x ∧
    pair.toList = (u ++ b.name.toList ++ v) ++ '=' :: (w ++ b.query.toList ++ x)

theorem pairable_of_parts {pair : String} {before behind : List Char}
    (h : Parts pair before behind) :
    Pairable ⟨String.ofList (trim before), String.ofList (trim behind)⟩ := by
  have hname : trim before ≠ [] := mt trim_eq_nil_iff.mp h.name
  have hquery : trim behind ≠ [] := mt trim_eq_nil_iff.mp h.query
  refine ⟨by simpa using hname, ?_, ?_, by simpa using hquery, ?_⟩
  · rw [String.toList_ofList]
    exact trimmed_trim before
  · rw [String.toList_ofList]
    exact fun hmem => h.first (subset_of_trim before hmem)
  · rw [String.toList_ofList]
    exact trimmed_trim behind

theorem writes_of_parts {pair : String} {before behind : List Char}
    (h : Parts pair before behind) :
    Writes pair ⟨String.ofList (trim before), String.ofList (trim behind)⟩ := by
  obtain ⟨u, v, hu, hv, hbefore⟩ := exists_blanks_trim before
  obtain ⟨w, x, hw, hx, hbehind⟩ := exists_blanks_trim behind
  refine ⟨u, v, w, x, hu, hv, hw, hx, ?_⟩
  rw [String.toList_ofList, String.toList_ofList, ← hbefore, ← hbehind, h.split]

theorem ofPair_of_writes {pair : String} {b : Breakpoint} (h : Pairable b) (hpair : Writes pair b) :
    ofPair pair = .ok b := by
  obtain ⟨u, v, w, x, hu, hv, hw, hx, hsplit⟩ := hpair
  have hfirst : '=' ∉ u ++ b.name.toList ++ v := by
    have hsign : isBlank '=' ≠ true := by decide
    simp only [List.mem_append, not_or]
    exact ⟨⟨fun hmem => hsign (hu _ hmem), h.noSign⟩, fun hmem => hsign (hv _ hmem)⟩
  have hparts : Parts pair (u ++ b.name.toList ++ v) (w ++ b.query.toList ++ x) :=
    ⟨hsplit, hfirst, not_allBlank_between h.name (by simpa using h.named),
      not_allBlank_between h.query (by simpa using h.queried)⟩
  rw [ofPair_of_parts hparts, trim_between hu h.name hv, trim_between hw h.query hx,
    String.ofList_toList, String.ofList_toList]

theorem ofPair_eq_ok_iff {pair : String} {b : Breakpoint} :
    ofPair pair = .ok b ↔ Pairable b ∧ Writes pair b := by
  constructor
  · intro h
    obtain ⟨before, behind, hparts, rfl⟩ := parts_of_ofPair h
    exact ⟨pairable_of_parts hparts, writes_of_parts hparts⟩
  · rintro ⟨hpairable, hwrites⟩
    exact ofPair_of_writes hpairable hwrites

/-- The pair without any blanks around the parts. -/
theorem writes_plain (b : Breakpoint) : Writes (b.name ++ "=" ++ b.query) b :=
  ⟨[], [], [], [], allBlank_nil, allBlank_nil, allBlank_nil, allBlank_nil, by simp⟩

/-! ## The law -/

/-- A text is read just if its first `=` parts it into two texts that are not blank, and these,
trimmed, are the breakpoint. So the breakpoints that are read are just those that a pair can stand
for, each from its name, `=` and its query with any blanks around the two, and each is read again
from the pair without blanks. -/
theorem a_pair_is_what_stands_around_its_first_sign (pair : String) (b : Breakpoint) :
    (ofPair pair = .ok b ↔ ∃ before behind, Parts pair before behind ∧
      b = ⟨String.ofList (trim before), String.ofList (trim behind)⟩) ∧
    (ofPair pair = .ok b ↔ Pairable b ∧ Writes pair b) ∧
    (ofPair pair = .ok b → ofPair (b.name ++ "=" ++ b.query) = .ok b) := by
  refine ⟨⟨parts_of_ofPair, ?_⟩, ofPair_eq_ok_iff, ?_⟩
  · rintro ⟨before, behind, hparts, rfl⟩
    exact ofPair_of_parts hparts
  · intro h
    exact ofPair_of_writes (ofPair_eq_ok_iff.mp h).1 (writes_plain b)

/-- Blanks of several kinds around a query that holds the sign itself. -/
theorem a_query_with_signs_is_read_again :
    let b : Breakpoint := ⟨"m d", "(400px <= width) = x"⟩
    ofPair "\u00A0m d\t=\u3000(400px <= width) = x\n" = .ok b ∧
      ofPair "m d=(400px <= width) = x" = .ok b := by
  intro b
  have hread : ofPair "\u00A0m d\t=\u3000(400px <= width) = x\n" = .ok b := by decide +kernel
  exact ⟨hread, (a_pair_is_what_stands_around_its_first_sign _ b).2.2 hread⟩

end Breakpoint

end ResponsiveCss
