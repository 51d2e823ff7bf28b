-- Which texts are declarations, and what is wrong with the others. A
-- declaration of plain texts is read back from its text.
import ResponsiveCss.Proofs.Text.Occurrence
import ResponsiveCss.Proofs.Text.Plain
import ResponsiveCss.Proofs.Text.Trim
import ResponsiveCss.Stylesheet.Parse
import ResponsiveCss.Stylesheet.Render

namespace ResponsiveCss

namespace Text

theorem PlainPrelude.trimmed {s : String} (h : PlainPrelude s) : Trimmed s.toList := by
  have hblank : ∀ c ∈ s.toList, c ≠ ' ' → isBlank c = false := by
    intro c hc hne
    rcases h.chars c hc with hc | rfl | rfl
    · simp [isBlank_of_isPlain hc, hne]
    · decide
    · decide
  constructor
  · intro c hc
    refine hblank c (List.mem_of_head? hc) ?_
    rintro rfl
    exact h.tight.1 hc
  · intro c hc
    refine hblank c (List.mem_of_getLast? hc) ?_
    rintro rfl
    exact h.tight.2 hc

theorem PlainValue.trimmed {s : String} (h : PlainValue s) : Trimmed s.toList := h.prelude.trimmed

/-- No letter becomes an exclamation mark. -/
theorem toLower_ne_of_isPlain {c : Char} (h : isPlain c = true) : c.toLower ≠ '!' := by
  intro hlower
  unfold Char.toLower at hlower
  split at hlower
  · rename_i hupper
    -- A capital letter becomes a small one, and the mark is none.
    have hlow := UInt32.le_iff_toNat_le.mp hupper.1
    have hhigh := UInt32.le_iff_toNat_le.mp hupper.2
    have hval := congrArg (fun d => d.val.toNat) hlower
    change 65 ≤ c.val.toNat at hlow
    change c.val.toNat ≤ 90 at hhigh
    change (c.val + 32).toNat = 33 at hval
    rw [UInt32.toNat_add] at hval
    change (c.val.toNat + 32) % 2 ^ 32 = 33 at hval
    omega
  · subst hlower
    revert h
    decide

end Text

namespace Declaration

open Text

/-! ## What a text is read as -/

/-- The declaration of a text with its first colon between these two parts. -/
def ofParts (before behind : List Char) (source : Location) : Declaration :=
  match dropMark? (trim behind) with
  | some rest => ⟨String.ofList (trim before), String.ofList rest, true, source⟩
  | none => ⟨String.ofList (trim before), String.ofList (trim behind), false, source⟩

theorem ofText_of_parts {before behind : List Char} {source : Location} (hcolon : ':' ∉ before)
    (hblank : ¬ AllBlank before) :
    ofText (before ++ ':' :: behind) source = .ok (ofParts before behind source) := by
  have hsplit : splitFirst? ':' (before ++ ':' :: behind) = some (before, behind) :=
    splitFirst?_eq_some_iff.mpr ⟨rfl, hcolon⟩
  unfold ofText ofParts
  rw [hsplit]
  dsimp only
  rw [if_neg (mt trim_eq_nil_iff.mp hblank)]
  cases dropMark? (trim behind) <;> rfl

theorem ofText_of_not_mem {text : List Char} {source : Location} (hcolon : ':' ∉ text) :
    ofText text source = .error ⟨.unknownWord (String.ofList (trim text)), source⟩ := by
  unfold ofText
  rw [splitFirst?_eq_none_iff.mpr hcolon]

theorem ofText_of_allBlank {before behind : List Char} {source : Location}
    (hblank : AllBlank before) :
    ofText (before ++ ':' :: behind) source = .error ⟨.noProperty, source⟩ := by
  have hcolon : ':' ∉ before := fun hmem => absurd (hblank ':' hmem) (by decide)
  have hsplit : splitFirst? ':' (before ++ ':' :: behind) = some (before, behind) :=
    splitFirst?_eq_some_iff.mpr ⟨rfl, hcolon⟩
  unfold ofText
  rw [hsplit]
  dsimp only
  rw [if_pos (trim_eq_nil_iff.mpr hblank)]

/-! ## Plain declarations -/

theorem dropMark?_append (s : List Char) : dropMark? (s ++ importantMark) = some (trimEnd s) := by
  unfold dropMark?
  dsimp only
  rw [List.length_append, Nat.add_sub_cancel, List.drop_left, List.take_left, if_pos]
  simp [sameLetters]

theorem dropMark?_of_isPlain {s : List Char} (h : ∀ c ∈ s, isPlain c = true) :
    dropMark? s = none := by
  unfold dropMark?
  dsimp only
  rw [if_neg]
  generalize hn : s.length - importantMark.length = n
  intro hmark
  have hmem : '!' ∈ (s.drop n).map Char.toLower := by
    rw [eq_of_beq hmark]
    decide
  obtain ⟨c, hc, hlower⟩ := List.mem_map.mp hmem
  exact toLower_ne_of_isPlain (h c (List.mem_of_mem_drop hc)) hlower

/-- The text of a declaration without the semicolon. -/
def text (d : Declaration) : List Char :=
  d.property.toList ++ ':' :: ' ' :: d.value.toList ++
    if d.important then ' ' :: importantMark else []

theorem toList_render (d : Declaration) : d.render.toList = d.text ++ [';'] := by
  have hcolon : ": ".toList = [':', ' '] := rfl
  have hmark : " !important".toList = ' ' :: importantMark := rfl
  have hsemicolon : ";".toList = [';'] := rfl
  unfold render text
  cases d.important
  · simp [hcolon, hsemicolon]
  · simp only [if_pos, String.toList_append, hcolon, hmark, hsemicolon, List.append_assoc,
      List.cons_append, List.nil_append]

/-- The end of a declaration is trimmed, and its mark is told from its value. -/
theorem dropMark?_trim_value {value : List Char} (h : Trimmed value) :
    dropMark? (trim (' ' :: value ++ ' ' :: importantMark)) = some value := by
  by_cases hnil : value = []
  · rw [hnil]
    decide
  · have htrimmed : Trimmed (value ++ ' ' :: importantMark) := by
      constructor
      · intro c hc
        cases value with
        | nil => exact absurd rfl hnil
        | cons d s => exact h.head c hc
      · intro c hc
        rw [List.getLast?_append] at hc
        cases hc
        decide
    have htrim := trim_between allBlank_space htrimmed allBlank_nil
    rw [List.append_nil, List.singleton_append] at htrim
    rw [List.cons_append, htrim]
    have hmark := dropMark?_append (value ++ [' '])
    rw [trimEnd_append_blank allBlank_space, trimEnd_of_last h.last] at hmark
    simpa using hmark

/-! ## What reading leaves -/

/-- A declaration as it comes from a text: nothing is left to be cut off, neither from the property
nor from the value, and the property holds no colon. -/
structure Tidy (d : Declaration) : Prop where
  named : d.property ≠ ""
  property : Trimmed d.property.toList
  noColon : ':' ∉ d.property.toList
  value : Trimmed d.value.toList
  unmarked : d.important = false → dropMark? d.value.toList = none

theorem ofText_text_of_tidy {d : Declaration} (h : Tidy d) (l : Location) :
    ofText d.text l = .ok { d with source := l } := by
  obtain ⟨property, value, important, source⟩ := d
  obtain ⟨hnamed, hproperty, hcolon, hvalue, hunmarked⟩ := h
  dsimp only at hnamed hproperty hcolon hvalue hunmarked
  have hsplit : splitFirst? ':' (text ⟨property, value, important, source⟩) =
      some (property.toList,
        ' ' :: value.toList ++ if important then ' ' :: importantMark else []) :=
    splitFirst?_eq_some_iff.mpr ⟨by simp [text], hcolon⟩
  have hne : property.toList ≠ [] := by simpa using hnamed
  unfold ofText
  rw [hsplit]
  dsimp only
  rw [trim_eq_self hproperty, if_neg hne]
  cases important with
  | true =>
    rw [if_pos rfl, dropMark?_trim_value hvalue]
    simp
  | false =>
    have htrim := trim_between allBlank_space hvalue allBlank_nil
    rw [List.append_nil, List.singleton_append] at htrim
    rw [if_neg (by simp), List.append_nil, htrim, hunmarked rfl]
    simp

theorem ofText_text {d : Declaration} (hproperty : d.property ≠ "") (hplain : PlainValue d.property)
    (hcolon : ':' ∉ d.property.toList) (hvalue : PlainValue d.value) (l : Location) :
    ofText d.text l = .ok { d with source := l } :=
  ofText_text_of_tidy
    ⟨hproperty, hplain.trimmed, hcolon, hvalue.trimmed, fun _ => dropMark?_of_isPlain hvalue.chars⟩
    l

theorem trimmed_of_dropMark? {value rest : List Char} (hvalue : Trimmed value)
    (h : dropMark? value = some rest) : Trimmed rest := by
  unfold dropMark? at h
  dsimp only at h
  split at h
  · cases h
    apply trimmed_trimEnd
    intro c hc
    apply hvalue.head c
    rw [List.head?_take] at hc
    split at hc
    · cases hc
    · exact hc
  · cases h

/-- What is read from a text has nothing left to be cut off, and stands where the text does. -/
theorem tidy_of_ofText {text : List Char} {l : Location} {d : Declaration}
    (h : ofText text l = .ok d) : Tidy d ∧ d.source = l := by
  unfold ofText at h
  split at h
  · cases h
  · rename_i before behind hsplit
    dsimp only at h
    split at h
    · cases h
    · rename_i hne
      have hcolon : ':' ∉ trim before := fun hmem =>
        (splitFirst?_eq_some_iff.mp hsplit).2 (subset_of_trim before hmem)
      split at h
      · rename_i rest hmark
        cases h
        refine ⟨⟨by simpa using hne, ?_, ?_, ?_, by simp⟩, rfl⟩
        · rw [String.toList_ofList]
          exact trimmed_trim before
        · rwa [String.toList_ofList]
        · rw [String.toList_ofList]
          exact trimmed_of_dropMark? (trimmed_trim behind) hmark
      · rename_i hmark
        cases h
        refine ⟨⟨by simpa using hne, ?_, ?_, ?_, ?_⟩, rfl⟩
        · rw [String.toList_ofList]
          exact trimmed_trim before
        · rwa [String.toList_ofList]
        · rw [String.toList_ofList]
          exact trimmed_trim behind
        · rw [String.toList_ofList]
          exact fun _ => hmark

/-! ## The law -/

/-- A declaration that was read from any text at all is read again from the text that it is written
as, without the semicolon behind it. -/
theorem a_declaration_that_was_read_is_read_back (text : List Char) (l : Location)
    (d : Declaration) (h : ofText text l = .ok d) :
    ∃ written, d.render.toList = written ++ [';'] ∧ ofText written l = .ok d := by
  obtain ⟨htidy, hsource⟩ := tidy_of_ofText h
  have hagain := ofText_text_of_tidy htidy l
  rw [← hsource] at hagain ⊢
  exact ⟨d.text, toList_render d, hagain⟩

/-- Two marks, of which only the last one counts, behind further colons and a blank that is no
space. -/
theorem an_inner_mark_is_read_back :
    let text := " a: é:: !important\u00A0!ImPoRtAnT\u3000".toList
    let d : Declaration := ⟨"a", "é:: !important", true, ⟨3, 7⟩⟩
    ofText text ⟨3, 7⟩ = .ok d ∧
      ∃ written, d.render.toList = written ++ [';'] ∧ ofText written ⟨3, 7⟩ = .ok d := by
  intro text d
  have hread : ofText text ⟨3, 7⟩ = .ok d := by decide
  exact ⟨hread, a_declaration_that_was_read_is_read_back text ⟨3, 7⟩ d hread⟩

end Declaration

end ResponsiveCss
