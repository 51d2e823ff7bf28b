-- Values of any kind are passed over up to their end, however deep they are
-- nested: what a value is made of never moves the place behind it.
import Mathlib.Data.Bool.AllAny
import ResponsiveCss.Proofs.Json.Numerals
import ResponsiveCss.Proofs.Json.Strings

namespace ResponsiveCss.Json

variable {gap s rest : List Char}

/-! ## Gaps -/

theorem isBlank_of_mem_gap (h : Gap gap) : ∀ c ∈ gap, isBlank c = true := by
  intro c hc
  rcases h c hc with rfl | rfl | rfl | rfl <;> rfl

theorem skipBlanks_append (h : Gap gap) (s : List Char) : skipBlanks (gap ++ s) = skipBlanks s :=
  List.dropWhile_append_of_pos (isBlank_of_mem_gap h)

theorem skipBlanks_gap (h : Gap gap) : skipBlanks gap = [] := by
  rw [← List.append_nil gap, skipBlanks_append h]
  rfl

theorem skipBlanks_cons {c : Char} (hc : isBlank c = false) (s : List Char) :
    skipBlanks (c :: s) = c :: s := by
  unfold skipBlanks
  rw [List.dropWhile_cons, if_neg (by simp [hc])]

theorem colon_append {before : List Char} (hbefore : Gap before) (s : List Char) :
    colon (before ++ ':' :: s) = .ok s := by
  unfold colon
  rw [skipBlanks_append hbefore, skipBlanks_cons rfl]
  rfl

/-! ## Where numerals end -/

theorem stops_cons {c : Char} (hdigit : c.isDigit = false) (hpoint : c ≠ '.')
    (hexponent : c ≠ 'e' ∧ c ≠ 'E') (s : List Char) : Stops (c :: s) where
  noDigit := by
    intro d hd
    cases hd
    exact hdigit
  noPoint := by simpa using hpoint
  noExponent := by simpa using hexponent

theorem stops_append (h : Gap gap) (hs : Stops s) : Stops (gap ++ s) := by
  cases gap with
  | nil => exact hs
  | cons c gap =>
    rcases h c List.mem_cons_self with rfl | rfl | rfl | rfl <;>
      exact stops_cons rfl (by decide) (by decide) _

theorem stops_closer (c : Container) (s : List Char) : Stops (c.closer :: s) := by
  cases c <;> exact stops_cons rfl (by decide) (by decide) _

/-- Behind an entry there is a comma or the end of the container. -/
theorem stops_entries {entries : List (List Char)} (h : Entries false entries s) (c : Container)
    (rest : List Char) : Stops (s ++ c.closer :: rest) := by
  cases h with
  | done h => exact stops_append h (stops_closer c rest)
  | entry hlead hmore =>
    cases hlead with
    | later hbefore hbehind =>
      simp only [List.append_assoc, List.cons_append]
      exact stops_append hbefore (stops_cons rfl (by decide) (by decide) _)

/-! ## Scalars -/

theorem valueWords_cases (h : s ∈ valueWords) :
    s = "null".toList ∨ s = "true".toList ∨ s = "false".toList := by
  simpa only [valueWords, List.mem_cons, List.not_mem_nil, or_false] using h

theorem skipScalar_word (h : s ∈ valueWords) (rest : List Char) :
    skipScalar (s ++ rest) = .ok rest := by
  rcases valueWords_cases h with rfl | rfl | rfl <;> rfl

theorem skipScalar_string (h : IsString s) (rest : List Char) :
    skipScalar ('"' :: s ++ ['"'] ++ rest) = .ok rest := by
  rw [List.append_assoc, List.cons_append, List.singleton_append]
  exact skipString_append h rest

theorem exists_cons_of_numeral (h : IsNumeral s) :
    ∃ c more, s = c :: more ∧ c ∈ '-' :: decimalDigits := by
  obtain ⟨hminus, hwhole, -, -⟩ := h
  obtain ⟨c, more, rfl, hc⟩ := hwhole.toIsDigits.exists_cons
  rcases hminus with rfl | rfl
  · exact ⟨c, _, rfl, List.mem_cons_of_mem _ hc⟩
  · exact ⟨'-', _, rfl, List.mem_cons_self⟩

/-- What a numeral begins with is told from what other values begin with. -/
theorem numeral_head : ∀ c ∈ '-' :: decimalDigits,
    (c ≠ 'n' ∧ c ≠ 't' ∧ c ≠ 'f' ∧ c ≠ '"') ∧ (c = '-' || c.isDigit) = true ∧
      isBlank c = false ∧ c ≠ '[' ∧ c ≠ '\x7b' :=
  List.all_iff_forall_prop.mp (by decide)

theorem skipScalar_numeral (h : IsNumeral s) (hrest : Stops rest) :
    skipScalar (s ++ rest) = .ok rest := by
  obtain ⟨n, hn⟩ := read_append .invalidNumber h hrest
  obtain ⟨c, more, rfl, hc⟩ := exists_cons_of_numeral h
  obtain ⟨⟨hnull, htrue, hfalse, hquote⟩, hnumeral, -⟩ := numeral_head c hc
  rw [List.cons_append] at hn ⊢
  rw [skipScalar, if_neg hnull, if_neg htrue, if_neg hfalse, if_neg hquote, if_pos hnumeral, hn]
  rfl

/-! ## What entries begin with -/

/-- An entry may begin with this character: it is no blank, and it closes no container. -/
structure Begins (c : Char) : Prop where
  not_isBlank : isBlank c = false
  ne_closer : ∀ around : Container, c ≠ around.closer

instance (c : Char) : Decidable (Begins c) :=
  decidable_of_iff (isBlank c = false ∧ c ≠ Container.list.closer ∧ c ≠ Container.object.closer)
    ⟨fun ⟨hblank, hlist, hobject⟩ => ⟨hblank, fun | .list => hlist | .object => hobject⟩,
      fun h => ⟨h.not_isBlank, h.ne_closer .list, h.ne_closer .object⟩⟩

theorem head_of_value (h : IsValue s) : ∃ c more, s = c :: more ∧ Begins c := by
  cases h with
  | word h =>
    rcases valueWords_cases h with rfl | rfl | rfl <;> exact ⟨_, _, rfl, by decide⟩
  | numeral h =>
    have hbegins : ∀ c ∈ '-' :: decimalDigits, Begins c := List.all_iff_forall_prop.mp (by decide)
    obtain ⟨c, more, rfl, hc⟩ := exists_cons_of_numeral h
    exact ⟨c, more, rfl, hbegins c hc⟩
  | string h => exact ⟨'"', _, rfl, by decide⟩
  | @container c entries s hlabels hvalues h =>
    refine ⟨c.opener, _, rfl, ?_⟩
    cases c <;> decide

theorem head_of_entry {c : Container} {label value : List Char} (hlabel : Label c label)
    (hvalue : IsValue value) : ∃ d more, label ++ value = d :: more ∧ Begins d := by
  cases hlabel with
  | list => exact head_of_value hvalue
  | object => exact ⟨'"', _, rfl, by decide⟩

/-! ## One step on the way to the end of a value -/

section

variable {c : Container} {around : List Container}

theorem skipWithin_scalar {d : Char} (hd : isBlank d = false) (hlist : d ≠ '[')
    (hobject : d ≠ '\x7b') (h : skipScalar (d :: s) = .ok rest) :
    skipWithin .value around (d :: s) = skipWithin .separator around rest := by
  rw [skipWithin, skipBlanks_cons hd]
  dsimp only
  rw [if_neg hlist, if_neg hobject, h]

theorem skipWithin_opener :
    skipWithin .value around (c.opener :: s) = skipWithin .first (c :: around) s := by
  cases c with
  | list =>
    conv => lhs; rw [skipWithin, skipBlanks_cons rfl]
    rfl
  | object =>
    conv => lhs; rw [skipWithin, skipBlanks_cons rfl]
    rfl

/-- What is expected where the first entry of a container may be, or a later one. -/
def Expected.next (first : Bool) : Expected := if first then .first else .separator

theorem skipWithin_closer (first : Bool) (hgap : Gap gap) :
    skipWithin (.next first) (c :: around) (gap ++ c.closer :: s) =
      skipWithin .separator around s := by
  have hs : skipBlanks (gap ++ c.closer :: s) = c.closer :: s := by
    rw [skipBlanks_append hgap]
    cases c <;> rfl
  cases first with
  | true =>
    change skipWithin .first _ _ = _
    conv => lhs; rw [skipWithin, hs]
    exact if_pos rfl
  | false =>
    have hcomma : c.closer ≠ ',' := by cases c <;> decide
    change skipWithin .separator _ _ = _
    conv => lhs; rw [skipWithin, hs]
    dsimp only
    rw [if_neg hcomma, if_pos rfl]

theorem skipWithin_gap (c : Container) (hgap : Gap gap) :
    skipWithin c.entry around (gap ++ s) = skipWithin c.entry around s := by
  cases c with
  | list =>
    change skipWithin .value _ _ = skipWithin .value _ _
    rw [skipWithin, skipBlanks_append hgap, skipWithin]
  | object =>
    change skipWithin .key _ _ = skipWithin .key _ _
    rw [skipWithin, skipBlanks_append hgap, skipWithin]

/-- In front of an entry nothing but its lead is passed over. -/
theorem skipWithin_lead {first : Bool} {lead : List Char} {d : Char} (hlead : Lead first lead)
    (hd : Begins d) :
    skipWithin (.next first) (c :: around) (lead ++ d :: s) =
      skipWithin c.entry (c :: around) (d :: s) := by
  cases hlead with
  | first hgap =>
    change skipWithin .first _ _ = _
    conv => lhs; rw [skipWithin, skipBlanks_append hgap, skipBlanks_cons hd.not_isBlank]
    exact if_neg (hd.ne_closer c)
  | later hbefore hbehind =>
    rw [List.append_assoc, List.cons_append, ← skipWithin_gap c hbehind]
    change skipWithin .separator _ _ = _
    conv => lhs; rw [skipWithin, skipBlanks_append hbefore, skipBlanks_cons rfl]
    exact if_pos rfl

theorem skipWithin_label {label : List Char} (h : Label c label) :
    skipWithin c.entry around (label ++ s) = skipWithin .value around s := by
  cases h with
  | list => rfl
  | @object key before behind hkey hbefore hbehind =>
    have hstring := skipString_append hkey (before ++ ':' :: (behind ++ s))
    have hcolon := colon_append hbefore (behind ++ s)
    simp only [List.append_assoc, List.cons_append]
    change skipWithin .key _ _ = _
    rw [skipWithin, skipBlanks_cons rfl]
    dsimp only
    rw [if_pos rfl, hstring]
    dsimp only
    rw [hcolon]
    exact skipWithin_gap .list hbehind

end

/-! ## Values -/

/-- Wherever this value stands, just the value is passed over. -/
def PassedOver (value : List Char) : Prop :=
  ∀ (around : List Container) {rest : List Char}, Stops rest →
    skipWithin .value around (value ++ rest) = skipWithin .separator around rest

/-- The run inside a container: its entries are passed over one by one, and then its end. -/
theorem skipWithin_entries {c : Container} {around : List Container}
    {entries : List (List Char × List Char)} {first : Bool}
    (hlabels : ∀ e ∈ entries, Label c e.1) (hvalues : ∀ e ∈ entries, IsValue e.2)
    (hpassed : ∀ e ∈ entries, PassedOver e.2)
    (h : Entries first (entries.map fun e => e.1 ++ e.2) s) (rest : List Char) :
    skipWithin (.next first) (c :: around) (s ++ c.closer :: rest) =
      skipWithin .separator around rest := by
  induction entries generalizing first s with
  | nil =>
    cases h with
    | done hgap => exact skipWithin_closer first hgap
  | cons e entries ih =>
    obtain ⟨hlabel, hlabels⟩ := List.forall_mem_cons.mp hlabels
    obtain ⟨hvalue, hvalues⟩ := List.forall_mem_cons.mp hvalues
    obtain ⟨hpassed, hmore⟩ := List.forall_mem_cons.mp hpassed
    cases h with
    | @entry _ lead _ s _ hlead hrest =>
      obtain ⟨d, more, hentry, hd⟩ := head_of_entry hlabel hvalue
      have hstart : skipWithin (.next first) (c :: around)
            (lead ++ d :: (more ++ (s ++ c.closer :: rest))) =
          skipWithin c.entry (c :: around) (d :: (more ++ (s ++ c.closer :: rest))) :=
        skipWithin_lead hlead hd
      rw [← List.cons_append, ← hentry] at hstart
      calc skipWithin (.next first) (c :: around) (lead ++ (e.1 ++ e.2) ++ s ++ c.closer :: rest)
        _ = skipWithin c.entry (c :: around) (e.1 ++ (e.2 ++ (s ++ c.closer :: rest))) := by
          simpa only [List.append_assoc] using hstart
        _ = skipWithin .value (c :: around) (e.2 ++ (s ++ c.closer :: rest)) :=
          skipWithin_label hlabel
        _ = skipWithin .separator (c :: around) (s ++ c.closer :: rest) :=
          hpassed _ (stops_entries hrest c rest)
        _ = skipWithin .separator around rest := ih hlabels hvalues hmore hrest

/-- By induction on the value: the containers around it stay as they are. -/
theorem passedOver_of_isValue {value : List Char} (h : IsValue value) : PassedOver value := by
  induction h with
  | word h =>
    intro around rest _
    have hscalar := skipScalar_word h rest
    rcases valueWords_cases h with rfl | rfl | rfl <;>
      exact skipWithin_scalar rfl (by decide) (by decide) hscalar
  | numeral h =>
    intro around rest hrest
    have hscalar := skipScalar_numeral h hrest
    obtain ⟨c, more, rfl, hc⟩ := exists_cons_of_numeral h
    obtain ⟨-, -, hblank, hlist, hobject⟩ := numeral_head c hc
    exact skipWithin_scalar hblank hlist hobject hscalar
  | string h =>
    intro around rest _
    exact skipWithin_scalar rfl (by decide) (by decide) (skipScalar_string h rest)
  | @container c entries s hlabels hvalues h ih =>
    intro around rest _
    rw [List.append_assoc, List.cons_append, skipWithin_opener, List.singleton_append]
    exact skipWithin_entries hlabels hvalues ih h rest

/-- A value is passed over and nothing else. -/
theorem skipValue_append {value : List Char} (h : IsValue value) (hrest : Stops rest) :
    skipValue (value ++ rest) = .ok rest := by
  unfold skipValue
  rw [passedOver_of_isValue h [] hrest, skipWithin]

end ResponsiveCss.Json
