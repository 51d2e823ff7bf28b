-- Options from a JSON text: an object of which only the member `breakpoints`
-- is read, or a list whose only entry stands for it. Breakpoints are an object
-- from names to media queries, in the order of the text.
import ResponsiveCss.Breakpoints
import ResponsiveCss.Json.Found
import ResponsiveCss.Json.Member

namespace ResponsiveCss

/-- The options of an expansion. -/
structure Options where
  breakpoints : Option Breakpoints
deriving DecidableEq, Repr

namespace Options

open Json

/-- No options are given. -/
def unset : Options := ⟨none⟩

/-! ## Breakpoints -/

/-- A media query. -/
def query (s : List Char) : Except Failure (List Char × List Char) :=
  match skipBlanks s with
  | [] => .error (.atEnd .endInValue)
  | c :: rest => if c = '"' then string rest else .error (unexpected "a string" (c :: rest))

theorem length_lt_of_query {s text rest : List Char} (h : query s = .ok (text, rest)) :
    rest.length < s.length := by
  unfold query at h
  split at h
  · cases h
  · rename_i hs
    split at h
    · exact Nat.lt_trans (length_lt_of_string h) (length_lt_of_skipBlanks hs)
    · cases h

/-- The breakpoints of an object, from its first member or from a later one on. -/
def pairs (first : Bool) (s : List Char) : Except Failure (List Breakpoint × List Char) :=
  match _h : nextMember first s with
  | .error f => .error f
  | .ok (.closed rest) => .ok ([], rest)
  | .ok (.key name s1) =>
    match _h1 : colon s1 with
    | .error f => .error f
    | .ok s2 =>
      match _h2 : query s2 with
      | .error f => .error f
      | .ok (text, s3) =>
        (pairs false s3).map fun (more, rest) =>
          (⟨String.ofList name, String.ofList text⟩ :: more, rest)
termination_by s.length
decreasing_by
  have : s1.length < s.length := length_lt_of_nextMember _h
  have := length_lt_of_colon _h1
  have := length_lt_of_query _h2
  omega

theorem length_lt_of_pairs {first : Bool} {s rest : List Char} {l : List Breakpoint}
    (h : pairs first s = .ok (l, rest)) : rest.length < s.length := by
  fun_induction pairs first s generalizing l rest with
  | case1 => cases h
  | case2 first s t ht =>
    cases h
    exact length_lt_of_nextMember ht
  | case3 => cases h
  | case4 => cases h
  | case5 first s name s1 hs s2 hs1 text s3 hs2 ih =>
    cases hp : pairs false s3 with
    | error f => simp [hp, Except.map] at h
    | ok p =>
      simp only [hp, Except.map, Except.ok.injEq, Prod.mk.injEq] at h
      have h1 : s1.length < s.length := length_lt_of_nextMember hs
      have h2 := length_lt_of_colon hs1
      have h3 := length_lt_of_query hs2
      have h4 : p.2.length < s3.length := ih hp
      rw [h.2] at h4
      omega

/-- The value of `breakpoints`: an object, or `null` for none. -/
def breakpointsValue (s : List Char) : Except Failure (Option Breakpoints × List Char) :=
  match skipBlanks s with
  | [] => .error (.atEnd .endInValue)
  | c :: rest =>
    if c = 'n' then (word ['u', 'l', 'l'] rest).map fun rest => (none, rest)
    else if c = '\x7b' then
      (pairs true rest).map fun (list, rest) => (some (Breakpoints.ofList list), rest)
    else .error (unexpected "a map of breakpoint names to media queries" (c :: rest))

theorem length_lt_of_breakpointsValue {s rest : List Char} {b : Option Breakpoints}
    (h : breakpointsValue s = .ok (b, rest)) : rest.length < s.length := by
  unfold breakpointsValue at h
  split at h
  · cases h
  · rename_i c t hs
    have ht := length_lt_of_skipBlanks hs
    split at h
    · cases hw : word ['u', 'l', 'l'] t with
      | error f => simp [hw, Except.map] at h
      | ok u =>
        simp only [hw, Except.map, Except.ok.injEq, Prod.mk.injEq] at h
        have := length_le_of_word hw
        rw [h.2] at this
        omega
    · split at h
      · cases hp : pairs true t with
        | error f => simp [hp, Except.map] at h
        | ok p =>
          simp only [hp, Except.map, Except.ok.injEq, Prod.mk.injEq] at h
          have : p.2.length < t.length := length_lt_of_pairs hp
          rw [h.2] at this
          omega
      · cases h

/-! ## The options as a whole -/

/-- The name of the only member that is read. -/
def breakpointsKey : List Char := "breakpoints".toList

/-- The failure of an object with a second member `breakpoints`, whose key the rest follows. A
closing brace right behind that key still counts as read. -/
def duplicate (rest : List Char) : Failure :=
  .before (.duplicateField (String.ofList breakpointsKey))
    (match skipBlanks rest with
      | [] => []
      | c :: more => if c = '\x7d' then more else c :: more)

/-- The options of an object, from its first member or from a later one on, where `found` is
the value of `breakpoints` if it came already. -/
def members (first : Bool) (found : Option (Option Breakpoints)) (s : List Char) :
    Except Failure (Options × List Char) :=
  match _h : nextMember first s with
  | .error f => .error f
  | .ok (.closed rest) => .ok (⟨found.getD none⟩, rest)
  | .ok (.key name s1) =>
    if name = breakpointsKey then
      if found.isSome then .error (duplicate s1)
      else
        match _h1 : colon s1 with
        | .error f => .error f
        | .ok s2 =>
          match _h2 : breakpointsValue s2 with
          | .error f => .error f
          | .ok (value, s3) => members false (some value) s3
    else
      match _h1 : colon s1 with
      | .error f => .error f
      | .ok s2 =>
        match _h2 : skipValue s2 with
        | .error f => .error f
        | .ok s3 => members false found s3
termination_by s.length
decreasing_by
  · have : s1.length < s.length := length_lt_of_nextMember _h
    have := length_lt_of_colon _h1
    have := length_lt_of_breakpointsValue _h2
    omega
  · have : s1.length < s.length := length_lt_of_nextMember _h
    have := length_lt_of_colon _h1
    have := length_le_of_skipValue _h2
    omega

/-- The end of a list behind its only entry. -/
def listEnd (s : List Char) : Except Failure (List Char) :=
  match skipBlanks s with
  | [] => .error (.atEnd .endInList)
  | c :: rest =>
    if c = ']' then .ok rest
    else if c = ',' then
      match skipBlanks rest with
      | [] => .error (.atEnd .trailingCharacters)
      | d :: rest =>
        .error (.next (if d = ']' then .trailingComma else .trailingCharacters) (d :: rest))
    else .error (.next .trailingCharacters (c :: rest))

/-- The options of a list: its only entry is the value of `breakpoints`. -/
def entries (s : List Char) : Except Failure (Options × List Char) :=
  match skipBlanks s with
  | [] => .error (.atEnd .endInList)
  | c :: rest =>
    if c = ']' then .ok (unset, rest)
    else
      match breakpointsValue (c :: rest) with
      | .error f => .error f
      | .ok (value, s1) => (listEnd s1).map fun rest => (⟨value⟩, rest)

/-- The options that a text begins with, and the text behind them. -/
def read (s : List Char) : Except Failure (Options × List Char) :=
  match skipBlanks s with
  | [] => .error (.atEnd .endInValue)
  | c :: rest =>
    if c = '\x7b' then members true none rest
    else if c = '[' then entries rest
    else .error (unexpected "struct Options" (c :: rest))

/-- The options that a whole text spells. -/
def readAll (s : List Char) : Except Failure Options :=
  match read s with
  | .error f => .error f
  | .ok (options, rest) =>
    match skipBlanks rest with
    | [] => .ok options
    | c :: more => .error (.next .trailingCharacters (c :: more))

/-- The options of a JSON text. -/
def ofJson (text : String) : Except OptionsError Options :=
  match readAll text.toList with
  | .ok options => .ok options
  | .error f => .error (.malformed (f.message text.toList))

end Options

end ResponsiveCss
