-- The members of a JSON object one at a time.
import ResponsiveCss.Json.Skip

namespace ResponsiveCss.Json

/-- What comes next in an object, with the text behind it. -/
inductive NextMember where
  /-- The closing brace. -/
  | closed (rest : List Char)
  /-- The key of a member. -/
  | key (name rest : List Char)
deriving DecidableEq, Repr

/-- A key behind its opening quote. -/
def key (s : List Char) : Except Failure NextMember :=
  (string s).map fun (name, rest) => .key name rest

/-- What comes next in an object. All members but the first follow a comma. -/
def nextMember (first : Bool) (s : List Char) : Except Failure NextMember :=
  match skipBlanks s with
  | [] => .error (.atEnd .endInObject)
  | c :: rest =>
    if c = '\x7d' then .ok (.closed rest)
    else if first then
      if c = '"' then key rest else .error (.next .keyMustBeString (c :: rest))
    else if c = ',' then
      match skipBlanks rest with
      | [] => .error (.atEnd .endInValue)
      | d :: rest =>
        if d = '"' then key rest
        else if d = '\x7d' then .error (.next .trailingComma (d :: rest))
        else .error (.next .keyMustBeString (d :: rest))
    else .error (.next .expectedCommaOrBrace (c :: rest))

/-! ## What is left is shorter -/

/-- The text behind what comes next. -/
def NextMember.rest : NextMember → List Char
  | .closed rest => rest
  | .key _ rest => rest

theorem length_lt_of_key {s : List Char} {m : NextMember} (h : key s = .ok m) :
    m.rest.length < s.length := by
  unfold key at h
  cases hs : string s with
  | error f => simp [hs, Except.map] at h
  | ok p =>
    simp only [hs, Except.map, Except.ok.injEq] at h
    subst h
    exact length_lt_of_string hs

theorem length_lt_of_nextMember {first : Bool} {s : List Char} {m : NextMember}
    (h : nextMember first s = .ok m) : m.rest.length < s.length := by
  unfold nextMember at h
  split at h
  · cases h
  · rename_i c rest hs
    have hrest := length_lt_of_skipBlanks hs
    split at h
    · cases h
      exact hrest
    · split at h
      · split at h
        · exact Nat.lt_trans (length_lt_of_key h) hrest
        · cases h
      · split at h
        · split at h
          · cases h
          · rename_i d rest' hd
            split at h
            · exact Nat.lt_trans
                (Nat.lt_trans (length_lt_of_key h) (length_lt_of_skipBlanks hd)) hrest
            · split at h <;> cases h
        · cases h

end ResponsiveCss.Json
