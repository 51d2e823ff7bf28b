-- Breakpoints: named media queries in the order of their configuration. No
-- two have the same name; naming one again replaces its query in place.
import ResponsiveCss.Diagnostic
import ResponsiveCss.Text.Basic

namespace ResponsiveCss

/-- A media query under a name, which the renamed selectors get as their suffix. -/
structure Breakpoint where
  name : String
  query : String
deriving DecidableEq, Repr

namespace Breakpoint

/-! ## Reading a pair -/

/-- The breakpoint that `NAME=QUERY` stands for. The first `=` ends the name; neither part
may be blank, and both are trimmed. -/
def ofPair (pair : String) : Except OptionsError Breakpoint :=
  match Text.splitFirst? '=' pair.toList with
  | some (before, behind) =>
    let name := Text.trim before
    let query := Text.trim behind
    if name = [] || query = [] then .error (refusal pair)
    else .ok ⟨String.ofList name, String.ofList query⟩
  | none => .error (refusal pair)
where
  refusal (pair : String) : OptionsError :=
    .malformed ("expected NAME=QUERY, got \"" ++ pair ++ "\"")

/-! ## One list of breakpoints -/

/-- The list with this breakpoint: in the place of the one with its name, or at the end. -/
def put (b : Breakpoint) : List Breakpoint → List Breakpoint
  | [] => [b]
  | c :: more => if c.name = b.name then b :: more else c :: put b more

theorem map_name_put (b : Breakpoint) (l : List Breakpoint) :
    (put b l).map (·.name) =
      if b.name ∈ l.map (·.name) then l.map (·.name) else l.map (·.name) ++ [b.name] := by
  induction l with
  | nil => simp [put]
  | cons c more ih =>
    unfold put
    by_cases h : c.name = b.name
    · simp [h]
    · have h' : ¬ b.name = c.name := fun e => h e.symm
      rw [if_neg h, List.map_cons, ih]
      simp only [List.map_cons, List.mem_cons, h', false_or]
      split <;> simp

theorem nodup_put (b : Breakpoint) {l : List Breakpoint} (h : (l.map (·.name)).Nodup) :
    ((put b l).map (·.name)).Nodup := by
  rw [map_name_put]
  split
  · exact h
  · rename_i hb
    rw [List.nodup_append]
    refine ⟨h, by simp, ?_⟩
    intro x hx y hy hxy
    rw [List.mem_singleton] at hy
    subst hy hxy
    exact hb hx

end Breakpoint

/-- Breakpoints with distinct names, in order. -/
structure Breakpoints where
  toList : List Breakpoint
  nodup : (toList.map (·.name)).Nodup
deriving Repr

namespace Breakpoints

instance : DecidableEq Breakpoints := fun a b =>
  decidable_of_iff (a.toList = b.toList)
    ⟨fun h => by cases a; cases b; cases h; rfl, fun h => h ▸ rfl⟩

/-- No breakpoints. -/
def empty : Breakpoints := ⟨[], List.nodup_nil⟩

instance : Inhabited Breakpoints := ⟨empty⟩

/-- A breakpoint at the end, or in the place of the one with its name. -/
def insert (bs : Breakpoints) (b : Breakpoint) : Breakpoints :=
  ⟨b.put bs.toList, b.nodup_put bs.nodup⟩

/-- The breakpoints inserted one after the other. -/
def insertAll (bs : Breakpoints) (l : List Breakpoint) : Breakpoints := l.foldl insert bs

/-- The breakpoints of a list; of those with one name, the last gives the query and the first
the place. -/
def ofList (l : List Breakpoint) : Breakpoints := empty.insertAll l

@[simp] theorem toList_insert (bs : Breakpoints) (b : Breakpoint) :
    (bs.insert b).toList = b.put bs.toList := rfl

end Breakpoints

end ResponsiveCss
