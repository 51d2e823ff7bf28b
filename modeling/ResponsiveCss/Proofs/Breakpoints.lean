-- What breakpoints hold, in whatever way they were built: each name once, where
-- it came first, with the query that came last. The invariant `Reflects` ties a
-- list of breakpoints to the pairs that were fed; one insertion keeps it, and so
-- does every way to build.
import ResponsiveCss.CommandLine.Run

namespace ResponsiveCss

namespace Breakpoint

/-! ## One insertion -/

theorem mem_put {b c : Breakpoint} {l : List Breakpoint} (h : (l.map (·.name)).Nodup) :
    c ∈ put b l ↔ c = b ∨ (c ∈ l ∧ c.name ≠ b.name) := by
  induction l with
  | nil => simp [put]
  | cons d more ih =>
    rw [List.map_cons, List.nodup_cons] at h
    unfold put
    by_cases hd : d.name = b.name
    · -- The breakpoint with this name is replaced, and no other one has it.
      have hmore : ∀ c ∈ more, c.name ≠ b.name := by
        intro c hc hname
        apply h.1
        rw [hd, ← hname]
        exact List.mem_map_of_mem hc
      rw [if_pos hd, List.mem_cons, List.mem_cons]
      constructor
      · rintro (hc | hc)
        · exact Or.inl hc
        · exact Or.inr ⟨Or.inr hc, hmore c hc⟩
      · rintro (hc | ⟨rfl | hc, hname⟩)
        · exact Or.inl hc
        · exact absurd hd hname
        · exact Or.inr hc
    · rw [if_neg hd, List.mem_cons, ih h.2, List.mem_cons]
      constructor
      · rintro (rfl | hc | ⟨hc, hname⟩)
        · exact Or.inr ⟨Or.inl rfl, hd⟩
        · exact Or.inl hc
        · exact Or.inr ⟨Or.inr hc, hname⟩
      · rintro (hc | ⟨rfl | hc, hname⟩)
        · exact Or.inr (Or.inl hc)
        · exact Or.inl rfl
        · exact Or.inr (Or.inr ⟨hc, hname⟩)

/-- A new name comes to the end. -/
theorem put_of_not_mem {b : Breakpoint} {l : List Breakpoint} (h : b.name ∉ l.map (·.name)) :
    put b l = l ++ [b] := by
  induction l with
  | nil => rfl
  | cons c more ih =>
    rw [List.map_cons, List.mem_cons, not_or] at h
    unfold put
    rw [if_neg fun hc => h.1 hc.symm, ih h.2, List.cons_append]

/-! ## The invariant -/

/-- The breakpoints have the names of the pairs that were fed, in the order in which these came
first, and each is the last pair with its name. -/
structure Reflects (bs fed : List Breakpoint) : Prop where
  names : ∀ name, name ∈ bs.map (·.name) ↔ name ∈ fed.map (·.name)
  order : (bs.map (·.name)).Pairwise fun m n =>
    (fed.map (·.name)).idxOf m < (fed.map (·.name)).idxOf n
  last : ∀ b ∈ bs, (fed.filter (·.name == b.name)).getLast? = some b

theorem reflects_nil : Reflects [] [] := ⟨by simp, by simp, by simp⟩

/-- What came first stays first when another pair is fed. -/
theorem order_append {names fed : List String} (name : String) (hmem : ∀ n ∈ names, n ∈ fed)
    (h : names.Pairwise fun m n => fed.idxOf m < fed.idxOf n) :
    names.Pairwise fun m n => (fed ++ [name]).idxOf m < (fed ++ [name]).idxOf n := by
  refine h.imp_of_mem ?_
  intro m n hm hn hlt
  rwa [List.idxOf_append, List.idxOf_append, if_pos (hmem m hm), if_pos (hmem n hn)]

/-- The step: one more pair is fed. -/
theorem Reflects.put {bs fed : List Breakpoint} (h : Reflects bs fed)
    (hnodup : (bs.map (·.name)).Nodup) (b : Breakpoint) : Reflects (b.put bs) (fed ++ [b]) where
  names name := by
    rw [map_name_put, List.map_append, List.mem_append, ← h.names]
    split
    · rename_i hb
      constructor
      · exact Or.inl
      · rintro (hn | hn)
        · exact hn
        · rw [List.map_singleton, List.mem_singleton] at hn
          exact hn ▸ hb
    · rw [List.mem_append, List.map_singleton]
  order := by
    have hmem : ∀ n ∈ bs.map (·.name), n ∈ fed.map (·.name) := fun n => (h.names n).mp
    have hold := order_append b.name hmem h.order
    rw [map_name_put, List.map_append, List.map_singleton]
    split
    · exact hold
    · rename_i hb
      rw [List.pairwise_append]
      refine ⟨hold, List.pairwise_singleton _ _, ?_⟩
      intro m hm n hn
      rw [List.mem_singleton] at hn
      subst hn
      have hm' := hmem m hm
      have hb' : b.name ∉ fed.map (·.name) := fun hn => hb ((h.names _).mpr hn)
      have hlt := List.idxOf_lt_length_of_mem hm'
      rw [List.idxOf_append, List.idxOf_append, if_pos hm', if_neg hb']
      omega
  last c hc := by
    rw [List.filter_append, List.getLast?_append]
    rcases (mem_put hnodup).mp hc with rfl | ⟨hc, hname⟩
    · simp
    · have hother : (b.name == c.name) = false := by simpa using hname.symm
      simp [hother, h.last c hc]

end Breakpoint

namespace Breakpoints

open Breakpoint

theorem eq_of_toList {bs cs : Breakpoints} (h : bs.toList = cs.toList) : bs = cs := by
  cases bs
  cases cs
  cases h
  rfl

/-! ## Many insertions -/

theorem insertAll_append (bs : Breakpoints) (l more : List Breakpoint) :
    bs.insertAll (l ++ more) = (bs.insertAll l).insertAll more := List.foldl_append

/-- The run: whatever is inserted, the breakpoints reflect all that was fed so far. -/
theorem reflects_insertAll {bs : Breakpoints} {fed : List Breakpoint} (h : Reflects bs.toList fed)
    (l : List Breakpoint) : Reflects (bs.insertAll l).toList (fed ++ l) := by
  induction l generalizing bs fed with
  | nil => simpa [insertAll] using h
  | cons b more ih =>
    have hb : Reflects (bs.insert b).toList (fed ++ [b]) := h.put bs.nodup b
    rw [List.append_cons]
    exact ih hb

/-- Breakpoints with names of their own come to the end as they are. -/
theorem toList_insertAll_of_nodup {bs : Breakpoints} {l : List Breakpoint}
    (h : ((bs.toList ++ l).map (·.name)).Nodup) : (bs.insertAll l).toList = bs.toList ++ l := by
  induction l generalizing bs with
  | nil => simp [insertAll]
  | cons b more ih =>
    have hb : (bs.insert b).toList = bs.toList ++ [b] := by
      rw [toList_insert, put_of_not_mem]
      intro hmem
      rw [List.map_append, List.nodup_append] at h
      exact h.2.2 b.name hmem b.name (by simp) rfl
    have hmore : ((bs.insert b).insertAll more).toList = (bs.insert b).toList ++ more :=
      ih (by rwa [hb, ← List.append_cons])
    rw [hb, ← List.append_cons] at hmore
    exact hmore

/-- Breakpoints listed and put together again are the same. -/
theorem ofList_toList (bs : Breakpoints) : ofList bs.toList = bs := by
  have hlist : (empty.insertAll bs.toList).toList = empty.toList ++ bs.toList :=
    toList_insertAll_of_nodup bs.nodup
  exact eq_of_toList hlist

/-! ## Ways to build -/

/-- Ways to build breakpoints, with all the pairs that they were fed, in order: none at all, one
more, a whole list, the members of an object of options, and pairs from a command line on top
of options. -/
inductive Built : List Breakpoint → Breakpoints → Prop
  | new : Built [] empty
  | insert {fed : List Breakpoint} {bs : Breakpoints} (h : Built fed bs) (b : Breakpoint) :
      Built (fed ++ [b]) (bs.insert b)
  | collect (l : List Breakpoint) : Built l (ofList l)
  | read {s object rest : List Char} {l : List Breakpoint} {bs : Breakpoints}
      (hobject : Json.skipBlanks s = '\x7b' :: object)
      (hpairs : Options.pairs true object = .ok (l, rest))
      (hread : Options.breakpointsValue s = .ok (some bs, rest)) : Built l bs
  | add {fed added : List Breakpoint} {o o' : Options} {pairs : List String} {bs : Breakpoints}
      (h : Built fed (o.breakpoints.getD empty)) (hpairs : pairs.mapM ofPair = .ok added)
      (hadd : CommandLine.withPairs o pairs = .ok o') (hbs : o'.breakpoints = some bs) :
      Built (fed ++ added) bs

theorem breakpointsValue_of_object {s object : List Char}
    (h : Json.skipBlanks s = '\x7b' :: object) :
    Options.breakpointsValue s =
      (Options.pairs true object).map fun (l, rest) => (some (ofList l), rest) := by
  simp [Options.breakpointsValue, h]

theorem eq_insertAll_of_withPairs {o o' : Options} {pairs : List String}
    {added : List Breakpoint} {bs : Breakpoints} (hpairs : pairs.mapM ofPair = .ok added)
    (hadd : CommandLine.withPairs o pairs = .ok o') (hbs : o'.breakpoints = some bs) :
    bs = (o.breakpoints.getD empty).insertAll added := by
  unfold CommandLine.withPairs at hadd
  cases pairs with
  | nil =>
    cases hpairs
    cases hadd
    rw [hbs]
    rfl
  | cons pair more =>
    rw [hpairs] at hadd
    cases hadd
    cases hbs
    rfl

/-- In whatever way breakpoints are built, it comes to inserting all pairs in order. -/
theorem Built.eq_ofList {fed : List Breakpoint} {bs : Breakpoints} (h : Built fed bs) :
    bs = ofList fed := by
  induction h with
  | new => rfl
  | insert h b ih => rw [ofList, insertAll_append, ← ofList, ← ih]; rfl
  | collect l => rfl
  | read hobject hpairs hread =>
    rw [breakpointsValue_of_object hobject, hpairs] at hread
    cases hread
    rfl
  | add h hpairs hadd hbs ih =>
    rw [eq_insertAll_of_withPairs hpairs hadd hbs, ih, ofList, ofList, ← insertAll_append]

/-! ## The law -/

/-- In whatever way breakpoints are built, they hold the names that they were fed, each once and
in the order in which the names came first, each with the query that came last with its name;
and the list of them builds the same breakpoints again. -/
theorem breakpoints_keep_the_first_place_and_the_last_query (fed : List Breakpoint)
    (bs : Breakpoints) (h : Built fed bs) :
    (bs.toList.map (·.name)).Nodup ∧
    (∀ name, name ∈ bs.toList.map (·.name) ↔ name ∈ fed.map (·.name)) ∧
    ((bs.toList.map (·.name)).Pairwise fun m n =>
      (fed.map (·.name)).idxOf m < (fed.map (·.name)).idxOf n) ∧
    (∀ b ∈ bs.toList, (fed.filter (·.name == b.name)).getLast? = some b) ∧
    ofList bs.toList = bs := by
  have hreflects : Reflects (ofList fed).toList ([] ++ fed) :=
    reflects_insertAll reflects_nil fed
  rw [← h.eq_ofList, List.nil_append] at hreflects
  refine ⟨?_, hreflects.names, hreflects.order, hreflects.last, ofList_toList bs⟩
  exact hreflects.order.imp fun hlt heq => by
    rw [heq] at hlt
    exact Nat.lt_irrefl _ hlt

/-- A member of an object comes twice, one insertion gives a new name, and the pairs of a command
line change two queries and add a name. -/
theorem four_names_are_fed_by_seven_pairs :
    let listed : List Breakpoint := [⟨"m", "(a)"⟩, ⟨"d", "(b)"⟩, ⟨"m", "(c)"⟩]
    let added : List Breakpoint := [⟨"d", "print"⟩, ⟨"w", "(e)=2"⟩, ⟨"m", "(f)"⟩]
    let fed := listed ++ [⟨"t", "(d)"⟩] ++ added
    let bs := ((ofList listed).insert ⟨"t", "(d)"⟩).insertAll added
    Built fed bs ∧
      bs.toList = [⟨"m", "(f)"⟩, ⟨"d", "print"⟩, ⟨"t", "(d)"⟩, ⟨"w", "(e)=2"⟩] ∧
      (∀ b ∈ bs.toList, (fed.filter (·.name == b.name)).getLast? = some b) ∧
      ofList bs.toList = bs := by
  intro listed added fed bs
  have hobject : Json.skipBlanks "\x7b\"m\": \"(a)\", \"d\": \"(b)\", \"m\": \"(c)\" \x7d".toList =
      '\x7b' :: "\"m\": \"(a)\", \"d\": \"(b)\", \"m\": \"(c)\" \x7d".toList := by rfl
  have hpairs : Options.pairs true "\"m\": \"(a)\", \"d\": \"(b)\", \"m\": \"(c)\" \x7d".toList =
      .ok ([⟨"m", "(a)"⟩, ⟨"d", "(b)"⟩, ⟨"m", "(c)"⟩], []) := by
    with_unfolding_all rfl
  have hread : Built listed (ofList listed) :=
    .read hobject hpairs (by rw [breakpointsValue_of_object hobject, hpairs]; rfl)
  have hadd : ["d=print", " w = (e)=2 ", "m=(f)"].mapM ofPair = .ok added := by rfl
  have hbuilt : Built fed bs :=
    .add (o := ⟨some _⟩) (hread.insert ⟨"t", "(d)"⟩) hadd
      (by simp only [CommandLine.withPairs, hadd]; rfl) rfl
  obtain ⟨-, -, -, hlast, hagain⟩ :=
    breakpoints_keep_the_first_place_and_the_last_query fed bs hbuilt
  exact ⟨hbuilt, by decide +kernel, hlast, hagain⟩

end Breakpoints

end ResponsiveCss
