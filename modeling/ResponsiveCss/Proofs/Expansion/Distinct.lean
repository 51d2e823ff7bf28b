-- The variants of one rule. A name only comes in behind stretches of the
-- selector that do not depend on it, and behind one at least. So the variants
-- under two names differ, and each is longer than the selector it is made from.
import ResponsiveCss.Proofs.Expansion.Incremental
import ResponsiveCss.Proofs.Expansion.Suffixed

namespace ResponsiveCss

open Text Expansion

namespace Expansion

/-! ## Marked stretches -/

/-- The stretches with a suffix behind each, and behind them the rest. -/
def marked (suffix : List Char) (stretches : List (List Char)) (rest : List Char) : List Char :=
  stretches.flatMap (· ++ suffix) ++ rest

theorem length_marked (suffix : List Char) (stretches : List (List Char)) (rest : List Char) :
    (marked suffix stretches rest).length =
      (stretches.flatten ++ rest).length + stretches.length * suffix.length := by
  unfold marked
  induction stretches with
  | nil => simp
  | cons t stretches ih =>
    simp only [List.flatMap_cons, List.flatten_cons, List.append_assoc, List.length_append,
      List.length_cons, Nat.succ_mul] at ih ⊢
    omega

/-- If anything is marked, the suffix can be read off. -/
theorem marked_injective {suffix suffix' rest : List Char} {stretches : List (List Char)}
    (hne : stretches ≠ []) (h : marked suffix stretches rest = marked suffix' stretches rest) :
    suffix = suffix' := by
  have hlength : suffix.length = suffix'.length := by
    have htotal := congrArg List.length h
    rw [length_marked, length_marked] at htotal
    exact Nat.eq_of_mul_eq_mul_left (List.length_pos_iff.mpr hne) (Nat.add_left_cancel htotal)
  cases stretches with
  | nil => exact absurd rfl hne
  | cons t stretches =>
    unfold marked at h
    simp only [List.flatMap_cons, List.append_assoc] at h
    exact (List.append_inj (List.append_cancel_left h) hlength).1

/-- The stretches of a selector are the same for every name, and if any fragment occurs in it
there are some. -/
theorem exists_stretches (fragments : List (List Char)) (s : List Char) :
    ∃ stretches rest, stretches.flatten ++ rest = s ∧
      (∀ name, suffixFragments fragments name s = marked ('-' :: name) stretches rest) ∧
      (stretches = [] → ∀ f ∈ fragments, f <:+: s → f = []) := by
  induction s using scan_induction fragments with
  | nil => exact ⟨[], [], rfl, fun name => rfl, fun _ f _ hf => List.infix_nil.mp hf⟩
  | pass c s hnone ih =>
    obtain ⟨stretches, rest, hs, hmarked, hoccurs⟩ := ih
    cases stretches with
    | nil =>
      refine ⟨[], c :: rest, by rw [← hs]; rfl, fun name => ?_, fun _ f hf hin => ?_⟩
      · rw [suffixFragments_cons hnone, hmarked]
        rfl
      · exact (List.infix_cons_iff.mp hin).elim (hnone f hf) (hoccurs rfl f hf)
    | cons t stretches =>
      refine ⟨(c :: t) :: stretches, rest, by rw [← hs]; rfl, fun name => ?_, by simp⟩
      rw [suffixFragments_cons hnone, hmarked]
      rfl
  | mark f s hlongest ih =>
    obtain ⟨stretches, rest, hs, hmarked, -⟩ := ih
    refine ⟨f :: stretches, rest, ?_, fun name => ?_, by simp⟩
    · rw [List.flatten_cons, List.append_assoc, hs]
    · rw [suffixFragments_append hlongest, hmarked]
      simp [marked]

/-- If there are fragments at all, one of them occurs in the selector; an empty one does not
count. -/
def SomeOccurs (fragments : Option (List (List Char))) (selector : String) : Prop :=
  ∀ all, fragments = some all → ∃ f ∈ all, f ≠ [] ∧ f <:+: selector.toList

/-- The same for both ways to rename. -/
theorem exists_stretches_renamed {fragments : Option (List (List Char))} {selector : String}
    (h : SomeOccurs fragments selector) :
    ∃ stretches rest, stretches ≠ [] ∧ stretches.flatten ++ rest = selector.toList ∧
      ∀ name : String, (renamed fragments name selector).toList =
        marked ('-' :: name.toList) stretches rest := by
  cases fragments with
  | none => exact ⟨[selector.toList], [], by simp, by simp, fun name => by simp [renamed, marked]⟩
  | some all =>
    obtain ⟨f, hf, hne, hin⟩ := h all rfl
    obtain ⟨stretches, rest, hs, hmarked, hoccurs⟩ := exists_stretches all selector.toList
    refine ⟨stretches, rest, fun hnil => hne (hoccurs hnil f hf hin), hs, fun name => ?_⟩
    simp [renamed, hmarked]

end Expansion

/-! ## Where variants stand -/

/-- Rules that come to a media block are in it. -/
theorem Node.exists_atRule_append {n : Node} {query : String} (h : n.isMedia query = true)
    (rules : List Rule) :
    ∃ a, (n.append (rules.map Rule.toNode)).atRule? = some a ∧ a.name = media ∧
      a.params = query ∧ ∀ r ∈ rules, r ∈ a.rules := by
  cases n with
  | statement name params source =>
    have hmedia : name = media ∧ params = query := by simpa [isMedia, atRule?] using h
    cases rules with
    | nil => exact ⟨_, rfl, hmedia.1, hmedia.2, by simp⟩
    | cons r more => exact ⟨_, rfl, hmedia.1, hmedia.2, by simp [AtRule.rules]⟩
  | block name params nodes source =>
    have hmedia : name = media ∧ params = query := by simpa [isMedia, atRule?] using h
    exact ⟨_, rfl, hmedia.1, hmedia.2, fun r hr => by simp [AtRule.rules, hr]⟩
  | rule => cases h
  | declaration => cases h
  | comment => cases h

namespace Expansion

/-- A successful expansion writes every variant to a media block with its query. -/
theorem exists_media_of_mem_variants {bs : Breakpoints} {s : Stylesheet} {report : Report}
    (hok : (expand bs s).report = .ok report) {b : Breakpoint} (hb : b ∈ bs.toList) {v : Rule}
    (hv : v ∈ s.variants b) :
    ∃ a ∈ (expand bs s).sheet.named media, a.params = b.query ∧ v ∈ a.rules := by
  have hne : s.named responsive ≠ [] := by
    intro hnil
    rw [Stylesheet.variants, hnil] at hv
    cases hv
  have hnodes := nodes_expand hne hok
  cases hadopted : s.adopted? bs.toList b with
  | some i =>
    obtain ⟨-, n, hn, hmedia⟩ := isMedia_of_adopted? hadopted
    obtain ⟨hi, rfl⟩ := List.getElem?_eq_some_iff.mp hn
    obtain ⟨a, ha, hname, hquery, hrules⟩ := Node.exists_atRule_append hmedia (s.variants b)
    refine ⟨a, Stylesheet.mem_named.mpr ⟨⟨_, ?_, ha⟩, hname⟩, hquery, hrules v hv⟩
    rw [hnodes, List.mem_append, List.mem_filter]
    refine Or.inl ⟨List.mem_mapIdx.mpr ⟨i, hi, ?_⟩, ?_⟩
    · rw [staying, adopter?_eq_some_iff.mpr hadopted]
    · simp [Node.not_isNamed_of_isMedia hmedia]
  | none =>
    refine ⟨⟨media, b.query, some ((s.variants b).map Rule.toNode), .nowhere⟩,
      Stylesheet.mem_named.mpr ⟨⟨newBlock s b, ?_, rfl⟩, rfl⟩, rfl, by simp [AtRule.rules, hv]⟩
    rw [hnodes, List.mem_append]
    exact Or.inr (List.mem_map_of_mem (List.mem_filter.mpr ⟨hb, by simp [hadopted]⟩))

/-! ## Renamed selectors -/

theorem isClass_iff {s : List Char} : isClass s = true ↔ s.head? = some '.' := by
  rw [isClass, List.isPrefixOf_iff_prefix]
  cases s <;> simp [List.cons_prefix_cons, eq_comm]

theorem isClass_renamed (fragments : Option (List (List Char))) (name : String)
    {selector : String} (h : isClass selector.toList = true) :
    isClass (renamed fragments name selector).toList = true := by
  have hne : selector ≠ "" := by
    rintro rfl
    cases h
  rw [isClass_iff] at h ⊢
  rw [(suffixed_renamed fragments name hne).head?_eq, h]

section

variable {fragments : Option (List (List Char))} {selector : String}
  (h : SomeOccurs fragments selector)
include h

theorem length_lt_renamed (name : String) :
    selector.length < (renamed fragments name selector).length := by
  obtain ⟨stretches, rest, hne, hs, hmarked⟩ := exists_stretches_renamed h
  have hpos : 0 < stretches.length * ('-' :: name.toList).length :=
    Nat.mul_pos (List.length_pos_iff.mpr hne) (Nat.succ_pos _)
  rw [← String.length_toList, ← String.length_toList, hmarked, length_marked, hs]
  omega

theorem renamed_injective {name name' : String}
    (heq : renamed fragments name selector = renamed fragments name' selector) : name = name' := by
  obtain ⟨stretches, rest, hne, -, hmarked⟩ := exists_stretches_renamed h
  have hlists := congrArg String.toList heq
  rw [hmarked, hmarked] at hlists
  exact String.toList_inj.mp (List.cons.inj (marked_injective hne hlists)).2

end

/-! ## Rules that get variants -/

theorem someOccurs_of_takes {a : AtRule} {selector : String}
    (hfragments : ∀ f ∈ a.fragments, isClass f = true)
    (htakes : trim a.params.toList = [] ∨ ∃ f ∈ a.fragments, f <:+: selector.toList) :
    SomeOccurs (fragments? (trim a.params.toList)) selector := by
  intro all hall
  rcases htakes with hblank | ⟨f, hf, hin⟩
  · rw [fragments?, if_pos hblank] at hall
    cases hall
  · have hmem : f ∈ all := by simpa [AtRule.fragments, hall] using hf
    refine ⟨f, hmem, ?_, hin⟩
    rintro rfl
    cases hfragments [] hf

section

variable {fragments : Option (List (List Char))} {r : Rule}

theorem SomeOccurs.takesPart (h : SomeOccurs fragments r.selector) :
    takesPart fragments r = true := by
  cases fragments with
  | none => rfl
  | some all =>
    obtain ⟨f, hf, -, hin⟩ := h all rfl
    exact List.any_eq_true.mpr ⟨f, hf, occursIn_iff.mpr hin⟩

/-- What is found in a rule that takes part makes a renamed rule for every breakpoint. -/
theorem exists_found (hrule : isClass r.selector.toList = true)
    (h : takesPart fragments r = true) :
    ∃ found, findRule fragments r = .ok found ∧ ∀ b : Breakpoint,
      found.variant? b = some (r.withSelector (renamed fragments b.name r.selector)) := by
  obtain ⟨found, hfound⟩ := findRule_of_isClass fragments hrule
  refine ⟨found, hfound, fun b => ?_⟩
  rw [eq_findingOf hfound, variant?_findingOf, if_pos h]

end

/-! ## The law -/

/-- The variants of a rule under two names differ from each other and from the rule's selector,
are longer than it, and begin with a dot like it; and an expansion writes just these, each to a
block with the query of its breakpoint. -/
theorem the_variants_of_a_rule_differ (a : AtRule) (r : Rule) (b c : Breakpoint)
    (hrule : isClass r.selector.toList = true) (hfragments : ∀ f ∈ a.fragments, isClass f = true)
    (htakes : trim a.params.toList = [] ∨ ∃ f ∈ a.fragments, f <:+: r.selector.toList)
    (hnames : b.name ≠ c.name) :
    ∃ found v w, findRule (fragments? (trim a.params.toList)) r = .ok found ∧
      found.variant? b = some v ∧ found.variant? c = some w ∧ v.selector ≠ w.selector ∧
      (∀ x ∈ [v, w], x.selector ≠ r.selector ∧ r.selector.length < x.selector.length ∧
        isClass x.selector.toList = true) ∧
      ∀ s bs report, a ∈ s.named responsive → r ∈ a.rules →
        (expand bs s).report = .ok report → ∀ p ∈ [(b, v), (c, w)], p.1 ∈ bs.toList →
          ∃ m ∈ (expand bs s).sheet.named media, m.params = p.1.query ∧ p.2 ∈ m.rules := by
  have hoccurs := someOccurs_of_takes hfragments htakes
  have htakes' := hoccurs.takesPart
  obtain ⟨found, hfound, hvariant⟩ := exists_found hrule htakes'
  refine ⟨found, _, _, hfound, hvariant b, hvariant c,
    fun heq => hnames (renamed_injective hoccurs heq), ?_, ?_⟩
  · have hone : ∀ b : Breakpoint,
        let selector := renamed (fragments? (trim a.params.toList)) b.name r.selector
        selector ≠ r.selector ∧ r.selector.length < selector.length ∧
          isClass selector.toList = true := by
      intro b selector
      have hlonger : r.selector.length < selector.length := length_lt_renamed hoccurs b.name
      refine ⟨fun heq => ?_, hlonger, isClass_renamed _ b.name hrule⟩
      rw [heq] at hlonger
      exact Nat.lt_irrefl _ hlonger
    simpa [Rule.withSelector] using ⟨hone b, hone c⟩
  · intro s bs report ha hr hok
    have hwritten : ∀ b : Breakpoint,
        r.withSelector (renamed (fragments? (trim a.params.toList)) b.name r.selector) ∈
          s.variants b := fun b =>
      List.mem_flatMap.mpr ⟨a, ha, List.mem_map_of_mem (List.mem_filter.mpr ⟨hr, htakes'⟩)⟩
    have hboth := fun (b : Breakpoint) (hb : b ∈ bs.toList) =>
      exists_media_of_mem_variants hok hb (hwritten b)
    simpa using ⟨hboth b, hboth c⟩

/-- One name is empty and the other is a fragment; the second occurrence is that of a fragment
that begins a longer one. -/
theorem the_empty_name_and_a_fragment_differ :
    let a : AtRule := ⟨"responsive", "(.a, .ab)", some [.rule ".c.ab .a" [] ⟨1, 24⟩], ⟨1, 1⟩⟩
    let r : Rule := ⟨".c.ab .a", [], ⟨1, 24⟩⟩
    let b : Breakpoint := ⟨"", "print"⟩
    let c : Breakpoint := ⟨".a", "screen"⟩
    (isClass r.selector.toList = true ∧ (∀ f ∈ a.fragments, isClass f = true) ∧
      (trim a.params.toList = [] ∨ ∃ f ∈ a.fragments, f <:+: r.selector.toList) ∧
      b.name ≠ c.name) ∧
    ∃ found v w, findRule (fragments? (trim a.params.toList)) r = .ok found ∧
      found.variant? b = some v ∧ v.selector = ".c.ab- .a-" ∧
      found.variant? c = some w ∧ w.selector = ".c.ab-.a .a-.a" ∧ v.selector ≠ w.selector := by
  intro a r b c
  have hrule : isClass r.selector.toList = true := by decide +kernel
  have hfragments : ∀ f ∈ a.fragments, isClass f = true := by decide +kernel
  have htakes : trim a.params.toList = [] ∨ ∃ f ∈ a.fragments, f <:+: r.selector.toList := by
    decide +kernel
  have hnames : b.name ≠ c.name := by decide
  obtain ⟨found, v, w, hfound, hv, hw, hne, -⟩ :=
    the_variants_of_a_rule_differ a r b c hrule hfragments htakes hnames
  obtain ⟨found', hfound', hvariant⟩ :=
    exists_found hrule (someOccurs_of_takes hfragments htakes).takesPart
  have hsame : found = found' := Except.ok.inj (hfound.symm.trans hfound')
  subst hsame
  rw [hvariant] at hv hw
  cases hv
  cases hw
  exact ⟨⟨hrule, hfragments, htakes, hnames⟩, found, _, _, hfound, hvariant b, by decide +kernel,
    hvariant c, by decide +kernel, hne⟩

end Expansion

end ResponsiveCss
