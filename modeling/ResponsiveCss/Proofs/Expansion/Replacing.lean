-- Renaming against plain replacement. For one fragment the two are the same;
-- for several class names the one reading comes to as many replacements, one
-- after the other, because what a replacement puts in begins no class name.
import Mathlib.Data.List.Pairwise
import ResponsiveCss.Proofs.Expansion.Scan
import ResponsiveCss.Proofs.Text.Replace

namespace ResponsiveCss.Expansion

open Text

variable {fragments : List (List Char)} {name s t f g : List Char}

/-! ## One fragment -/

theorem suffixFragments_singleton (hf : f ≠ []) (name s : List Char) :
    suffixFragments [f] name s = replaceAll f (f ++ '-' :: name) s := by
  induction s using scan_induction [f] with
  | nil => rw [suffixFragments_nil, replaceAll_nil hf]
  | pass c s hnone ih =>
    have hstart : ¬ f <+: c :: s := fun h => hf (hnone f List.mem_cons_self h)
    rw [suffixFragments_cons hnone, replaceAll_cons hf _ hstart, ih]
  | mark g s hlongest ih =>
    obtain rfl := List.mem_singleton.mp hlongest.mem
    rw [suffixFragments_append hlongest, replaceAll_append hf, ih]

/-! ## Class names -/

/-- A dot and behind it no other one. -/
def IsClassName (f : List Char) : Prop := ∃ word, f = '.' :: word ∧ '.' ∉ word

instance : DecidablePred IsClassName := fun f =>
  decidable_of_iff (f.head? = some '.' ∧ '.' ∉ f.tail) (by
    cases f <;> simp [IsClassName, and_assoc])

/-- Neither text begins the other. -/
def Apart (f g : List Char) : Prop := ¬ f <+: g ∧ ¬ g <+: f

instance : DecidableRel Apart := fun f g => inferInstanceAs (Decidable (¬ f <+: g ∧ ¬ g <+: f))

instance : Std.Symm Apart := ⟨fun _ _ h => ⟨h.2, h.1⟩⟩

/-- Texts that are apart do not begin the same text. -/
theorem Apart.not_starts (h : Apart f g) (hf : f <+: s) : ¬ g <+: s := fun hg =>
  (List.prefix_or_prefix_of_prefix hf hg).elim h.1 h.2

theorem longest_of_apart (hnames : ∀ f ∈ fragments, IsClassName f)
    (hapart : fragments.Pairwise Apart) (hf : f ∈ fragments) (s : List Char) :
    Longest fragments (f ++ s) f := by
  have hstarts : f <+: f ++ s := List.prefix_append f s
  refine ⟨hf, ?_, hstarts, fun g hg hgstarts => ?_⟩
  · obtain ⟨word, rfl, -⟩ := hnames f hf
    exact List.cons_ne_nil _ _
  · by_cases hfg : f = g
    · exact Nat.le_of_eq (congrArg List.length hfg.symm)
    · exact absurd hgstarts ((hapart.forall hf hg hfg).not_starts hstarts)

/-- Where there is no dot, the selector stays as it is. -/
theorem suffixFragments_append_of_no_dot (hnames : ∀ f ∈ fragments, IsClassName f)
    (hs : '.' ∉ s) (name t : List Char) :
    suffixFragments fragments name (s ++ t) = s ++ suffixFragments fragments name t := by
  induction s with
  | nil => rfl
  | cons c s ih =>
    rw [List.mem_cons, not_or] at hs
    have hnone : NoneStarts fragments (c :: (s ++ t)) := by
      intro f hf hstarts
      obtain ⟨word, rfl, -⟩ := hnames f hf
      exact absurd (List.cons_prefix_cons.mp hstarts).1 hs.1
    rw [List.cons_append, suffixFragments_cons hnone, ih hs.2, List.cons_append]

/-- A class name that is apart from all fragments stays as it is. -/
theorem suffixFragments_append_of_apart (hnames : ∀ f ∈ fragments, IsClassName f)
    (hf : IsClassName f) (hapart : ∀ g ∈ fragments, Apart f g) (name t : List Char) :
    suffixFragments fragments name (f ++ t) = f ++ suffixFragments fragments name t := by
  obtain ⟨word, rfl, hword⟩ := hf
  have hnone : NoneStarts fragments ('.' :: (word ++ t)) := by
    intro g hg hstarts
    exact absurd hstarts ((hapart g hg).not_starts (List.prefix_append _ t))
  rw [List.cons_append, suffixFragments_cons hnone, suffixFragments_append_of_no_dot hnames hword,
    List.cons_append]

/-- Up to the next dot the renamed selector reads like the old one. -/
theorem prefix_suffixFragments_iff (hnames : ∀ f ∈ fragments, IsClassName f) (ht : '.' ∉ t)
    (name s : List Char) : t <+: suffixFragments fragments name s ↔ t <+: s := by
  induction s using scan_induction fragments generalizing t with
  | nil => rw [suffixFragments_nil]
  | pass c s hnone ih =>
    rw [suffixFragments_cons hnone]
    cases t with
    | nil => simp
    | cons d t =>
      rw [List.mem_cons, not_or] at ht
      rw [List.cons_prefix_cons, List.cons_prefix_cons, ih ht.2]
  | mark f s hlongest ih =>
    rw [suffixFragments_append hlongest]
    obtain ⟨word, rfl, -⟩ := hnames f hlongest.mem
    cases t with
    | nil => simp
    | cons d t =>
      rw [List.mem_cons, not_or] at ht
      simp [List.cons_prefix_cons, Ne.symm ht.1]

/-! ## One fragment after the other -/

/-- The step: the first fragment can be read for on its own, before all others. -/
theorem suffixFragments_cons_fragment (hname : '.' ∉ name)
    (hnames : ∀ g ∈ f :: fragments, IsClassName g) (hapart : (f :: fragments).Pairwise Apart)
    (s : List Char) :
    suffixFragments (f :: fragments) name s =
      suffixFragments fragments name (suffixFragments [f] name s) := by
  have hf : IsClassName f := hnames f List.mem_cons_self
  have hone : ∀ g ∈ [f], IsClassName g := by simpa using hf
  have hrest : ∀ g ∈ fragments, IsClassName g := fun g hg => hnames g (List.mem_cons_of_mem _ hg)
  rw [List.pairwise_cons] at hapart
  induction s using scan_induction (f :: fragments) with
  | nil => rfl
  | pass c s hnone ih =>
    have hnone₁ : NoneStarts [f] (c :: s) := fun g hg => hnone g (by simp_all)
    have hnone₂ : NoneStarts fragments (c :: suffixFragments [f] name s) := by
      intro g hg hstarts
      obtain ⟨word, rfl, hword⟩ := hrest g hg
      rw [List.cons_prefix_cons, prefix_suffixFragments_iff hone hword,
        ← List.cons_prefix_cons] at hstarts
      exact hnone _ (List.mem_cons_of_mem _ hg) hstarts
    rw [suffixFragments_cons hnone, suffixFragments_cons hnone₁, suffixFragments_cons hnone₂, ih]
  | mark g s hlongest ih =>
    rw [suffixFragments_append hlongest]
    rcases List.mem_cons.mp hlongest.mem with rfl | hg
    · -- The others find nothing in the fragment, and nothing in what came behind it.
      have hsuffix : '.' ∉ '-' :: name := by simp [hname]
      rw [suffixFragments_append (longest_of_apart hone (by simp) (by simp) s), List.append_assoc,
        List.append_assoc, suffixFragments_append_of_apart hrest hf hapart.1,
        suffixFragments_append_of_no_dot hrest hsuffix, ih]
    · have hfg : ∀ h ∈ [f], Apart g h := by simpa using symm (hapart.1 g hg)
      rw [suffixFragments_append_of_apart hone (hrest g hg) hfg,
        suffixFragments_append (longest_of_apart hrest hapart.2 hg _), ih]

/-- The run: all fragments can be read for one after the other. -/
theorem suffixFragments_eq_foldl (hname : '.' ∉ name)
    (hnames : ∀ f ∈ fragments, IsClassName f) (hapart : fragments.Pairwise Apart) (s : List Char) :
    suffixFragments fragments name s =
      fragments.foldl (fun s f => replaceAll f (f ++ '-' :: name) s) s := by
  induction fragments generalizing s with
  | nil =>
    induction s with
    | nil => rfl
    | cons c s ih =>
      have hnone : NoneStarts [] (c :: s) := by simp [NoneStarts]
      rw [suffixFragments_cons hnone, ih]
      rfl
  | cons f fragments ih =>
    have hf : f ≠ [] := by
      obtain ⟨word, rfl, -⟩ := hnames f List.mem_cons_self
      exact List.cons_ne_nil _ _
    rw [suffixFragments_cons_fragment hname hnames hapart, List.foldl_cons,
      suffixFragments_singleton hf,
      ih (fun g hg => hnames g (List.mem_cons_of_mem _ hg)) hapart.of_cons]

/-! ## The law -/

/-- With one fragment, renaming replaces each of its occurrences by the fragment and the suffix.
With several class names, none of which begins another, it does so for one after the other, in
whatever order, if the name of the breakpoint has no dot. -/
theorem renaming_replaces_one_fragment_after_the_other (name selector : List Char) :
    (∀ f, f ≠ [] →
      suffixFragments [f] name selector = replaceAll f (f ++ '-' :: name) selector) ∧
    ∀ fragments order : List (List Char), '.' ∉ name → (∀ f ∈ fragments, IsClassName f) →
      fragments.Pairwise Apart → order.Perm fragments →
      suffixFragments fragments name selector =
        order.foldl (fun s f => replaceAll f (f ++ '-' :: name) s) selector := by
  refine ⟨fun f hf => suffixFragments_singleton hf name selector, ?_⟩
  intro fragments order hname hnames hapart hperm
  have hsame : suffixFragments fragments name selector = suffixFragments order name selector :=
    suffixFragments_congr name fun f _ _ => hperm.mem_iff.symm
  rw [hsame]
  exact suffixFragments_eq_foldl hname (fun f hf => hnames f (hperm.mem_iff.mp hf))
    ((hperm.pairwise_iff symm).mpr hapart) selector

/-- Occurrences that touch, that overlap themselves and that stand in longer names. -/
theorem three_class_names_are_replaced_backwards :
    let fragments := [".ab".toList, ".ac".toList, ".b".toList]
    let order := [".b".toList, ".ac".toList, ".ab".toList]
    ("aa".toList ≠ [] ∧ '.' ∉ "m-b".toList ∧ (∀ f ∈ fragments, IsClassName f) ∧
      fragments.Pairwise Apart ∧ order.Perm fragments) ∧
    replaceAll "aa".toList "aa-m-b".toList "aaa.aa aaaa".toList =
      "aa-m-ba.aa-m-b aa-m-baa-m-b".toList ∧
    order.foldl (fun s f => replaceAll f (f ++ '-' :: "m-b".toList) s)
      ".ab.acb.b > .abc .a.b".toList = ".ab-m-b.ac-m-bb.b-m-b > .ab-m-bc .a.b-m-b".toList := by
  intro fragments order
  have hne : "aa".toList ≠ [] := by decide +kernel
  have hname : '.' ∉ "m-b".toList := by decide +kernel
  have hnames : ∀ f ∈ fragments, IsClassName f := by decide +kernel
  have hapart : fragments.Pairwise Apart := by decide +kernel
  have hperm : order.Perm fragments := by decide +kernel
  obtain ⟨hone, -⟩ :=
    renaming_replaces_one_fragment_after_the_other "m-b".toList "aaa.aa aaaa".toList
  obtain ⟨-, hall⟩ :=
    renaming_replaces_one_fragment_after_the_other "m-b".toList ".ab.acb.b > .abc .a.b".toList
  have hmarked : "aa-m-b".toList = "aa".toList ++ '-' :: "m-b".toList := by decide +kernel
  rw [hmarked, ← hone _ hne, ← hall fragments order hname hnames hapart hperm]
  exact ⟨⟨hne, hname, hnames, hapart, hperm⟩, by decide +kernel, by decide +kernel⟩

end ResponsiveCss.Expansion
