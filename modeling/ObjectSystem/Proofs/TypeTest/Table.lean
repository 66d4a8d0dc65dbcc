import Mathlib.Data.List.Induction
import Mathlib.Data.String.Basic
import ObjectSystem.TypeTest

/-!
# Tables of tests that stand alone

A table of helpers has the tests that stand alone in a list of entries, each under a helper that no
other entry has. It may be built from these entries, or in one pass in which the first test of each
helper is kept and a helper that comes again is noted, to be taken out at the end. The contents are
the same however often a helper comes (`build_contains`, `sweep_contains`).
-/

namespace ObjectSystem

/-- A table on the way: the first test of each helper, and the helpers that have come again. -/
structure HelperDraft where
  tests : Std.TreeMap String TypeTest := {}
  ambiguous : List String := []

namespace HelperDraft

def add (d : HelperDraft) (entry : String × TypeTest) : HelperDraft :=
  if d.tests.contains entry.1 then { d with ambiguous := d.ambiguous ++ [entry.1] }
  else { d with tests := d.tests.insert entry.1 entry.2 }

def table (d : HelperDraft) : HelperTable := ⟨d.ambiguous.foldl (·.erase ·) d.tests⟩

end HelperDraft

namespace HelperTable

/-- Builds the table in one pass over the named types. -/
def sweep (r : Registry) : HelperTable := (r.helpers.foldl HelperDraft.add {}).table

def entriesOf (helper : String) (entries : List (String × TypeTest)) : List (String × TypeTest) :=
  entries.filter (·.1 == helper)

/-- The test of a helper that one entry has and no other. -/
def alone? (helper : String) (entries : List (String × TypeTest)) : Option TypeTest :=
  match entriesOf helper entries with
  | [entry] => some entry.2
  | _ => none

def Contains (t : HelperTable) (entries : List (String × TypeTest)) : Prop :=
  ∀ helper, t.get? helper = alone? helper entries

variable {entries : List (String × TypeTest)} {entry : String × TypeTest} {helper : String}
  {test : TypeTest}

theorem mem_entriesOf : entry ∈ entriesOf helper entries ↔ entry ∈ entries ∧ entry.1 = helper := by
  rw [entriesOf, List.mem_filter, beq_iff_eq]

theorem entriesOf_concat : entriesOf helper (entries ++ [entry]) =
    if entry.1 = helper then entriesOf helper entries ++ [entry] else entriesOf helper entries := by
  rw [entriesOf, List.filter_append]
  split
  · rename_i heq
    rw [List.filter_cons_of_pos (by simpa using heq), List.filter_nil, entriesOf]
  · rename_i hne
    rw [List.filter_cons_of_neg (by simpa using hne), List.filter_nil, List.append_nil, entriesOf]

theorem alone?_eq_some_iff :
    alone? helper entries = some test ↔ entriesOf helper entries = [(helper, test)] := by
  rw [alone?]
  split
  · rename_i entry hentry
    have hmem : entry ∈ entriesOf helper entries := hentry ▸ List.mem_singleton_self entry
    obtain ⟨-, rfl⟩ := mem_entriesOf.mp hmem
    simp [hentry, Prod.ext_iff]
  · rename_i hnot
    simp only [reduceCtorEq, false_iff]
    exact hnot _

theorem alone?_eq_some_iff_map :
    alone? helper entries = some test ↔
      (entriesOf helper entries).map (some ·.2) = [some test] := by
  rw [alone?_eq_some_iff, List.map_eq_singleton_iff]
  constructor
  · intro honly
    exact ⟨_, honly, rfl⟩
  · rintro ⟨entry, honly, htest⟩
    have hmem : entry ∈ entriesOf helper entries := honly ▸ List.mem_singleton_self entry
    obtain ⟨-, rfl⟩ := mem_entriesOf.mp hmem
    rw [honly, ← Option.some.inj htest]

/-! ## Entries that share their helper with no other one -/

theorem mem_unambiguous_iff :
    (helper, test) ∈ unambiguous entries ↔ alone? helper entries = some test := by
  rw [alone?_eq_some_iff, unambiguous, List.mem_filter, beq_iff_eq, List.countP_eq_length_filter,
    ← entriesOf]
  constructor
  · rintro ⟨hmem, hone⟩
    obtain ⟨entry, hentry⟩ := List.length_eq_one_iff.mp hone
    have hself : (helper, test) ∈ entriesOf helper entries := mem_entriesOf.mpr ⟨hmem, rfl⟩
    rw [hentry, List.mem_singleton] at hself
    rw [hentry, hself]
  · intro honly
    have hself : (helper, test) ∈ entriesOf helper entries := by simp [honly]
    exact ⟨(mem_entriesOf.mp hself).1, by rw [honly, List.length_singleton]⟩

theorem pairwise_unambiguous (entries : List (String × TypeTest)) :
    (unambiguous entries).Pairwise (·.1 ≠ ·.1) := by
  rw [List.pairwise_iff_forall_sublist]
  intro a b hab heq
  -- both would be entries of their common helper, which has one only
  have hcommon : [a, b].Sublist (entriesOf a.1 entries) := by
    have hsub := (hab.trans List.filter_sublist).filter (·.1 == a.1)
    simpa [heq, entriesOf] using hsub
  have hmem : (a.1, a.2) ∈ unambiguous entries := hab.subset (by simp)
  have hlength := hcommon.length_le
  rw [alone?_eq_some_iff.mp (mem_unambiguous_iff.mp hmem)] at hlength
  simp at hlength

theorem getElem?_ofList_iff {l : List (String × TypeTest)} (hkeys : l.Pairwise (·.1 ≠ ·.1)) :
    (Std.TreeMap.ofList l)[helper]? = some test ↔ (helper, test) ∈ l := by
  have hkeys' : l.Pairwise fun a b => ¬ compare a.1 b.1 = .eq := by
    simpa only [Std.LawfulEqCmp.compare_eq_iff_eq] using hkeys
  have hfound {v : TypeTest} (hv : (helper, v) ∈ l) : (Std.TreeMap.ofList l)[helper]? = some v :=
    Std.TreeMap.getElem?_ofList_of_mem Std.ReflCmp.compare_self hkeys' hv
  refine ⟨fun hget => ?_, hfound⟩
  have hcontains : (Std.TreeMap.ofList l).contains helper := by
    rw [Std.TreeMap.contains_eq_isSome_getElem?, hget, Option.isSome_some]
  rw [Std.TreeMap.contains_ofList, List.contains_iff_mem, List.mem_map] at hcontains
  obtain ⟨⟨k, v⟩, hmem, rfl⟩ := hcontains
  rw [hfound hmem, Option.some.injEq] at hget
  rwa [hget] at hmem

theorem build_contains (r : Registry) : (build r).Contains r.helpers := by
  intro helper
  ext test
  rw [get?, build, getElem?_ofList_iff (pairwise_unambiguous r.helpers), mem_unambiguous_iff]

end HelperTable

/-! ## One pass -/

namespace HelperDraft

open HelperTable

variable {d : HelperDraft} {entries : List (String × TypeTest)}

/-- The draft has seen the entries. -/
structure HasSeen (d : HelperDraft) (entries : List (String × TypeTest)) : Prop where
  tests_eq : ∀ helper, d.tests[helper]? = (entriesOf helper entries).head?.map Prod.snd
  mem_ambiguous_iff : ∀ helper,
    helper ∈ d.ambiguous ↔ 1 < (entriesOf helper entries).length

theorem hasSeen_nil : HasSeen {} [] where
  tests_eq _ := Std.TreeMap.getElem?_emptyc
  mem_ambiguous_iff _ := by simp [entriesOf]

theorem HasSeen.contains_eq (h : d.HasSeen entries) (helper : String) :
    d.tests.contains helper = !(entriesOf helper entries).isEmpty := by
  rw [Std.TreeMap.contains_eq_isSome_getElem?, h.tests_eq]
  cases entriesOf helper entries <;> rfl

theorem HasSeen.add (h : d.HasSeen entries) (entry : String × TypeTest) :
    (d.add entry).HasSeen (entries ++ [entry]) := by
  cases hseen : entriesOf entry.1 entries with
  | nil =>
    have hadd : d.add entry = { d with tests := d.tests.insert entry.1 entry.2 } := by
      rw [HelperDraft.add, h.contains_eq, hseen]
      rfl
    rw [hadd]
    refine ⟨fun helper => ?_, fun helper => ?_⟩ <;> rw [entriesOf_concat] <;>
      by_cases heq : entry.1 = helper
    · subst heq
      simp [hseen]
    · simp [heq, Std.TreeMap.getElem?_insert, h.tests_eq]
    · subst heq
      simp [hseen, h.mem_ambiguous_iff]
    · simp [heq, h.mem_ambiguous_iff]
  | cons first rest =>
    have hadd : d.add entry = { d with ambiguous := d.ambiguous ++ [entry.1] } := by
      rw [HelperDraft.add, h.contains_eq, hseen]
      rfl
    rw [hadd]
    refine ⟨fun helper => ?_, fun helper => ?_⟩ <;> rw [entriesOf_concat] <;>
      by_cases heq : entry.1 = helper
    · subst heq
      simp [hseen, h.tests_eq]
    · simp [heq, h.tests_eq]
    · subst heq
      simp [hseen]
    · simp [heq, Ne.symm heq, h.mem_ambiguous_iff]

theorem hasSeen_foldl (entries : List (String × TypeTest)) :
    HasSeen (entries.foldl HelperDraft.add {}) entries := by
  induction entries using List.reverseRecOn with
  | nil => exact hasSeen_nil
  | append_singleton entries entry ih =>
    rw [List.foldl_concat]
    exact ih.add entry

theorem getElem?_foldl_erase (tests : Std.TreeMap String TypeTest) (helpers : List String)
    (helper : String) :
    (helpers.foldl (·.erase ·) tests)[helper]? =
      if helper ∈ helpers then none else tests[helper]? := by
  induction helpers generalizing tests with
  | nil => simp
  | cons first rest ih =>
    rw [List.foldl_cons, ih, Std.TreeMap.getElem?_erase]
    by_cases hrest : helper ∈ rest
    · simp [hrest]
    · simp [hrest, eq_comm (a := helper)]

theorem HasSeen.table_contains (h : d.HasSeen entries) : d.table.Contains entries := by
  intro helper
  rw [get?, table, getElem?_foldl_erase, h.tests_eq, alone?]
  simp only [h.mem_ambiguous_iff]
  cases entriesOf helper entries with
  | nil => rfl
  | cons first rest => cases rest <;> rfl

end HelperDraft

namespace HelperTable

variable {t : HelperTable} {helper : String}

theorem sweep_contains (r : Registry) : (sweep r).Contains r.helpers :=
  (HelperDraft.hasSeen_foldl r.helpers).table_contains

/-! ## Names -/

theorem pairwise_names (t : HelperTable) : t.names.Pairwise (· < ·) :=
  Std.TreeMap.ordered_keys.imp compare_lt_iff_lt.mp

theorem mem_names_iff : helper ∈ t.names ↔ (t.get? helper).isSome := by
  rw [names, Std.TreeMap.mem_keys, Std.TreeMap.mem_iff_isSome_getElem?, get?]

theorem size_eq_length_names (t : HelperTable) : t.size = t.names.length :=
  Std.TreeMap.length_keys.symm

end HelperTable

end ObjectSystem
