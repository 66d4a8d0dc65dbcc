import ObjectSystem.Proofs.Interning.Indexed
import ObjectSystem.Proofs.Run.Basic

/-!
# Histories of interners

An interner that has been given strings one after another, starting from the empty one. While there
was room for all of them, each has the name that every call for it returned, in whatever order and
however often the strings came, and no other string has this name (`ofStrings_names`).
-/

namespace ObjectSystem.Interner

variable {strings before after : List String} {s t : String} {n : Name}

/-- In the course of interning the strings, a call for this one returned that name. -/
def Gave (strings : List String) (s : String) (n : Name) : Prop :=
  ∃ before after, strings = before ++ s :: after ∧ ((ofStrings before).intern s).1 = n

theorem ofStrings_concat (strings : List String) (s : String) :
    ofStrings (strings ++ [s]) = ((ofStrings strings).intern s).2 := by
  rw [ofStrings, List.foldl_append]
  rfl

theorem grows_ofStrings_append (before after : List String) :
    (ofStrings before).Grows (ofStrings (before ++ after)) := by
  induction after using List.reverseRecOn with
  | nil =>
    rw [List.append_nil]
    exact .refl _
  | append_singleton after s ih =>
    rw [← List.append_assoc, ofStrings_concat]
    exact ih.trans (grows_intern _ s)

theorem sorted_ofStrings (strings : List String) : (ofStrings strings).Sorted := by
  induction strings using List.reverseRecOn with
  | nil => exact sorted_empty
  | append_singleton strings s ih =>
    rw [ofStrings_concat]
    exact ih.intern s

theorem get?_ofStrings_empty (strings : List String) :
    (ofStrings strings).get? "" = some .empty :=
  (grows_ofStrings_append [] strings).get?_eq_some get?_empty

theorem isSome_get?_ofStrings (hroom : (ofStrings strings).HasRoom) :
    ((ofStrings strings).get? s).isSome ↔ s = "" ∨ s ∈ strings := by
  induction strings using List.reverseRecOn with
  | nil =>
    rw [isSome_get?_iff]
    show s ∈ empty.strings (shardOf s) ↔ _
    rw [strings_empty, List.mem_nil_iff, or_false]
    constructor
    · intro hs
      split at hs
      · exact List.mem_singleton.mp hs
      · cases hs
    · rintro rfl
      rw [if_pos rfl]
      exact List.mem_singleton_self _
  | append_singleton strings t ih =>
    rw [ofStrings_concat] at hroom ⊢
    rw [isSome_get?_intern hroom, ih ((grows_intern _ t).hasRoom hroom), List.mem_append,
      List.mem_singleton, or_assoc]

theorem size_ofStrings (hroom : (ofStrings strings).HasRoom) :
    (ofStrings strings).size = ("" :: strings).toFinset.card := by
  induction strings using List.reverseRecOn with
  | nil => exact size_empty
  | append_singleton strings s ih =>
    rw [ofStrings_concat] at hroom ⊢
    have hbefore := (grows_intern _ s).hasRoom hroom
    have hheld : ((ofStrings strings).get? s).isSome ↔ s ∈ ("" :: strings).toFinset := by
      rw [isSome_get?_ofStrings hbefore, List.mem_toFinset, List.mem_cons]
    have hconcat : ("" :: (strings ++ [s])).toFinset =
        ("" :: strings).toFinset ∪ {s} := by
      rw [← List.cons_append, List.toFinset_append]
      rfl
    rw [size_intern hroom, ih hbefore, hconcat]
    split
    · rename_i hs
      rw [Finset.union_eq_left.mpr (Finset.singleton_subset_iff.mpr (hheld.mp hs))]
    · rename_i hs
      have hnew : Disjoint ("" :: strings).toFinset {s} :=
        Finset.disjoint_singleton_right.mpr fun hmem => hs (hheld.mpr hmem)
      rw [Finset.card_union_of_disjoint hnew, Finset.card_singleton]

/-! ## What the calls returned -/

theorem get?_of_gave (hroom : (ofStrings strings).HasRoom) (h : Gave strings s n) :
    (ofStrings strings).get? s = some n := by
  obtain ⟨before, after, rfl, rfl⟩ := h
  have hgrows := grows_ofStrings_append (before ++ [s]) after
  rw [ofStrings_concat, List.append_assoc, List.singleton_append] at hgrows
  exact hgrows.get?_eq_some (((ofStrings before).holds_intern s).get?_eq (hgrows.hasRoom hroom))

theorem exists_gave (hroom : (ofStrings strings).HasRoom) (h : s ∈ strings) :
    ∃ n, Gave strings s n := by
  obtain ⟨before, after, rfl⟩ := List.append_of_mem h
  exact ⟨_, before, after, rfl, rfl⟩

theorem lookup_of_not_gave (hroom : (ofStrings strings).HasRoom) (h : ∀ s, ¬ Gave strings s n) :
    (ofStrings strings).lookup n = "" := by
  by_cases hissued : (ofStrings strings).Issued n
  · have hget := (sorted_ofStrings strings).get?_lookup hissued
    rcases (isSome_get?_ofStrings hroom).mp (by rw [hget]; rfl) with hempty | hmem
    · exact hempty
    · obtain ⟨m, hm⟩ := exists_gave hroom hmem
      obtain rfl := Option.some.inj (hget.symm.trans (get?_of_gave hroom hm))
      exact absurd hm (h _)
  · exact lookup_of_not_issued hissued

end ObjectSystem.Interner

namespace ObjectSystem

def IndexedInterner.ofStrings (strings : List String) : IndexedInterner :=
  strings.foldl (fun names s => (names.intern s).2) .empty

theorem IndexedInterner.inStep_ofStrings (strings : List String) :
    (ofStrings strings).InStep (.ofStrings strings) := by
  have hfrom (x : IndexedInterner) (i : Interner) (h : x.InStep i) :
      (strings.foldl (fun names s => (names.intern s).2) x).InStep
        (strings.foldl (fun names s => (names.intern s).2) i) := by
    induction strings generalizing x i with
    | nil => exact h
    | cons s rest ih => exact ih _ _ (h.intern s).2
  exact hfrom _ _ inStep_empty

namespace Interner

/-- An interner that was empty at first and never full. It knows the empty string and the strings
that it was given, each by the name that every call for it returned, in the shard of its hash;
different strings have different names, and other names stand for nothing. It counts its strings
once each. A name is as good as its word, and an interner that keeps an index and a counter and
hands out words gives the same answers. -/
theorem ofStrings_names {strings : List String} (hroom : (ofStrings strings).HasRoom) :
    (∀ s, ((ofStrings strings).get? s).isSome ↔ s = "" ∨ s ∈ strings) ∧
    (ofStrings strings).get? "" = some .empty ∧
    (∀ s n, Gave strings s n →
      (ofStrings strings).get? s = some n ∧ (ofStrings strings).lookup n = s ∧
        (n.shard : Nat) = weight s % 2 ^ 32 % 16) ∧
    (∀ s t n, Gave strings s n → Gave strings t n → s = t) ∧
    (∀ n, (∀ s, ¬ Gave strings s n) → (ofStrings strings).lookup n = "") ∧
    (ofStrings strings).size = ("" :: strings).toFinset.card ∧
    (∀ n : Name, n.raw = Name.pack (.ofNat n.shard) (.ofNat n.index) ∧ .ofRaw n.raw = n) ∧
    (∀ w : UInt32, (Name.ofRaw w).raw = w ∧ ((Name.ofRaw w).shard : Nat) = (w >>> 28).toNat ∧
      ((Name.ofRaw w).index : Nat) = (w &&& 0x0FFFFFFF).toNat) ∧
    (IndexedInterner.ofStrings strings).Mirrors (ofStrings strings) := by
  refine ⟨fun s => isSome_get?_ofStrings hroom, get?_ofStrings_empty strings, fun s n h => ?_,
    fun s t n hs ht => get?_injective (get?_of_gave hroom hs) (get?_of_gave hroom ht),
    fun n => lookup_of_not_gave hroom, size_ofStrings hroom,
    fun n => ⟨n.raw_eq_pack, n.ofRaw_raw⟩,
    fun w => ⟨Name.raw_ofRaw w, Name.shard_ofRaw w, Name.index_ofRaw w⟩,
    (IndexedInterner.inStep_ofStrings strings).mirrors⟩
  have hget := get?_of_gave hroom h
  refine ⟨hget, lookup_of_get? hget, ?_⟩
  rw [(get?_eq_some_iff.mp hget).1, shardOf_eq]

def herd : List String := ["Cow", "Sheep", "Cow"]

/-- Three strings are held when the cow has come twice, and whichever name the sheep was given, the
cow was given another. -/
theorem herd_names : (ofStrings herd).HasRoom ∧ (ofStrings herd).size = 3 ∧
    ∃ n, Gave herd "Sheep" n ∧ (ofStrings herd).lookup n = "Sheep" ∧ ¬ Gave herd "Cow" n := by
  have hroom : (ofStrings herd).HasRoom := by decide +kernel
  obtain ⟨-, -, hnames, hinjective, -, hsize, -⟩ := ofStrings_names hroom
  have hsheep : Gave herd "Sheep" _ := ⟨["Cow"], ["Cow"], rfl, rfl⟩
  refine ⟨hroom, hsize.trans (by decide), _, hsheep, (hnames _ _ hsheep).2.1, fun hcow => ?_⟩
  exact absurd (hinjective _ _ _ hsheep hcow) (by decide)

end Interner

end ObjectSystem
