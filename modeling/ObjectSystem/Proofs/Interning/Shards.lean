import Mathlib.Algebra.BigOperators.Fin
import ObjectSystem.Proofs.Interning.Room

/-!
# What the shards hold

Every string stands in the shard of its hash, once (`Sorted`), so that names and strings determine
each other also the other way round: a name that has been given out is found by its string
(`Sorted.get?_lookup`). The size of an interner, the sum over its shards, goes up by one with each
string that is new (`size_intern`).
-/

namespace ObjectSystem.Interner

variable {i : Interner} {s t : String} {n : Name} {k : Fin shardCount}

theorem isSome_get?_iff : (i.get? s).isSome ↔ s ∈ i.strings (shardOf s) := by
  rw [Option.isSome_iff_ne_none, ne_eq, get?_eq_none_iff, not_not]

theorem mem_strings_intern (hroom : (i.intern s).2.HasRoom) :
    t ∈ (i.intern s).2.strings k ↔ t ∈ i.strings k ∨ k = shardOf s ∧ t = s := by
  rcases i.intern_cases s with ⟨n, hget, heq⟩ | ⟨-, n, j, heq, -, -, hstrings⟩ | ⟨-, hfull, heq⟩
  · have hold : s ∈ i.strings (shardOf s) := isSome_get?_iff.mp (by rw [hget]; rfl)
    rw [heq]
    constructor
    · exact .inl
    · rintro (ht | ⟨rfl, rfl⟩)
      · exact ht
      · exact hold
  · rw [heq, hstrings]
    by_cases hk : k = shardOf s
    · rw [if_pos hk, List.mem_append, List.mem_singleton]
      simp only [hk, true_and]
    · rw [if_neg hk]
      simp only [hk, false_and, or_false]
  · rw [heq] at hroom
    exact absurd (hroom (shardOf s)) (Nat.not_lt_of_le hfull)

theorem isSome_get?_intern (hroom : (i.intern s).2.HasRoom) :
    ((i.intern s).2.get? t).isSome ↔ (i.get? t).isSome ∨ t = s := by
  rw [isSome_get?_iff, isSome_get?_iff, mem_strings_intern hroom]
  refine or_congr_right ⟨And.right, ?_⟩
  rintro rfl
  exact ⟨rfl, rfl⟩

/-! ## Each string in its place -/

/-- Strings stand in the shards of their hashes, each once. -/
structure Sorted (i : Interner) : Prop where
  shardOf_eq : ∀ {k s}, s ∈ i.strings k → shardOf s = k
  nodup : ∀ k, (i.strings k).Nodup

theorem strings_empty (k : Fin shardCount) :
    empty.strings k = if k = shardOf "" then [""] else [] := by
  have hzero : (shardOf "").val = 0 := by decide +kernel
  simp only [strings, empty, Fin.getElem_fin, Vector.getElem_set, Fin.ext_iff, hzero]
  by_cases hk : k.val = 0
  · simp [hk]
  · simp [hk, Ne.symm hk]

theorem sorted_empty : empty.Sorted where
  shardOf_eq {k s} hs := by
    rw [strings_empty] at hs
    split at hs
    · rename_i hk
      rw [List.mem_singleton.mp hs, hk]
    · cases hs
  nodup k := by
    rw [strings_empty]
    split
    · exact List.nodup_singleton ""
    · exact List.nodup_nil

theorem Sorted.intern (h : i.Sorted) (s : String) : (i.intern s).2.Sorted := by
  rcases i.intern_cases s with ⟨n, -, heq⟩ | ⟨hget, n, j, heq, -, -, hstrings⟩ | ⟨-, -, heq⟩
  · rwa [heq]
  · rw [heq]
    refine ⟨fun {k t} ht => ?_, fun k => ?_⟩
    · rw [hstrings] at ht
      split at ht
      · rename_i hk
        rcases List.mem_append.mp ht with ht | ht
        · exact h.shardOf_eq ht
        · rw [List.mem_singleton.mp ht, hk]
      · exact h.shardOf_eq ht
    · rw [hstrings]
      split
      · rename_i hk
        have hnew : s ∉ i.strings k := hk ▸ get?_eq_none_iff.mp hget
        rw [← List.concat_eq_append]
        exact (h.nodup k).concat hnew
      · exact h.nodup k
  · rwa [heq]

theorem Sorted.get?_lookup (h : i.Sorted) (hn : i.Issued n) : i.get? (i.lookup n) = some n := by
  have hstring : i.lookup n = (i.strings n.shard)[n.index.val] := by
    rw [lookup_eq, List.getElem?_eq_getElem hn, Option.getD_some]
  have hshard : shardOf (i.lookup n) = n.shard :=
    h.shardOf_eq (hstring ▸ List.getElem_mem hn)
  refine get?_eq_some_iff.mpr ⟨hshard.symm, ?_⟩
  rw [hshard, hstring]
  exact List.idxOf?_eq_some_iff.mpr ⟨hn, rfl, fun m hm => by
    intro hsame
    have := (h.nodup n.shard).getElem_inj_iff.mp hsame
    omega⟩

/-- The string of a name is the one that is looked up, which is empty for a name of no string. -/
theorem Sorted.getD_string? (h : i.Sorted) (n : Name) : (i.string? n).getD "" = i.lookup n := by
  by_cases hn : i.Issued n
  · rw [string?_eq_some_iff.mpr (h.get?_lookup hn), Option.getD_some]
  · rw [string?, lookup_of_not_issued hn]
    split <;> rfl

/-! ## Counting -/

theorem size_eq_sum (i : Interner) : i.size = ∑ k, (i.strings k).length := by
  have hlist : i.shards.toList = List.ofFn fun k : Fin shardCount => i.shards[k] := by
    apply List.ext_getElem
    · simp
    · intro k _ _
      simp
  rw [size, ← Vector.foldl_toList, hlist]
  calc (List.ofFn fun k : Fin shardCount => i.shards[k]).foldl (fun count shard =>
          count + shard.size) 0
    _ = ((List.ofFn fun k : Fin shardCount => i.shards[k]).map Array.size).sum := by
      rw [List.sum_eq_foldl, List.foldl_map]
    _ = ∑ k, (i.strings k).length := by
      rw [List.map_ofFn, List.sum_ofFn]
      rfl

theorem size_empty : empty.size = 1 := by decide +kernel

theorem size_of_push {j : Interner}
    (hpush : ∀ l, j.strings l = if l = k then i.strings l ++ [s] else i.strings l) :
    j.size = i.size + 1 := by
  have hlength (l : Fin shardCount) :
      (j.strings l).length = (i.strings l).length + if l = k then 1 else 0 := by
    rw [hpush]
    split <;> simp
  simp only [size_eq_sum, hlength, Finset.sum_add_distrib, Finset.sum_ite_eq', Finset.mem_univ,
    if_true]

theorem size_intern (hroom : (i.intern s).2.HasRoom) :
    (i.intern s).2.size = if (i.get? s).isSome then i.size else i.size + 1 := by
  rcases i.intern_cases s with ⟨n, hget, heq⟩ | ⟨hget, n, j, heq, -, -, hstrings⟩ | ⟨-, hfull, heq⟩
  · simp [heq, hget]
  · simp [heq, hget, size_of_push hstrings]
  · rw [heq] at hroom
    exact absurd (hroom (shardOf s)) (Nat.not_lt_of_le hfull)

end ObjectSystem.Interner
