import ObjectSystem.Proofs.Interning.Growth

/-!
# Interners with room

While no shard is full, interning a string gives it a name of its own: names and strings determine
each other (`lookup_of_get?`, `Holds.get?_eq`). An interner that has room had it before.
-/

namespace ObjectSystem.Interner

variable {i j : Interner} {s t : String} {n : Name}

/-- Every shard can take another string. -/
def HasRoom (i : Interner) : Prop := ∀ k, (i.strings k).length < shardCapacity

instance (i : Interner) : Decidable i.HasRoom :=
  inferInstanceAs (Decidable (∀ k, (i.strings k).length < shardCapacity))

theorem Grows.hasRoom (hij : i.Grows j) (hj : j.HasRoom) : i.HasRoom :=
  fun k => Nat.lt_of_le_of_lt (hij k).length_le (hj k)

theorem Holds.get?_eq (h : i.Holds s n) (hroom : i.HasRoom) : i.get? s = some n := by
  rcases holds_iff.mp h with hget | ⟨-, hfull, -⟩
  · exact hget
  · exact absurd (hroom (shardOf s)) (Nat.not_lt_of_le hfull)

theorem lookup_of_get? (h : i.get? s = some n) : i.lookup n = s := by
  obtain ⟨hshard, hindex⟩ := get?_eq_some_iff.mp h
  obtain ⟨hlt, hs, -⟩ := List.idxOf?_eq_some_iff.mp hindex
  rw [lookup_eq, hshard, List.getElem?_eq_getElem hlt, hs, Option.getD_some]

theorem get?_injective (hs : i.get? s = some n) (ht : i.get? t = some n) : s = t := by
  rw [← lookup_of_get? hs, lookup_of_get? ht]

/-- The string of a name, if it is that of one. -/
def string? (i : Interner) (n : Name) : Option String :=
  if i.get? (i.lookup n) = some n then some (i.lookup n) else none

theorem string?_eq_some_iff : i.string? n = some s ↔ i.get? s = some n := by
  rw [string?]
  constructor
  · intro h
    split at h
    · cases h
      assumption
    · cases h
  · intro h
    rw [lookup_of_get? h, if_pos h]

theorem get?_empty : empty.get? "" = some .empty := by decide +kernel

/-- A string that is interned while there is room is found afterwards, also if it took the last
place. -/
theorem HasRoom.get?_intern (hroom : i.HasRoom) (s : String) :
    (i.intern s).2.get? s = some (i.intern s).1 := by
  rcases i.intern_cases s with ⟨n, hget, heq⟩ | ⟨-, n, j, heq, -, -, hstrings⟩ | ⟨-, hfull, -⟩
  · rw [heq]
    exact hget
  · rcases holds_iff.mp (i.holds_intern s) with hget | ⟨hnone, -⟩
    · exact hget
    · rw [heq, get?_eq_none_iff, hstrings, if_pos rfl] at hnone
      simp at hnone
  · exact absurd (hroom (shardOf s)) (Nat.not_lt_of_le hfull)

end ObjectSystem.Interner
