import ObjectSystem.Interning.Interner

/-!
# Growth of interners

Interning only ever adds strings at the end of a shard. What a name stands for, and which name a
string has, therefore never changes (`Grows.lookup_eq`, `Grows.get?_eq_some_iff`).
-/

namespace ObjectSystem.Interner

def strings (i : Interner) (k : Fin shardCount) : List String := (i.shards[k]).toList

/-- The name stands for a string of the interner. -/
def Issued (i : Interner) (n : Name) : Prop := n.index.val < (i.strings n.shard).length

instance (i : Interner) (n : Name) : Decidable (i.Issued n) :=
  inferInstanceAs (Decidable (_ < _))

/-- If the second interner has issued the name, the first one had before. -/
def IssuedBefore (i j : Interner) (n : Name) : Prop := j.Issued n → i.Issued n

instance (i j : Interner) (n : Name) : Decidable (i.IssuedBefore j n) :=
  inferInstanceAs (Decidable (_ → _))

/-- The second interner holds what the first one holds, at the same places, and perhaps more. -/
def Grows (i j : Interner) : Prop := ∀ k, i.strings k <+: j.strings k

/-- Interning the string gives that name and changes nothing. -/
def Holds (i : Interner) (s : String) (n : Name) : Prop := i.intern s = (n, i)

theorem length_strings_le (i : Interner) (k : Fin shardCount) :
    (i.strings k).length ≤ shardCapacity := by
  rw [strings, Array.length_toList]
  exact i.size_le k k.isLt

theorem get?_eq (i : Interner) (s : String) :
    i.get? s = ((i.strings (shardOf s)).idxOf? s).bind (Name.at? (shardOf s)) := rfl

theorem lookup_eq (i : Interner) (n : Name) :
    i.lookup n = ((i.strings n.shard)[n.index.val]?).getD "" := by
  rw [lookup, strings, Array.getElem?_toList]
  rfl

theorem lookup_of_not_issued {i : Interner} {n : Name} (hn : ¬ i.Issued n) : i.lookup n = "" := by
  rw [lookup_eq, List.getElem?_eq_none (Nat.le_of_not_lt hn), Option.getD_none]

theorem get?_eq_some_iff {i : Interner} {s : String} {n : Name} :
    i.get? s = some n ↔
      n.shard = shardOf s ∧ (i.strings (shardOf s)).idxOf? s = some n.index.val := by
  obtain ⟨shard, index⟩ := n
  rw [get?_eq, Option.bind_eq_some_iff]
  constructor
  · rintro ⟨k, hk, hname⟩
    simp only [Name.at?, Fin.is_lt, dite_true] at hname
    split at hname
    · cases hname
      exact ⟨rfl, hk⟩
    · cases hname
  · rintro ⟨rfl, hk⟩
    refine ⟨index, hk, ?_⟩
    simp [Name.at?]

theorem get?_eq_none_iff {i : Interner} {s : String} :
    i.get? s = none ↔ s ∉ i.strings (shardOf s) := by
  rw [← List.idxOf?_eq_none_iff]
  cases hidx : (i.strings (shardOf s)).idxOf? s with
  | none => simp [get?_eq, hidx]
  | some k =>
    have hlt : k < shardCapacity :=
      Nat.lt_of_lt_of_le (List.idxOf?_eq_some_iff.mp hidx).1 (i.length_strings_le _)
    have hsome : i.get? s = some ⟨shardOf s, ⟨k, hlt⟩⟩ := get?_eq_some_iff.mpr ⟨rfl, hidx⟩
    simp [hsome]

theorem issued_of_get? {i : Interner} {s : String} {n : Name} (h : i.get? s = some n) :
    i.Issued n := by
  obtain ⟨hshard, hindex⟩ := get?_eq_some_iff.mp h
  obtain ⟨hlt, -⟩ := List.idxOf?_eq_some_iff.mp hindex
  rw [Issued, hshard]
  exact hlt

/-! ## What interning does -/

theorem strings_of_shards_eq {i j : Interner} {s : String} {shard : Fin shardCount}
    (hshards : j.shards = i.shards.set shard (i.shards[shard].push s)) (k : Fin shardCount) :
    j.strings k = if k = shard then i.strings k ++ [s] else i.strings k := by
  simp only [strings, hshards, Fin.getElem_fin, Vector.getElem_set, Fin.ext_iff]
  by_cases hk : k.val = shard.val
  · obtain rfl : k = shard := Fin.ext hk
    simp
  · simp [hk, Ne.symm hk]

theorem idxOf?_concat {α : Type} [DecidableEq α] {l : List α} {a : α} (hnew : a ∉ l) (b : α) :
    (l ++ [a]).idxOf? b = if a = b then some l.length else l.idxOf? b := by
  by_cases hb : a = b
  · subst hb
    have hnone : l.idxOf? a = none := List.idxOf?_eq_none_iff.mpr hnew
    rw [List.idxOf?] at hnone
    rw [if_pos rfl, List.idxOf?, List.findIdx?_append, hnone]
    simp [List.findIdx?_cons]
  · rw [if_neg hb, List.idxOf?, List.findIdx?_append, ← List.idxOf?]
    simp [hb]

/-- A string that has a name keeps it; a new one is added at the end of its shard; one for which
there is no room is not added. -/
theorem intern_cases (i : Interner) (s : String) :
    (∃ n, i.get? s = some n ∧ i.intern s = (n, i)) ∨
    (i.get? s = none ∧ ∃ n j, i.intern s = (n, j) ∧ n.shard = shardOf s ∧
      n.index.val = (i.strings (shardOf s)).length ∧
      ∀ k, j.strings k = if k = shardOf s then i.strings k ++ [s] else i.strings k) ∨
    (i.get? s = none ∧ shardCapacity ≤ (i.strings (shardOf s)).length ∧
      i.intern s = (.empty, i)) := by
  cases hget : i.get? s with
  | some n =>
    refine .inl ⟨n, rfl, ?_⟩
    simp only [intern, insert, hget]
  | none =>
    by_cases hroom : i.shards[shardOf s].size < shardCapacity
    · refine .inr (.inl ⟨rfl, ?_⟩)
      simp only [intern, insert, hget]
      rw [dif_pos hroom]
      exact ⟨_, _, rfl, rfl, by simp [strings], strings_of_shards_eq rfl⟩
    · refine .inr (.inr ⟨rfl, ?_, ?_⟩)
      · rw [strings, Array.length_toList]
        exact Nat.le_of_not_lt hroom
      · simp only [intern, insert, hget]
        rw [dif_neg hroom]

theorem Grows.refl (i : Interner) : i.Grows i := fun _ => List.prefix_rfl

theorem Grows.trans {i j k : Interner} (hij : i.Grows j) (hjk : j.Grows k) : i.Grows k :=
  fun shard => (hij shard).trans (hjk shard)

theorem grows_intern (i : Interner) (s : String) : i.Grows (i.intern s).2 := by
  rcases i.intern_cases s with ⟨n, -, heq⟩ | ⟨-, n, j, heq, -, -, hstrings⟩ | ⟨-, -, heq⟩
  · rw [heq]
    exact .refl i
  · rw [heq]
    intro k
    rw [hstrings]
    split
    · exact List.prefix_append _ _
    · exact List.prefix_rfl
  · rw [heq]
    exact .refl i

/-- A string has the name that is found for it, or the empty name when there is no room for it. -/
theorem holds_iff {i : Interner} {s : String} {n : Name} :
    i.Holds s n ↔ i.get? s = some n ∨
      i.get? s = none ∧ shardCapacity ≤ (i.strings (shardOf s)).length ∧ n = .empty := by
  rw [Holds]
  rcases i.intern_cases s with ⟨n', hget, heq⟩ | ⟨hget, n', j, heq, -, hindex, hstrings⟩ |
    ⟨hget, hfull, heq⟩
  · simp [heq, hget]
  · have hroom : ¬ shardCapacity ≤ (i.strings (shardOf s)).length := by
      rw [← hindex]
      exact Nat.not_le_of_lt n'.index.isLt
    have hne : j ≠ i := by
      rintro rfl
      have hself := congrArg List.length (hstrings (shardOf s))
      simp at hself
    simp [heq, hget, hroom, hne]
  · simp [heq, hget, hfull, eq_comm]

theorem holds_intern (i : Interner) (s : String) : (i.intern s).2.Holds s (i.intern s).1 := by
  rcases i.intern_cases s with ⟨n, hget, heq⟩ | ⟨hget, n, j, heq, hshard, hindex, hstrings⟩ |
    ⟨hget, hfull, heq⟩
  · rw [heq]
    exact holds_iff.mpr (.inl hget)
  · rw [heq]
    refine holds_iff.mpr (.inl (get?_eq_some_iff.mpr ⟨hshard, ?_⟩))
    rw [hstrings, if_pos rfl, idxOf?_concat (get?_eq_none_iff.mp hget), if_pos rfl, hindex]
  · rw [heq]
    exact holds_iff.mpr (.inr ⟨hget, hfull, rfl⟩)

theorem Holds.issued {i : Interner} {s : String} {n : Name} (h : i.Holds s n)
    (hempty : i.Issued .empty) : i.Issued n := by
  rcases holds_iff.mp h with hget | ⟨-, -, rfl⟩
  · exact issued_of_get? hget
  · exact hempty

theorem issued_empty : empty.Issued .empty := by
  rw [Issued, strings, empty, Name.empty]
  simp

/-! ## What growth preserves -/

namespace Grows

variable {i j : Interner} {s : String} {n : Name}

theorem issued (hij : i.Grows j) (hn : i.Issued n) : j.Issued n :=
  Nat.lt_of_lt_of_le hn (hij n.shard).length_le

theorem lookup_eq (hij : i.Grows j) (hn : i.Issued n) : j.lookup n = i.lookup n := by
  obtain ⟨more, hmore⟩ := hij n.shard
  rw [Interner.lookup_eq, Interner.lookup_eq, ← hmore, List.getElem?_append_left hn]

theorem get?_eq_some (hij : i.Grows j) (h : i.get? s = some n) : j.get? s = some n := by
  obtain ⟨hshard, hindex⟩ := Interner.get?_eq_some_iff.mp h
  obtain ⟨more, hmore⟩ := hij (shardOf s)
  refine Interner.get?_eq_some_iff.mpr ⟨hshard, ?_⟩
  rw [List.idxOf?] at hindex
  rw [← hmore, List.idxOf?, List.findIdx?_append, hindex]
  rfl

theorem get?_eq_some_iff (hij : i.Grows j) (hn : i.Issued n) :
    j.get? s = some n ↔ i.get? s = some n := by
  refine ⟨fun h => ?_, hij.get?_eq_some⟩
  cases hget : i.get? s with
  | some n' =>
    rw [hij.get?_eq_some hget] at h
    exact h
  | none =>
    obtain ⟨hshard, hindex⟩ := Interner.get?_eq_some_iff.mp h
    obtain ⟨hlt, hs, -⟩ := List.idxOf?_eq_some_iff.mp hindex
    obtain ⟨more, hmore⟩ := hij (shardOf s)
    rw [Issued, hshard] at hn
    simp only [← hmore, List.getElem_append_left hn] at hs
    have hmem := List.getElem_mem hn
    rw [hs] at hmem
    exact absurd hmem (get?_eq_none_iff.mp hget)

/-- Between two interners a name changes only by being issued. -/
theorem lookup_eq_of_issuedBefore (hij : i.Grows j) (hn : i.IssuedBefore j n) :
    j.lookup n = i.lookup n := by
  by_cases hissued : i.Issued n
  · exact hij.lookup_eq hissued
  · rw [lookup_of_not_issued hissued, lookup_of_not_issued (mt hn hissued)]

theorem get?_iff_of_issuedBefore (hij : i.Grows j) (hn : i.IssuedBefore j n) :
    j.get? s = some n ↔ i.get? s = some n :=
  ⟨fun h => (hij.get?_eq_some_iff (hn (issued_of_get? h))).mp h, hij.get?_eq_some⟩

theorem holds (hij : i.Grows j) (h : i.Holds s n) : j.Holds s n := by
  rcases holds_iff.mp h with hget | ⟨hget, hfull, rfl⟩
  · exact holds_iff.mpr (.inl (hij.get?_eq_some hget))
  · -- a full shard cannot grow
    have hsame : i.strings (shardOf s) = j.strings (shardOf s) :=
      (hij (shardOf s)).eq_of_length_le (Nat.le_trans (j.length_strings_le _) hfull)
    rw [get?_eq_none_iff, hsame, ← get?_eq_none_iff] at hget
    rw [hsame] at hfull
    exact holds_iff.mpr (.inr ⟨hget, hfull, rfl⟩)

end Grows

end ObjectSystem.Interner
