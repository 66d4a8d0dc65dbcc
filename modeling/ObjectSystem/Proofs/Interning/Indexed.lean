import Std.Data.HashMap.Lemmas
import ObjectSystem.Proofs.Interning.Packing
import ObjectSystem.Proofs.Interning.Shards

/-!
# Interners with an index

An interner may also keep a map that finds the positions of the strings in each shard, count the
strings as they come and hand out names as words. It stays in step with the interner that has none
of this and gives the same answers (`InStep.insert`, `InStep.get?_eq`, `InStep.lookup_eq`).
-/

namespace ObjectSystem

/-- The strings of a shard with a map from each of them to its position. -/
structure IndexedShard where
  positions : Std.HashMap String UInt32 := {}
  strings : Array String := #[]

def IndexedShard.push (shard : IndexedShard) (s : String) : IndexedShard where
  positions := shard.positions.insert s (UInt32.ofNat shard.strings.size)
  strings := shard.strings.push s

structure IndexedInterner where
  shards : Vector IndexedShard shardCount
  total : Nat

namespace IndexedInterner

open Interner

/-- The empty string is put by hand into the first shard. -/
def empty : IndexedInterner where
  shards := (Vector.replicate shardCount {}).set 0 (IndexedShard.push {} "") shardCount_pos
  total := 1

def get? (x : IndexedInterner) (s : String) : Option UInt32 :=
  ((x.shards.get (shardOf s)).positions[s]?).map (Name.pack (UInt32.ofNat (shardOf s)))

def lookup (x : IndexedInterner) (w : UInt32) : String :=
  (x.shards[(w >>> 28).toNat]?.bind (·.strings[(w &&& 0x0FFFFFFF).toNat]?)).getD ""

def insert (x : IndexedInterner) (s : String) : Except ShardFull (UInt32 × IndexedInterner) :=
  match x.get? s with
  | some w => .ok (w, x)
  | none =>
    let shard := shardOf s
    let position := (x.shards.get shard).strings.size
    if position < shardCapacity then
      .ok (Name.pack (UInt32.ofNat shard) (UInt32.ofNat position),
        ⟨x.shards.set shard ((x.shards.get shard).push s) shard.isLt, x.total + 1⟩)
    else .error ⟨shard, position⟩

def intern (x : IndexedInterner) (s : String) : UInt32 × IndexedInterner :=
  match x.insert s with
  | .ok found => found
  | .error _ => (Name.empty.raw, x)

/-- Both hold the same strings at the same places. The maps find these places, and the counter has
counted the strings. -/
structure InStep (x : IndexedInterner) (i : Interner) : Prop where
  strings_eq : ∀ k : Fin shardCount, (x.shards.get k).strings = i.shards.get k
  position_eq : ∀ (k : Fin shardCount) (s : String),
    (x.shards.get k).positions[s]? = ((i.strings k).idxOf? s).map UInt32.ofNat
  total_eq : x.total = i.size

variable {x : IndexedInterner} {i : Interner}

theorem get_set {α : Type} {n k : Nat} (shards : Vector α n) (shard : α) (h : k < n)
    (l : Fin n) : (shards.set k shard h).get l = if k = l.val then shard else shards.get l :=
  Vector.getElem_set h l.isLt

theorem get_replicate {α : Type} {n : Nat} (shard : α) (k : Fin n) :
    (Vector.replicate n shard).get k = shard :=
  Vector.getElem_replicate k.isLt

theorem inStep_empty : empty.InStep .empty where
  strings_eq k := by
    simp only [empty, Interner.empty, get_set]
    split
    · rfl
    · simp only [get_replicate]
  position_eq k s := by
    simp only [empty, Interner.empty, Interner.strings, Fin.getElem_fin, Vector.getElem_set,
      get_set]
    split
    · simp [IndexedShard.push, Std.HashMap.getElem?_insert, List.idxOf?_cons]
    · rw [get_replicate]
      simp
  total_eq := Interner.size_empty.symm

namespace InStep

theorem get?_eq (h : x.InStep i) (s : String) : x.get? s = (i.get? s).map Name.raw := by
  rw [get?, h.position_eq]
  cases hget : i.get? s with
  | none =>
    rw [get?_eq_none_iff, ← List.idxOf?_eq_none_iff] at hget
    rw [hget]
    rfl
  | some n =>
    obtain ⟨hshard, hindex⟩ := get?_eq_some_iff.mp hget
    rw [hindex, Option.map_some, Option.map_some, Option.map_some, Name.raw_eq_pack, hshard]

theorem lookup_eq (h : x.InStep i) (w : UInt32) : x.lookup w = i.lookup (.ofRaw w) := by
  have hshard := Name.shard_ofRaw w
  have hlt := (Name.ofRaw w).shard.isLt
  rw [lookup, Interner.lookup, ← hshard, ← Name.index_ofRaw, Vector.getElem?_eq_getElem hlt,
    Option.bind_some]
  exact congrArg (fun strings : Array String => (strings[(Name.ofRaw w).index.val]?).getD "")
    (h.strings_eq (Name.ofRaw w).shard)

theorem push (h : x.InStep i) {s : String} {j : Interner} {shard : Fin shardCount}
    (hshard : shardOf s = shard) (hnew : i.get? s = none)
    (hshards : j.shards = i.shards.set shard ((i.shards.get shard).push s) shard.isLt) :
    InStep ⟨x.shards.set shard ((x.shards.get shard).push s) shard.isLt, x.total + 1⟩ j where
  strings_eq k := by
    simp only [hshards, get_set]
    split
    · exact congrArg (·.push s) (h.strings_eq shard)
    · exact h.strings_eq k
  position_eq k t := by
    have hlength : (x.shards.get shard).strings.size = (i.strings shard).length := by
      rw [h.strings_eq, strings, Array.length_toList]
      rfl
    have hnew' : s ∉ i.strings shard := hshard ▸ get?_eq_none_iff.mp hnew
    rw [strings_of_shards_eq hshards, get_set]
    by_cases hk : k = shard
    · subst hk
      rw [if_pos rfl, if_pos rfl, idxOf?_concat hnew', IndexedShard.push,
        Std.HashMap.getElem?_insert]
      simp only [beq_iff_eq]
      split
      · rw [← hlength]
        rfl
      · exact h.position_eq k t
    · rw [if_neg hk, if_neg fun heq => hk (Fin.ext heq).symm, h.position_eq k t]
  total_eq := by rw [size_of_push (strings_of_shards_eq hshards), h.total_eq]

/-- Interning a string gives the same name, as a word, and leaves both in step. -/
theorem insert (h : x.InStep i) (s : String) :
    match i.insert s with
    | .ok (n, j) => ∃ y, x.insert s = .ok (n.raw, y) ∧ y.InStep j
    | .error e => x.insert s = .error e := by
  have hsize : (x.shards.get (shardOf s)).strings.size = i.shards[shardOf s].size := by
    rw [h.strings_eq]
    rfl
  simp only [IndexedInterner.insert, Interner.insert, h.get?_eq]
  cases hget : i.get? s with
  | some n => exact ⟨x, rfl, h⟩
  | none =>
    by_cases hroom : i.shards[shardOf s].size < shardCapacity
    · simp only [dif_pos hroom, Option.map_none, hsize, if_pos hroom, Name.raw_eq_pack]
      exact ⟨_, rfl, h.push rfl hget rfl⟩
    · simp only [dif_neg hroom, Option.map_none, hsize, if_neg hroom]

theorem intern (h : x.InStep i) (s : String) :
    (x.intern s).1 = (i.intern s).1.raw ∧ (x.intern s).2.InStep (i.intern s).2 := by
  have hinsert := h.insert s
  rw [IndexedInterner.intern, Interner.intern]
  cases hi : i.insert s with
  | ok found =>
    rw [hi] at hinsert
    obtain ⟨y, hy, hstep⟩ := hinsert
    rw [hy]
    exact ⟨rfl, hstep⟩
  | error e =>
    rw [hi] at hinsert
    dsimp only at hinsert
    rw [hinsert]
    exact ⟨rfl, h⟩

end InStep

/-- The first gives the answers of the second, with words for names. -/
structure Mirrors (x : IndexedInterner) (i : Interner) : Prop where
  intern_eq : ∀ s, (x.intern s).1 = (i.intern s).1.raw
  get?_eq : ∀ s, x.get? s = (i.get? s).map Name.raw
  lookup_eq : ∀ w, x.lookup w = i.lookup (.ofRaw w)
  total_eq : x.total = i.size

theorem InStep.mirrors (h : x.InStep i) : x.Mirrors i :=
  ⟨fun s => (h.intern s).1, h.get?_eq, h.lookup_eq, h.total_eq⟩

end IndexedInterner

end ObjectSystem
