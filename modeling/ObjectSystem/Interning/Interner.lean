import ObjectSystem.Interning.Name

/-!
# Interning strings

An `Interner` gives every string one `Name` and every `Name` its string back. The strings are
spread over shards by a hash of their bytes; in a shard they keep the order in which they came.
Strings are only ever added, so a name, once given, keeps its meaning.
-/

namespace ObjectSystem

structure ShardFull where
  shard : Nat
  count : Nat
  deriving DecidableEq, Repr

def ShardFull.message (e : ShardFull) : String :=
  s!"interner shard {e.shard} exceeded capacity: {e.count} strings, max is {shardCapacity - 1}"

structure Interner where
  shards : Vector (Array String) shardCount
  size_le : ∀ k (h : k < shardCount), shards[k].size ≤ shardCapacity

namespace Interner

/-- The hash that spreads strings: base 31 over their UTF-8 bytes, wrapping at 32 bits. -/
def hash (s : String) : UInt32 :=
  s.toUTF8.data.foldl (fun h b => h * 31 + b.toUInt32) 0

def shardOf (s : String) : Fin shardCount :=
  ⟨(hash s).toNat % shardCount, Nat.mod_lt _ shardCount_pos⟩

/-- The interner that holds the empty string only, under `Name.empty`. -/
def empty : Interner where
  shards := (Vector.replicate shardCount #[]).set 0 #[""] shardCount_pos
  size_le := by
    intro k h
    rw [Vector.getElem_set]
    split <;> simp [shardCapacity]

instance : Inhabited Interner := ⟨empty⟩

def get? (i : Interner) (s : String) : Option Name :=
  ((i.shards[shardOf s]).toList.idxOf? s).bind (Name.at? (shardOf s))

/-- The string of a name; a name never given out has the empty string. -/
def lookup (i : Interner) (n : Name) : String :=
  ((i.shards[n.shard])[n.index]?).getD ""

def insert (i : Interner) (s : String) : Except ShardFull (Name × Interner) :=
  match i.get? s with
  | some n => .ok (n, i)
  | none =>
    let shard := shardOf s
    if h : i.shards[shard].size < shardCapacity then
      .ok (⟨shard, ⟨_, h⟩⟩,
        { shards := i.shards.set shard (i.shards[shard].push s)
          size_le := by
            intro k hk
            rw [Vector.getElem_set]
            split
            · rw [Array.size_push]; exact h
            · exact i.size_le k hk })
    else .error ⟨shard, i.shards[shard].size⟩

/-- Gives a string its name. A string for which there is no room is not added and gets the
empty name. -/
def intern (i : Interner) (s : String) : Name × Interner :=
  match i.insert s with
  | .ok found => found
  | .error _ => (.empty, i)

def size (i : Interner) : Nat := i.shards.foldl (fun count shard => count + shard.size) 0

def isEmpty (i : Interner) : Bool := i.size ≤ 1

def text (i : Interner) : String := s!"StringInterner \x7b len: {i.size}, .. \x7d"

end Interner

end ObjectSystem
