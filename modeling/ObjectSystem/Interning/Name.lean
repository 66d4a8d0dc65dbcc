/-!
# Interned names

A `Name` stands for a string held by an interner: the shard that holds it and its position there.
Packing both into one 32-bit word loses nothing (`Name.ofRaw_raw`, `Name.raw_ofRaw`), and names are
ordered by that word.
-/

namespace ObjectSystem

def shardCount : Nat := 16

def shardCapacity : Nat := 268435456

theorem shardCount_pos : 0 < shardCount := by decide

/-- An interned string, by the shard that holds it and its position in that shard. -/
structure Name where
  shard : Fin shardCount
  index : Fin shardCapacity
  deriving DecidableEq

namespace Name

def empty : Name := ⟨⟨0, shardCount_pos⟩, ⟨0, by decide⟩⟩

instance : Inhabited Name := ⟨empty⟩

/-- The name as one word: the shard in the top four bits, the position in the other 28. -/
def raw (n : Name) : UInt32 := UInt32.ofNat (n.shard * shardCapacity + n.index)

def ofRaw (raw : UInt32) : Name where
  shard := ⟨raw.toNat / shardCapacity, Nat.div_lt_of_lt_mul raw.toNat_lt⟩
  index := ⟨raw.toNat % shardCapacity, Nat.mod_lt _ (by decide)⟩

def at? (shard index : Nat) : Option Name :=
  if hs : shard < shardCount then
    if hi : index < shardCapacity then some ⟨⟨shard, hs⟩, ⟨index, hi⟩⟩ else none
  else none

theorem toNat_raw (n : Name) : n.raw.toNat = n.shard * shardCapacity + n.index := by
  have hs := n.shard.isLt
  have hi := n.index.isLt
  simp only [shardCount, shardCapacity] at hs hi
  simp only [raw, UInt32.toNat_ofNat', shardCapacity]
  omega

@[simp] theorem ofRaw_raw (n : Name) : ofRaw n.raw = n := by
  have hi := n.index.isLt
  obtain ⟨⟨s, hs⟩, ⟨i, hi'⟩⟩ := n
  simp only [ofRaw, toNat_raw, mk.injEq, Fin.mk.injEq]
  constructor
  · rw [Nat.mul_comm, Nat.mul_add_div (by decide), Nat.div_eq_of_lt hi, Nat.add_zero]
  · rw [Nat.mul_comm, Nat.mul_add_mod, Nat.mod_eq_of_lt hi]

@[simp] theorem raw_ofRaw (w : UInt32) : (ofRaw w).raw = w := by
  apply UInt32.toNat_inj.mp
  rw [toNat_raw]
  simp only [ofRaw]
  rw [Nat.mul_comm, Nat.div_add_mod]

theorem raw_injective {a b : Name} (h : a.raw = b.raw) : a = b := by
  rw [← ofRaw_raw a, h, ofRaw_raw]

instance : Ord Name := ⟨fun a b => compare a.raw.toNat b.raw.toNat⟩

def text (n : Name) : String := s!"Name({n.shard.val}:{n.index.val})"

end Name

end ObjectSystem
