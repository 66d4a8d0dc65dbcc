import Mathlib.Data.Nat.Digits.Defs
import Mathlib.Data.Nat.ModEq
import Mathlib.Tactic.Ring
import ObjectSystem.Interning.Interner

/-!
# Packed names and hashes

A name fits into one word by a shift and comes out of it by a shift and a mask, and the hash of a
string is the number that its bytes are the digits of, in base 31 and cut off at 32 bits.
-/

namespace ObjectSystem

namespace Name

/-- A shard and a position in one word, put together bit by bit. -/
def pack (shard index : UInt32) : UInt32 := (shard <<< 28) ||| index

theorem raw_eq_pack (n : Name) : n.raw = pack (UInt32.ofNat n.shard) (UInt32.ofNat n.index) := by
  have hs := n.shard.isLt
  have hi := n.index.isLt
  unfold shardCount at hs
  unfold shardCapacity at hi
  have hword : n.shard.val <<< 28 < 2 ^ 32 := by
    rw [Nat.shiftLeft_eq]
    omega
  apply UInt32.toNat_inj.mp
  calc n.raw.toNat
    _ = n.shard.val <<< 28 + n.index.val := by
      rw [toNat_raw, Nat.shiftLeft_eq]
      rfl
    _ = n.shard.val <<< 28 ||| n.index.val := Nat.shiftLeft_add_eq_or_of_lt hi n.shard.val
    _ = (pack (UInt32.ofNat n.shard) (UInt32.ofNat n.index)).toNat := by
      rw [pack, UInt32.toNat_or, UInt32.toNat_shiftLeft, UInt32.toNat_ofNat', UInt32.toNat_ofNat',
        Nat.mod_eq_of_lt (show n.shard.val < 2 ^ 32 by omega),
        Nat.mod_eq_of_lt (show n.index.val < 2 ^ 32 by omega)]
      exact congrArg (· ||| n.index.val) (Nat.mod_eq_of_lt hword).symm

theorem shard_ofRaw (w : UInt32) : ((ofRaw w).shard : Nat) = (w >>> 28).toNat := by
  rw [UInt32.toNat_shiftRight]
  exact (Nat.shiftRight_eq_div_pow w.toNat 28).symm

theorem index_ofRaw (w : UInt32) : ((ofRaw w).index : Nat) = (w &&& 0x0FFFFFFF).toNat := by
  rw [UInt32.toNat_and]
  exact (Nat.and_two_pow_sub_one_eq_mod w.toNat 28).symm

end Name

namespace Interner

/-- The number that the bytes of a string are the digits of in base 31, the first byte leading. -/
def weight (s : String) : Nat := Nat.ofDigits 31 (s.toUTF8.data.toList.reverse.map UInt8.toNat)

/-- One more byte moves the digits of before one place up, and what does not fit is cut off. -/
theorem toNat_hash_step (h : UInt32) (b : UInt8) :
    (h * 31 + b.toUInt32).toNat ≡ h.toNat * 31 + b.toNat [MOD 2 ^ 32] := by
  rw [UInt32.toNat_add, UInt32.toNat_mul]
  calc (h.toNat * 31 % 2 ^ 32 + b.toNat) % 2 ^ 32
    _ ≡ h.toNat * 31 % 2 ^ 32 + b.toNat [MOD 2 ^ 32] := Nat.mod_modEq _ _
    _ ≡ h.toNat * 31 + b.toNat [MOD 2 ^ 32] := (Nat.mod_modEq _ _).add_right _

theorem toNat_hash (s : String) : (hash s).toNat = weight s % 2 ^ 32 := by
  have hfrom (bytes : List UInt8) (h : UInt32) :
      (bytes.foldl (fun h b => h * 31 + b.toUInt32) h).toNat ≡
        Nat.ofDigits 31 (bytes.reverse.map UInt8.toNat) + 31 ^ bytes.length * h.toNat
          [MOD 2 ^ 32] := by
    induction bytes generalizing h with
    | nil => simp [Nat.ModEq.refl]
    | cons b bytes ih =>
      calc (bytes.foldl (fun h b => h * 31 + b.toUInt32) (h * 31 + b.toUInt32)).toNat
        _ ≡ Nat.ofDigits 31 (bytes.reverse.map UInt8.toNat) +
              31 ^ bytes.length * (h * 31 + b.toUInt32).toNat [MOD 2 ^ 32] := ih _
        _ ≡ Nat.ofDigits 31 (bytes.reverse.map UInt8.toNat) +
              31 ^ bytes.length * (h.toNat * 31 + b.toNat) [MOD 2 ^ 32] :=
            ((toNat_hash_step h b).mul_left _).add_left _
        _ = Nat.ofDigits 31 ((b :: bytes).reverse.map UInt8.toNat) +
              31 ^ (b :: bytes).length * h.toNat := by
            rw [List.reverse_cons, List.map_append, Nat.ofDigits_append, List.map_singleton,
              Nat.ofDigits_singleton, List.length_map, List.length_reverse, List.length_cons]
            ring
  have hall := hfrom s.toUTF8.data.toList 0
  rw [UInt32.toNat_zero, Nat.mul_zero, Nat.add_zero] at hall
  calc (hash s).toNat
    _ = (hash s).toNat % 2 ^ 32 := (Nat.mod_eq_of_lt (hash s).toNat_lt).symm
    _ = weight s % 2 ^ 32 := by
      rw [hash, ← Array.foldl_toList]
      exact hall

theorem shardOf_eq (s : String) : (shardOf s : Nat) = weight s % 2 ^ 32 % 16 := by
  rw [← toNat_hash]
  rfl

end Interner

end ObjectSystem
