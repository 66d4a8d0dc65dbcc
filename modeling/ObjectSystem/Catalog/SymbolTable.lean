import ObjectSystem.Handle
import ObjectSystem.Interning.Name
import Std.Data.TreeMap.Lemmas

/-!
# The symbol table

Which type each name is bound to. A name is bound once; the bindings are listed in ascending order
of the names.
-/

namespace ObjectSystem

instance : Std.OrientedOrd Name where
  eq_swap {a b} := Std.OrientedOrd.eq_swap (α := Nat) (a := a.raw.toNat) (b := b.raw.toNat)

instance : Std.TransOrd Name where
  isLE_trans {a b c} := Std.TransOrd.isLE_trans (α := Nat)
    (a := a.raw.toNat) (b := b.raw.toNat) (c := c.raw.toNat)

instance : Std.LawfulEqOrd Name where
  eq_of_compare {a b} h := Name.raw_injective (UInt32.toNat_inj.mp
    (Std.LawfulEqOrd.eq_of_compare (α := Nat) (a := a.raw.toNat) (b := b.raw.toNat) h))

structure SymbolTable where
  bindings : Std.TreeMap Name Handle := {}

namespace SymbolTable

def empty : SymbolTable := {}

instance : Inhabited SymbolTable := ⟨empty⟩

def resolve? (s : SymbolTable) (name : Name) : Option Handle := s.bindings[name]?

def contains (s : SymbolTable) (name : Name) : Bool := s.bindings.contains name

/-- Binds a name; the type it is bound to already comes back if there is one. -/
def register (s : SymbolTable) (name : Name) (type : Handle) : Except Handle SymbolTable :=
  match s.resolve? name with
  | some existing => .error existing
  | none => .ok { bindings := s.bindings.insert name type }

theorem resolve?_register {s t : SymbolTable} {name : Name} {type : Handle}
    (h : s.register name type = .ok t) (other : Name) :
    t.resolve? other = if name = other then some type else s.resolve? other := by
  unfold register at h
  split at h
  · cases h
  · cases h
    simp only [resolve?, Std.TreeMap.getElem?_insert, Std.LawfulEqCmp.compare_eq_iff_eq]

def toList (s : SymbolTable) : List (Name × Handle) := s.bindings.toList

def size (s : SymbolTable) : Nat := s.bindings.size

def isEmpty (s : SymbolTable) : Bool := s.bindings.isEmpty

end SymbolTable

end ObjectSystem
