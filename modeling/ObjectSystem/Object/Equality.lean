import ObjectSystem.Object.Value

/-!
# Equality of values

Floats are compared as numbers, so a NaN differs from itself and the two zeros are equal. Instances
are equal when they have the same class and, name by name, equal fields; the order of the fields
does not matter.
-/

namespace ObjectSystem

mutual

def Value.beq : Value → Value → Bool
  | .nil, .nil => true
  | .bool a, .bool b => a == b
  | .int a, .int b => a == b
  | .float a, .float b => a == b
  | .str a, .str b => a == b
  | .list xs, .list ys => Value.beqList xs ys
  | .object ⟨s, xs⟩, .object ⟨t, ys⟩ =>
    s == t && xs.length == ys.length && Value.beqFields xs ys
  | _, _ => false

def Value.beqList : List Value → List Value → Bool
  | [], [] => true
  | x :: xs, y :: ys => Value.beq x y && Value.beqList xs ys
  | _, _ => false

/-- Each field of the first list has a field of its name in the second, with an equal value. -/
def Value.beqFields : List (Field Value) → List (Field Value) → Bool
  | [], _ => true
  | ⟨name, _, x⟩ :: rest, ys =>
    (match ys.find? (·.name == name) with
      | some y => Value.beq x y.value
      | none => false) && Value.beqFields rest ys

end

instance : BEq Value := ⟨Value.beq⟩

end ObjectSystem
