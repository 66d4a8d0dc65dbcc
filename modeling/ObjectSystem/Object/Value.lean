import ObjectSystem.Handle
import ObjectSystem.Interning.Name

/-!
# Values and instances

A field holds a dynamically typed `Value`; an `Instance` is a value made of fields, together with
the handle of its class. A field knows its interned name and the string behind it, so that an
instance can be read by string wherever it is taken. The string is the one that had the name when
the instance was made; it is empty if there was none.
-/

namespace ObjectSystem

/-- A stored attribute: its interned name, the string behind it, and what it holds. -/
structure Field (α : Type) where
  name : Name
  label : String
  value : α

/-- A type handle with fields, in the order in which the type resolves its attributes. -/
structure Record (α : Type) where
  type : Handle
  fields : List (Field α)

inductive Value where
  | nil
  | bool (b : Bool)
  | int (n : Int64)
  | float (x : Float)
  | str (s : String)
  | list (items : List Value)
  | object (o : Record Value)

abbrev Instance := Record Value

namespace Value

instance : Inhabited Value := ⟨.nil⟩

def str? : Value → Option String
  | .str s => some s
  | _ => none

def int? : Value → Option Int64
  | .int n => some n
  | _ => none

def object? : Value → Option Instance
  | .object o => some o
  | _ => none

def isNil : Value → Bool
  | .nil => true
  | _ => false

end Value

namespace Record

variable {α : Type}

def field? (r : Record α) (name : Name) : Option α :=
  (r.fields.find? (·.name == name)).map Field.value

def get? (r : Record α) (label : String) : Option α :=
  (r.fields.find? (·.label == label)).map Field.value

def size (r : Record α) : Nat := r.fields.length

def isEmpty (r : Record α) : Bool := r.fields.isEmpty

def sortedFields (r : Record α) : List (Field α) :=
  r.fields.mergeSort fun a b => a.label ≤ b.label

end Record

end ObjectSystem
