import ObjectSystem.Catalog.Resolution
import ObjectSystem.Interning.Interner

/-!
# Registries

A registry is a catalog together with the interner behind its names. Types and members are looked up
by string here; looking up never interns.
-/

namespace ObjectSystem

structure Registry extends Catalog where
  names : Interner := .empty

namespace Registry

instance : Inhabited Registry := ⟨{}⟩

def new (config : Config) (names : Interner) : Registry := { config, names }

/-- The type bound to a qualified name. Anonymous types have no binding. -/
def resolve? (r : Registry) (qualified : String) : Option Handle :=
  (r.names.get? qualified).bind r.symbols.resolve?

def typeName? (r : Registry) (h : Handle) : Option String :=
  (r.typeAt? h).map (r.names.lookup ·.name)

/-- The name of a type for messages; a foreign handle is shown as such. -/
def display (r : Registry) (h : Handle) : String := (r.typeName? h).getD h.text

def memberCalled? (r : Registry) (type : Handle) (label : String) : Option OwnedMember :=
  (r.names.get? label).bind (r.inForce? type)

def can (r : Registry) (type : Handle) (label : String) : Bool :=
  (r.memberCalled? type label).isSome

def ownerOf? (r : Registry) (type : Handle) (label : String) : Option Handle :=
  (r.memberCalled? type label).map OwnedMember.owner

def counts (r : Registry) : Nat × Nat × Nat := (r.size, r.symbols.size, r.names.size)

def keepingNames (before after : Registry) : Registry := { before with names := after.names }

@[simp] theorem keepingNames_toCatalog (before after : Registry) :
    (before.keepingNames after).toCatalog = before.toCatalog := rfl

@[simp] theorem keepingNames_names (before after : Registry) :
    (before.keepingNames after).names = after.names := rfl

/-- What a scratch copy leaves behind: all of it when the edit on it succeeded, and only the
interned strings when it failed. -/
def settle {ε α : Type} (before : Registry) (outcome : Except ε α) (scratch : Registry) :
    Registry :=
  match outcome with
  | .ok _ => scratch
  | .error _ => before.keepingNames scratch

end Registry

end ObjectSystem
