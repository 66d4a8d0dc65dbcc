/-!
# Type handles

A type is referred to by its `Handle`, the position at which it was declared. A handle may be
foreign: nothing ties it to a type that exists.
-/

namespace ObjectSystem

structure Handle where
  index : Nat
  deriving DecidableEq, Repr, Inhabited

def Handle.text (h : Handle) : String := s!"TypeIdx({h.index})"

/-- The two kinds of types: classes have instances and a parent, roles are bundles of members. -/
inductive Kind where
  | cls
  | role
  deriving DecidableEq, Repr

def Kind.word : Kind → String
  | .cls => "class"
  | .role => "role"

end ObjectSystem
