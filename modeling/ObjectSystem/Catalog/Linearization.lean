import ObjectSystem.Catalog.Basic

/-!
# Linearization

The resolution order of a type is the type itself and its ancestor classes, nearest first, and then
the roles these reach, class by class. The roles of one class come breadth first, in the order in
which they are consumed; a role reached before is not listed again.

Both searches are bounded by the number of types: neither a chain of parents nor a set of roles
can be longer than that when no type is its own ancestor.
-/

namespace ObjectSystem.Catalog

def climb (c : Catalog) : Nat → Handle → List Handle
  | 0, _ => []
  | fuel + 1, h =>
    match c.typeAt? h with
    | none => []
    | some t =>
      h :: match t.parent with
        | none => []
        | some parent => c.climb fuel parent

/-- A type and its ancestor classes, nearest first. A role stands alone; an unknown handle has no
lineage. -/
def lineage (c : Catalog) (h : Handle) : List Handle := c.climb c.size h

/-- Breadth-first search along consumed roles. `pending` are the types whose roles are yet to be
visited, in order; the roles found are added to the end of `found`. -/
def explore (c : Catalog) : Nat → List Handle → List Handle → List Handle
  | 0, _, found => found
  | _, [], found => found
  | fuel + 1, h :: pending, found =>
    let fresh := (c.rolesOf h).filter (· ∉ found)
    c.explore fuel (pending ++ fresh) (found ++ fresh)

def exploreFrom (c : Catalog) (found : List Handle) (cls : Handle) : List Handle :=
  c.explore (c.size + 1) [cls] found

def resolutionOrder (c : Catalog) (h : Handle) : List Handle :=
  (c.lineage h).foldl c.exploreFrom (c.lineage h)

def reachableRoles (c : Catalog) (h : Handle) : List Handle :=
  (c.resolutionOrder h).drop (c.lineage h).length

def isA (c : Catalog) (subject target : Handle) : Bool := target ∈ c.lineage subject

/-- The target is a role that the subject reaches. A role does itself, a class never does. -/
def does (c : Catalog) (subject target : Handle) : Bool :=
  c.isRole target && (subject == target || decide (target ∈ c.reachableRoles subject))

end ObjectSystem.Catalog
