import ObjectSystem.Catalog.Linearization

/-!
# Member resolution

Of the members of a name, the one that comes first in the resolution order is in force: own members
before inherited ones, and those of classes before those of roles.
-/

namespace ObjectSystem

structure OwnedMember where
  owner : Handle
  member : Member

namespace Catalog

def ownMember? (c : Catalog) (owner : Handle) (name : Name) : Option OwnedMember :=
  ((c.typeAt? owner).bind (·.member? name)).map (⟨owner, ·⟩)

def inForce? (c : Catalog) (type : Handle) (name : Name) : Option OwnedMember :=
  (c.resolutionOrder type).findSome? (c.ownMember? · name)

/-- Adds members whose names are not yet among those collected. -/
def collect (found : List OwnedMember) (m : OwnedMember) : List OwnedMember :=
  if found.any (·.member.name == m.member.name) then found else found ++ [m]

def declaredMembers (c : Catalog) (type : Handle) : List OwnedMember :=
  (c.resolutionOrder type).flatMap fun owner => (c.membersOf owner).map (⟨owner, ·⟩)

/-- The members that are in force for the type, in resolution order, one of each name. -/
def membersInForce (c : Catalog) (type : Handle) : List OwnedMember :=
  (c.declaredMembers type).foldl collect []

def attributesInForce (c : Catalog) (type : Handle) : List (Name × Attribute) :=
  (c.membersInForce type).filterMap fun m => m.member.kind.attribute?.map (m.member.name, ·)

end Catalog

end ObjectSystem
