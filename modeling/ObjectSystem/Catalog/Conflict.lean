import ObjectSystem.Catalog.Linearization

/-!
# Role conflicts

A role provides its own members and, of the names it does not declare itself, those that the roles
it consumes provide; several roles may stand behind one name. A class that consumes roles must
settle such a name by declaring it, or by inheriting from a class that does. Otherwise the name is a
conflict.
-/

namespace ObjectSystem

structure Provision where
  member : Name
  roles : List Handle
  deriving DecidableEq

namespace Provision

/-- The roles of both lists, each once: the second list adds what the first does not have. -/
def unite (known more : List Handle) : List Handle :=
  more.foldl (fun found role => if role ∈ found then found else found ++ [role]) known

/-- Adds a provision: its roles go to the entry of its name, which comes last if it is new. -/
def insert : List Provision → Provision → List Provision
  | [], p => [p]
  | q :: rest, p =>
    if q.member = p.member then ⟨q.member, unite q.roles p.roles⟩ :: rest
    else q :: insert rest p

def merge (known more : List Provision) : List Provision := more.foldl insert known

end Provision

namespace Catalog

def united (provided : Handle → List Provision) (roles : List Handle) : List Provision :=
  roles.foldl (fun known r => Provision.merge known (provided r)) []

def provisionsFrom (c : Catalog) (provided : Handle → List Provision) (role : Handle) :
    List Provision :=
  match c.typeAt? role with
  | none => []
  | some t =>
    t.members.map (fun m => ⟨m.name, [role]⟩) ++
      (united provided t.roles).filter fun p => !t.declares p.member

def provisionsWithin (c : Catalog) : Nat → Handle → List Provision
  | 0, _ => []
  | fuel + 1, role => c.provisionsFrom (c.provisionsWithin fuel) role

/-- What a role provides: its own members, and of the other names those of the roles it consumes. -/
def provisions (c : Catalog) (role : Handle) : List Provision := c.provisionsWithin c.size role

def consumedProvisions (c : Catalog) (type : Handle) : List Provision :=
  united c.provisions (c.rolesOf type)

def settles (c : Catalog) (cls : Handle) (name : Name) : Bool :=
  (c.lineage cls).any (c.declares · name)

/-- The names that several of the roles a class consumes provide and that it does not settle. Roles
have none: their conflicts arise in the classes that consume them. -/
def conflicts (c : Catalog) (type : Handle) : List Provision :=
  if c.isClass type then
    (c.consumedProvisions type).filter fun p =>
      decide (1 < p.roles.length) && !c.settles type p.member
  else []

/-- The classes whose conflicts depend on the roles and members of a type: the type itself if it is
a class, and for a role every class that reaches it, in order of declaration. -/
def affectedClasses (c : Catalog) (type : Handle) : List Handle :=
  if c.isClass type then [type]
  else
    (c.types.toList.filter fun t => t.isClass && decide (type ∈ c.reachableRoles t.handle)).map
      TypeEntry.handle

def firstConflict? (c : Catalog) (type : Handle) : Option (Handle × Provision) :=
  (c.affectedClasses type).findSome? fun cls => (c.conflicts cls).head?.map (cls, ·)

end Catalog

end ObjectSystem
