import ObjectSystem.Catalog.SymbolTable
import ObjectSystem.Catalog.TypeEntry

/-!
# The catalog

Everything that a registry declares, apart from the strings behind the names: the types in the order
of their declaration, the names they are bound to, and the settings. The functions here change one
place of the catalog each and check nothing.
-/

namespace ObjectSystem

structure Config where
  /-- Keys that name no attribute are an error when an instance is made. -/
  rejectsUnknownKeys : Bool := false
  /-- The namespace of the names that are generated for anonymous types. -/
  generatedSpace : String := "__ANON__"
  deriving DecidableEq, Repr

def Config.strict : Config := { rejectsUnknownKeys := true }

structure Catalog where
  types : Array TypeEntry := #[]
  symbols : SymbolTable := {}
  config : Config := {}
  anonymousCount : Nat := 0

namespace Catalog

instance : Inhabited Catalog := ⟨{}⟩

def typeAt? (c : Catalog) (h : Handle) : Option TypeEntry := c.types[h.index]?

def size (c : Catalog) : Nat := c.types.size

def isEmpty (c : Catalog) : Bool := c.types.isEmpty

def nextHandle (c : Catalog) : Handle := ⟨c.types.size⟩

def isClass (c : Catalog) (h : Handle) : Bool := (c.typeAt? h).any TypeEntry.isClass

def isRole (c : Catalog) (h : Handle) : Bool := (c.typeAt? h).any TypeEntry.isRole

def parent? (c : Catalog) (h : Handle) : Option Handle := (c.typeAt? h).bind TypeEntry.parent

def rolesOf (c : Catalog) (h : Handle) : List Handle := ((c.typeAt? h).map TypeEntry.roles).getD []

def membersOf (c : Catalog) (h : Handle) : List Member :=
  ((c.typeAt? h).map TypeEntry.members).getD []

def declares (c : Catalog) (h : Handle) (name : Name) : Bool :=
  (c.typeAt? h).any (·.declares name)

def modify (c : Catalog) (h : Handle) (f : TypeEntry → TypeEntry) : Catalog :=
  { c with types := c.types.modify h.index f }

@[simp] theorem size_modify (c : Catalog) (h : Handle) (f : TypeEntry → TypeEntry) :
    (c.modify h f).size = c.size := by
  simp [modify, size]

theorem typeAt?_modify (c : Catalog) (h k : Handle) (f : TypeEntry → TypeEntry) :
    (c.modify h f).typeAt? k = if h = k then (c.typeAt? k).map f else c.typeAt? k := by
  obtain ⟨i⟩ := h
  obtain ⟨j⟩ := k
  simp only [modify, typeAt?, Array.getElem?_modify, Handle.mk.injEq]

def addParent (c : Catalog) (type parent : Handle) : Catalog := c.modify type (·.withParent parent)

def addRole (c : Catalog) (type role : Handle) : Catalog := c.modify type (·.withRole role)

def addMember (c : Catalog) (type : Handle) (m : Member) : Catalog :=
  c.modify type (·.withMember m)

def push (c : Catalog) (t : TypeEntry) (symbols : SymbolTable) : Catalog :=
  { c with types := c.types.push t, symbols }

def pushAnonymous (c : Catalog) (t : TypeEntry) : Catalog :=
  { c with types := c.types.push t, anonymousCount := c.anonymousCount + 1 }

end Catalog

end ObjectSystem
