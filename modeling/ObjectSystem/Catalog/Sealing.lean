import ObjectSystem.Catalog.Linearization

/-!
# Sealing

A type whose structure is relied on is sealed with everything in its resolution order, and stays
so.
-/

namespace ObjectSystem.Catalog

def isOpen (c : Catalog) (h : Handle) : Bool := (c.typeAt? h).any (!·.isSealed)

def isSealed (c : Catalog) (h : Handle) : Bool := (c.typeAt? h).any TypeEntry.isSealed

def sealOne (c : Catalog) (h : Handle) : Catalog := c.modify h TypeEntry.asSealed

def sealEach (c : Catalog) (hs : List Handle) : Catalog := hs.foldl sealOne c

def sealType (c : Catalog) (h : Handle) : Catalog := c.sealEach (c.resolutionOrder h)

/-- How many types `sealType` would seal that are not sealed yet. -/
def openInOrder (c : Catalog) (h : Handle) : Nat := (c.resolutionOrder h).countP c.isOpen

def sealAll (c : Catalog) : Catalog := { c with types := c.types.map TypeEntry.asSealed }

def openCount (c : Catalog) : Nat := c.types.countP (!·.isSealed)

end ObjectSystem.Catalog
