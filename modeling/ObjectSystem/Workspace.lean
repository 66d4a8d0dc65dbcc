import ObjectSystem.Registry.Construction
import ObjectSystem.Registry.Editing

/-!
# Workspaces

A workspace holds registries in numbered slots. A slot owns its registry, shares it with other slots
while it is being declared, or holds it frozen, when everything in it is sealed and no edit is
allowed any more.

Two things can be common to several slots: the catalog behind shared or frozen slots, and the
interner behind catalogs that were made from one another. Both are stored once and referred to by
number, so a change through one slot is seen through all that refer to the same thing.
-/

namespace ObjectSystem

inductive Phase where
  | owned
  | shared
  | frozen
  deriving DecidableEq, Repr

/-- A way to a registry: the stage it is in, and the number of the cell that holds it. -/
structure Slot where
  phase : Phase
  cell : Nat
  deriving DecidableEq, Repr

structure Cell where
  catalog : Catalog
  pool : Nat

structure Workspace where
  pools : Array Interner := #[]
  cells : Array Cell := #[]
  slots : Array Slot := #[]

namespace Workspace

def cell? (w : Workspace) (slot : Nat) : Option Cell := do
  let s ← w.slots[slot]?
  w.cells[s.cell]?

def registryAt? (w : Workspace) (slot : Nat) : Option Registry := do
  let cell ← w.cell? slot
  let names ← w.pools[cell.pool]?
  return { cell.catalog with names }

def phase? (w : Workspace) (slot : Nat) : Option Phase := (w.slots[slot]?).map Slot.phase

/-- Puts a registry in the place of the one seen through a slot. -/
def store (w : Workspace) (slot : Nat) (r : Registry) : Workspace :=
  match w.slots[slot]?, w.cell? slot with
  | some s, some cell =>
    { w with
      pools := w.pools.setIfInBounds cell.pool r.names
      cells := w.cells.setIfInBounds s.cell ⟨r.toCatalog, cell.pool⟩ }
  | _, _ => w

theorem registryAt?_store {w : Workspace} {slot : Nat} {r old : Registry}
    (h : w.registryAt? slot = some old) : (w.store slot r).registryAt? slot = some r := by
  simp only [registryAt?, cell?, Option.bind_eq_bind, Option.bind_eq_some_iff] at h
  obtain ⟨cell, ⟨s, hs, hc⟩, names, hn, -⟩ := h
  obtain ⟨hcell, rfl⟩ := Array.getElem?_eq_some_iff.mp hc
  obtain ⟨hpool, -⟩ := Array.getElem?_eq_some_iff.mp hn
  simp [registryAt?, cell?, store, hs, hcell, hpool]

def addOwned (w : Workspace) (catalog : Catalog) (pool : Nat) : Workspace :=
  { w with
    cells := w.cells.push ⟨catalog, pool⟩
    slots := w.slots.push ⟨.owned, w.cells.size⟩ }

def addNew (w : Workspace) (config : Config) : Workspace :=
  { w with pools := w.pools.push .empty }.addOwned { config } w.pools.size

def addSharing (w : Workspace) (slot : Nat) (config : Config) : Option Workspace :=
  (w.cell? slot).map fun cell => w.addOwned { config } cell.pool

/-- Adds a slot that owns a copy of a registry; the interner is common to both. -/
def addCopy (w : Workspace) (slot : Nat) : Option Workspace :=
  (w.cell? slot).map fun cell => w.addOwned cell.catalog cell.pool

def addHandle (w : Workspace) (slot : Nat) : Option Workspace := do
  let s ← w.slots[slot]?
  if s.phase = .owned then none else some { w with slots := w.slots.push s }

def setSlot (w : Workspace) (slot : Nat) (s : Slot) : Workspace :=
  { w with slots := w.slots.setIfInBounds slot s }

def share (w : Workspace) (slot : Nat) : Option Workspace := do
  let s ← w.slots[slot]?
  if s.phase = .owned then some (w.setSlot slot { s with phase := .shared }) else none

def sealCell (w : Workspace) (cell : Nat) : Workspace :=
  { w with cells := w.cells.modify cell fun c => { c with catalog := c.catalog.sealAll } }

def sharers (w : Workspace) (cell : Nat) : Nat :=
  w.slots.countP fun s => decide (s = ⟨.shared, cell⟩)

/-- Ends the declaration of a registry: all its types are sealed. A slot that shares the registry
with others gets a frozen copy, while they keep theirs, in which all types so far are sealed too. -/
def freeze (w : Workspace) (slot : Nat) : Option Workspace := do
  let s ← w.slots[slot]?
  if s.phase = .frozen then return w
  let w := w.sealCell s.cell
  if s.phase = .shared && decide (1 < w.sharers s.cell) then
    let copy ← w.cells[s.cell]?
    return { w with cells := w.cells.push copy }.setSlot slot ⟨.frozen, w.cells.size⟩
  else return w.setSlot slot ⟨.frozen, s.cell⟩

end Workspace

end ObjectSystem
