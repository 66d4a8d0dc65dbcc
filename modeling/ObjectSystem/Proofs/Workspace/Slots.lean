import ObjectSystem.Workspace

/-!
# Slots of one pool

When all catalogs of a workspace have their names in one pool, its registries are told by the
catalog in each cell and by the interner. Each change of a workspace is described here by what it
does to the cells, one by one, and to the slots.
-/

namespace ObjectSystem.Workspace

variable {w : Workspace} {names : Interner} {i j k : Nat} {s : Slot} {c : Catalog} {r : Registry}

def catalogAt? (w : Workspace) (cell : Nat) : Option Catalog := (w.cells[cell]?).map Cell.catalog

/-- The workspace has one pool, and all catalogs have their names in it. -/
structure OnePool (w : Workspace) (names : Interner) : Prop where
  pools_eq : w.pools = #[names]
  pool_eq_zero : ∀ cell ∈ w.cells, cell.pool = 0

theorem lt_size_of_catalogAt? (h : w.catalogAt? k = some c) : k < w.cells.size := by
  obtain ⟨cell, hcell, -⟩ := Option.map_eq_some_iff.mp h
  exact (Array.getElem?_eq_some_iff.mp hcell).1

theorem OnePool.registryAt?_eq (hw : w.OnePool names) (hs : w.slots[i]? = some s) :
    w.registryAt? i = (w.catalogAt? s.cell).map fun c => { c with names } := by
  simp only [registryAt?, cell?, hs, catalogAt?, Option.bind_eq_bind, Option.bind_some]
  cases hcell : w.cells[s.cell]? with
  | none => rfl
  | some cell =>
    have hpool := hw.pool_eq_zero cell (Array.mem_of_getElem? hcell)
    simp [hpool, hw.pools_eq]

/-! ## Storing -/

section

variable (hw : w.OnePool names) (hs : w.slots[i]? = some s) (hc : w.catalogAt? s.cell = some c)

include hs hc

theorem slots_store (r : Registry) : (w.store i r).slots = w.slots := by
  obtain ⟨cell, hcell, -⟩ := Option.map_eq_some_iff.mp hc
  simp [store, cell?, hs, hcell]

theorem catalogAt?_store (r : Registry) (k : Nat) :
    (w.store i r).catalogAt? k = if s.cell = k then some r.toCatalog else w.catalogAt? k := by
  obtain ⟨cell, hcell, -⟩ := Option.map_eq_some_iff.mp hc
  have hlt := lt_size_of_catalogAt? hc
  simp only [store, cell?, hs, hcell, catalogAt?, Option.bind_eq_bind, Option.bind_some,
    Array.getElem?_setIfInBounds, hlt, if_true]
  split <;> rfl

include hw

theorem OnePool.store (r : Registry) : (w.store i r).OnePool r.names := by
  obtain ⟨cell, hcell, -⟩ := Option.map_eq_some_iff.mp hc
  have hpool := hw.pool_eq_zero cell (Array.mem_of_getElem? hcell)
  simp only [Workspace.store, cell?, hs, hcell, Option.bind_eq_bind, Option.bind_some]
  constructor
  · simp [hw.pools_eq, hpool]
  · intro other hother
    rcases Array.mem_or_eq_of_mem_setIfInBounds hother with hold | rfl
    · exact hw.pool_eq_zero other hold
    · exact hpool

end

/-! ## Sealing and copying a cell -/

theorem catalogAt?_sealCell (w : Workspace) (k j : Nat) :
    (w.sealCell k).catalogAt? j =
      if k = j then (w.catalogAt? j).map Catalog.sealAll else w.catalogAt? j := by
  simp only [sealCell, catalogAt?, Array.getElem?_modify]
  split
  · rw [Option.map_map, Option.map_map]
    rfl
  · rfl

theorem size_sealCell (w : Workspace) (k : Nat) : (w.sealCell k).cells.size = w.cells.size := by
  simp [sealCell]

theorem OnePool.sealCell (hw : w.OnePool names) (k : Nat) : (w.sealCell k).OnePool names where
  pools_eq := hw.pools_eq
  pool_eq_zero cell hcell := by
    obtain ⟨j, hj⟩ := Array.getElem?_of_mem hcell
    simp only [Workspace.sealCell, Array.getElem?_modify] at hj
    split at hj
    · obtain ⟨old, hold, rfl⟩ := Option.map_eq_some_iff.mp hj
      exact hw.pool_eq_zero old (Array.mem_of_getElem? hold)
    · exact hw.pool_eq_zero cell (Array.mem_of_getElem? hj)

def addCell (w : Workspace) (cell : Cell) : Workspace := { w with cells := w.cells.push cell }

theorem catalogAt?_addCell (w : Workspace) (cell : Cell) (j : Nat) :
    (w.addCell cell).catalogAt? j =
      if j = w.cells.size then some cell.catalog else w.catalogAt? j := by
  simp only [addCell, catalogAt?, Array.getElem?_push]
  split <;> rfl

theorem OnePool.addCell {cell : Cell} (hw : w.OnePool names) (hcell : cell.pool = 0) :
    (w.addCell cell).OnePool names where
  pools_eq := hw.pools_eq
  pool_eq_zero other hother := by
    rcases Array.mem_push.mp hother with hold | rfl
    · exact hw.pool_eq_zero other hold
    · exact hcell

/-! ## Slots -/

theorem slots_setSlot (hs : w.slots[i]? = some s) (new : Slot) (j : Nat) :
    (w.setSlot i new).slots[j]? = if i = j then some new else w.slots[j]? := by
  have hlt := (Array.getElem?_eq_some_iff.mp hs).1
  simp only [setSlot, Array.getElem?_setIfInBounds, hlt, if_true]

theorem OnePool.setSlot (hw : w.OnePool names) (i : Nat) (s : Slot) :
    (w.setSlot i s).OnePool names :=
  ⟨hw.pools_eq, hw.pool_eq_zero⟩

/-- Where a cell has one sharer only, no two slots share it. -/
theorem eq_of_sharers_le_one (hle : w.sharers k ≤ 1) (hi : w.slots[i]? = some ⟨.shared, k⟩)
    (hj : w.slots[j]? = some ⟨.shared, k⟩) : i = j := by
  obtain ⟨hlt, hslot⟩ := Array.getElem?_eq_some_iff.mp hi
  refine Decidable.byContradiction fun hne => ?_
  -- with the first slot taken out, none would be left
  have hcount := Array.countP_set (p := fun s : Slot => decide (s = ⟨.shared, k⟩))
    (a := ⟨.frozen, k⟩) hlt
  have hzero : (w.slots.set i ⟨.frozen, k⟩).countP (fun s => decide (s = ⟨.shared, k⟩)) = 0 := by
    simp only [sharers] at hle
    simp only [hslot, decide_true, if_true] at hcount
    simp at hcount
    omega
  have hmem : (⟨.shared, k⟩ : Slot) ∈ w.slots.set i ⟨.frozen, k⟩ := by
    apply Array.mem_of_getElem? (i := j)
    rw [Array.getElem?_set_ne _ hne, hj]
  exact Array.countP_eq_zero.mp hzero _ hmem (by simp)

/-! ## Freezing -/

theorem freeze_of_frozen (hs : w.slots[i]? = some ⟨.frozen, k⟩) : w.freeze i = some w := by
  simp [freeze, hs]

theorem freeze_of_sharers_le_one (hs : w.slots[i]? = some ⟨.shared, k⟩) (hle : w.sharers k ≤ 1) :
    w.freeze i = some ((w.sealCell k).setSlot i ⟨.frozen, k⟩) := by
  have hsharers : ¬ 1 < (w.sealCell k).sharers k := Nat.not_lt.mpr hle
  simp [freeze, hs, hsharers]

theorem freeze_of_one_lt_sharers (hs : w.slots[i]? = some ⟨.shared, k⟩) (hlt : 1 < w.sharers k)
    {copy : Cell} (hcopy : (w.sealCell k).cells[k]? = some copy) :
    w.freeze i = some
      (((w.sealCell k).addCell copy).setSlot i ⟨.frozen, w.cells.size⟩) := by
  have hsharers : 1 < (w.sealCell k).sharers k := hlt
  simp [freeze, hs, hsharers, hcopy, addCell, size_sealCell]

end ObjectSystem.Workspace
