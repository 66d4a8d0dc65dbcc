import ObjectSystem.Proofs.Workspace.Sharing

/-!
# Freezing

Freezing works for every handle that shares a registry, be it the last one or one of several. What
it gives is the view of the registry at that moment, which no later use changes, and which the
registry that others go on sharing upholds (`reachable_freeze`).
-/

namespace ObjectSystem

open Registry Catalog Relation

namespace Workspace

variable {w v : Workspace} {r s : Registry} {i k : Nat}

/-! ## Both ways of freezing -/

section

variable (hw : w.Coherent s) (hi : w.slots[i]? = some ⟨.shared, 0⟩)

include hw

theorem Coherent.catalogAt?_sealCell_base : (w.sealCell 0).catalogAt? 0 = some s.sealAll := by
  rw [catalogAt?_sealCell, if_pos rfl, hw.base, Option.map_some]

include hi

theorem Coherent.freeze_last (hone : w.sharers 0 ≤ 1) :
    ∃ v, w.freeze i = some v ∧ Froze w v s i := by
  have hbase := hw.catalogAt?_sealCell_base
  have hslots := slots_setSlot (w := w.sealCell 0) hi ⟨.frozen, 0⟩
  have hold {j : Nat} {c : Catalog} (hj : j ≠ 0) (hc : w.catalogAt? j = some c) :
      (w.sealCell 0).catalogAt? j = some c := by
    rw [catalogAt?_sealCell, if_neg hj.symm, hc]
  have halone (j : Nat) (hne : j ≠ i) : w.slots[j]? ≠ some ⟨.shared, 0⟩ :=
    fun hj => hne (eq_of_sharers_le_one hone hj hi)
  exact ⟨_, freeze_of_sharers_le_one hi hone,
    hw.froze hi ((hw.onePool.sealCell 0).setSlot i _) hslots hbase hbase hold halone⟩

theorem Coherent.freeze_copy (hmany : 1 < w.sharers 0) :
    ∃ v, w.freeze i = some v ∧ Froze w v s i := by
  have hbase := hw.catalogAt?_sealCell_base
  obtain ⟨copy, hcopy, hcatalog⟩ := Option.map_eq_some_iff.mp hbase
  have hsealed := hw.onePool.sealCell 0
  have hpool := hsealed.addCell (hsealed.pool_eq_zero copy (Array.mem_of_getElem? hcopy))
  have hslots := slots_setSlot (w := (w.sealCell 0).addCell copy) hi ⟨.frozen, w.cells.size⟩
  have hcells (j : Nat) : ((w.sealCell 0).addCell copy).catalogAt? j =
      if j = w.cells.size then some s.sealAll else (w.sealCell 0).catalogAt? j := by
    rw [catalogAt?_addCell, hcatalog, size_sealCell]
  have hfirst : ((w.sealCell 0).addCell copy).catalogAt? 0 = some s.sealAll := by
    rw [hcells, if_neg (Nat.ne_of_lt (lt_size_of_catalogAt? hw.base)), hbase]
  have hlast : ((w.sealCell 0).addCell copy).catalogAt? w.cells.size = some s.sealAll := by
    rw [hcells, if_pos rfl]
  have hold {j : Nat} {c : Catalog} (hj : j ≠ 0) (hc : w.catalogAt? j = some c) :
      ((w.sealCell 0).addCell copy).catalogAt? j = some c := by
    rw [hcells, if_neg (Nat.ne_of_lt (lt_size_of_catalogAt? hc)), catalogAt?_sealCell,
      if_neg hj.symm, hc]
  -- the new cell is not the first one, which is the only one that is shared
  have halone (j : Nat) (_ : j ≠ i) : w.slots[j]? ≠ some ⟨.shared, w.cells.size⟩ :=
    fun hj => Nat.ne_of_gt (lt_size_of_catalogAt? hw.base) (hw.eq_zero_of_shared hj)
  exact ⟨_, freeze_of_one_lt_sharers hi hmany hcopy,
    hw.froze hi (hpool.setSlot i _) hslots hfirst hlast hold halone⟩

theorem Coherent.exists_freeze : ∃ v, w.freeze i = some v ∧ Froze w v s i := by
  rcases Nat.lt_or_ge 1 (w.sharers 0) with hmany | hone
  · exact hw.freeze_copy hi hmany
  · exact hw.freeze_last hi hone

end

/-! ## Uses -/

theorem exists_slot_of_freeze (h : w.freeze i = some v) : ∃ slot, w.slots[i]? = some slot := by
  cases hslot : w.slots[i]? with
  | none => simp [Workspace.freeze, hslot] at h
  | some slot => exact ⟨slot, rfl⟩

/-- Whatever is done through a handle, the shared registry takes its course and the frozen ones
stay. -/
theorem Step.coherent (h : Step w v) (hw : w.Coherent s) :
    ∃ t, v.Coherent t ∧ Run s t ∧ KeepsFrozen w v := by
  cases h with
  | edit hshared hs body outcome =>
    obtain ⟨k, hi⟩ := phase?_eq_some.mp hshared
    obtain rfl := hw.eq_zero_of_shared hi
    obtain rfl := Option.some.inj ((hw.registryAt?_eq hi).symm.trans hs)
    have hrun := Run.transaction (.start s) body outcome
    obtain ⟨hv, hkeeps⟩ := hw.storeShared hi hrun
    exact ⟨_, hv, hrun, hkeeps⟩
  | read hs o ho =>
    obtain ⟨slot, hi⟩ := exists_slot_of_registryAt? hs
    cases hw.placed hi with
    | shared =>
      obtain rfl := Option.some.inj ((hw.registryAt?_eq hi).symm.trans hs)
      have hrun := Run.perform (.start s) o
      obtain ⟨hv, hkeeps⟩ := hw.storeShared hi hrun
      exact ⟨_, hv, hrun, hkeeps⟩
    | @frozen k c hc hsealed _ =>
      rw [hw.onePool.registryAt?_eq hi, hc] at hs
      obtain rfl := Option.some.inj hs
      have hrun := run_names_after (s := s) (r := { c with names := s.names }) ho rfl
      obtain ⟨hv, hkeeps⟩ :=
        hw.storeFrozen hi hc (toCatalog_after_of_isReading ho hsealed) hrun
      exact ⟨_, hv, hrun, hkeeps⟩
  | handle h =>
    obtain ⟨hv, hkeeps⟩ := hw.addHandle h
    exact ⟨s, hv, .start s, hkeeps⟩
  | freeze h =>
    obtain ⟨slot, hi⟩ := exists_slot_of_freeze h
    cases hw.placed hi with
    | shared =>
      obtain ⟨v', hfreeze, hfroze⟩ := hw.exists_freeze hi
      obtain rfl := Option.some.inj (hfreeze.symm.trans h)
      exact ⟨s.view, hfroze.coherent, .perform (.start s) .sealAll, hfroze.keepsFrozen⟩
    | frozen _ _ _ =>
      obtain rfl := Option.some.inj ((freeze_of_frozen hi).symm.trans h)
      exact ⟨s, hw, .start s, KeepsFrozen.refl _⟩

theorem Uses.coherent (h : Uses w v) (hw : w.Coherent s) :
    ∃ t, v.Coherent t ∧ Run s t ∧ KeepsFrozen w v := by
  induction h with
  | refl => exact ⟨s, hw, .start s, KeepsFrozen.refl _⟩
  | tail _ hstep ih =>
    obtain ⟨t, ht, hst, hkeeps⟩ := ih
    obtain ⟨u, hu, htu, hkeeps'⟩ := hstep.coherent ht
    exact ⟨u, hu, hst.trans htu, hkeeps.trans hkeeps'⟩

def sharingTwice (r : Registry) : Workspace :=
  { sharing r with slots := #[⟨.shared, 0⟩, ⟨.shared, 0⟩] }

/-- A registry that two handles shared, frozen by the first of them. -/
def frozenFirst (r : Registry) : Workspace where
  pools := #[r.names]
  cells := #[⟨r.sealAll, 0⟩, ⟨r.sealAll, 0⟩]
  slots := #[⟨.frozen, 1⟩, ⟨.shared, 0⟩]

theorem addHandle_sharing (r : Registry) : (sharing r).addHandle 0 = some (sharingTwice r) := rfl

theorem freeze_sharingTwice (r : Registry) : (sharingTwice r).freeze 0 = some (frozenFirst r) := rfl

def fenWithCows : Workspace := (frozenFirst fen).store 1 (declareCow.after fen.view)

end Workspace

end ObjectSystem
