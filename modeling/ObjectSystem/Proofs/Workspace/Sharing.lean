import ObjectSystem.Proofs.Run.Views
import ObjectSystem.Proofs.Workspace.Slots

/-!
# Shared and frozen registries

A registry is shared by any number of handles. Through each of them it is edited and read, other
handles are made, and it is frozen, after which the handle sees a frozen registry. At any time the
slots are of two kinds (`Coherent`): those that share the registry in the first cell, and frozen
ones, whose cells nobody shares and in which everything is sealed. So the frozen registries stay
what they are, while the shared one takes its course.
-/

namespace ObjectSystem

open Registry Catalog Relation

namespace Workspace

def sharing (r : Registry) : Workspace where
  pools := #[r.names]
  cells := #[⟨r.toCatalog, 0⟩]
  slots := #[⟨.shared, 0⟩]

theorem share_eq_sharing (config : Config) (r : Registry) :
    ((({} : Workspace).addNew config).store 0 r).share 0 = some (sharing r) := by
  simp [addNew, addOwned, store, cell?, share, setSlot, sharing]

/-- What is done through the handle in a slot. An edit runs its body on a scratch copy. -/
inductive Step : Workspace → Workspace → Prop
  | edit {w : Workspace} {i : Nat} {s scratch : Registry} {ε α : Type}
      (hshared : w.phase? i = some .shared) (hs : w.registryAt? i = some s)
      (body : Run s scratch) (outcome : Except ε α) : Step w (w.store i (s.settle outcome scratch))
  | read {w : Workspace} {i : Nat} {s : Registry} (hs : w.registryAt? i = some s) (o : Operation)
      (ho : o.IsReading) : Step w (w.store i (o.after s))
  | handle {w v : Workspace} {i : Nat} (h : w.addHandle i = some v) : Step w v
  | freeze {w v : Workspace} {i : Nat} (h : w.freeze i = some v) : Step w v

def Uses : Workspace → Workspace → Prop := ReflTransGen Step

/-- A slot shares the first cell, or it is frozen: all types in its cell are sealed, and nobody
shares the cell. -/
inductive Placed (w : Workspace) : Slot → Prop
  | shared : Placed w ⟨.shared, 0⟩
  | frozen {k : Nat} {c : Catalog} (hc : w.catalogAt? k = some c) (hsealed : c.AllSealed)
      (halone : ∀ j : Nat, w.slots[j]? ≠ some ⟨.shared, k⟩) : Placed w ⟨.frozen, k⟩

/-- The handles share a registry, or they see what has been frozen. -/
structure Coherent (w : Workspace) (s : Registry) : Prop where
  onePool : w.OnePool s.names
  base : w.catalogAt? 0 = some s.toCatalog
  placed : ∀ {i : Nat} {slot : Slot}, w.slots[i]? = some slot → w.Placed slot
  reachable : Reachable s

def KeepsFrozen (w v : Workspace) : Prop :=
  ∀ {i k : Nat} {c : Catalog}, w.slots[i]? = some ⟨.frozen, k⟩ → w.catalogAt? k = some c →
    v.slots[i]? = some ⟨.frozen, k⟩ ∧ v.catalogAt? k = some c

/-- The handle in the slot has been frozen: it sees the view of the registry that it shared, and the
others go on sharing the view. -/
structure Froze (w v : Workspace) (s : Registry) (i : Nat) : Prop where
  coherent : v.Coherent s.view
  keepsFrozen : KeepsFrozen w v
  sees : ∃ k, v.slots[i]? = some ⟨.frozen, k⟩ ∧ v.catalogAt? k = some s.view.toCatalog

variable {w v : Workspace} {s t : Registry} {i k : Nat} {slot : Slot} {c : Catalog}

theorem KeepsFrozen.refl (w : Workspace) : KeepsFrozen w w := fun hi hc => ⟨hi, hc⟩

theorem KeepsFrozen.trans {u : Workspace} (hwv : KeepsFrozen w v) (hvu : KeepsFrozen v u) :
    KeepsFrozen w u := fun hi hc =>
  have ⟨hi', hc'⟩ := hwv hi hc
  hvu hi' hc'

theorem phase?_eq_some {phase : Phase} :
    w.phase? i = some phase ↔ ∃ k, w.slots[i]? = some ⟨phase, k⟩ := by
  rw [phase?, Option.map_eq_some_iff]
  constructor
  · rintro ⟨⟨_, k⟩, hslot, rfl⟩
    exact ⟨k, hslot⟩
  · rintro ⟨k, hslot⟩
    exact ⟨_, hslot, rfl⟩

theorem exists_slot_of_registryAt? (h : w.registryAt? i = some s) :
    ∃ slot, w.slots[i]? = some slot := by
  cases hslot : w.slots[i]? with
  | none => simp [registryAt?, cell?, hslot] at h
  | some slot => exact ⟨slot, rfl⟩

theorem Placed.transfer (h : w.Placed slot)
    (hcatalog : ∀ {k c}, slot = ⟨.frozen, k⟩ → w.catalogAt? k = some c → v.catalogAt? k = some c)
    (hshared : ∀ {j k : Nat}, v.slots[j]? = some ⟨.shared, k⟩ →
      ∃ j : Nat, w.slots[j]? = some ⟨.shared, k⟩) :
    v.Placed slot := by
  cases h with
  | shared => exact .shared
  | frozen hc hsealed halone =>
    refine .frozen (hcatalog rfl hc) hsealed fun j hj => ?_
    obtain ⟨j', hj'⟩ := hshared hj
    exact halone j' hj'

namespace Coherent

theorem registryAt?_eq (hw : w.Coherent s) (hi : w.slots[i]? = some ⟨.shared, 0⟩) :
    w.registryAt? i = some s := by
  rw [hw.onePool.registryAt?_eq hi, hw.base, Option.map_some]

theorem eq_zero_of_shared (hw : w.Coherent s) (hi : w.slots[i]? = some ⟨.shared, k⟩) : k = 0 := by
  cases hw.placed hi with
  | shared => rfl

theorem ne_zero_of_frozen (hw : w.Coherent s) (hi : w.slots[i]? = some ⟨.shared, 0⟩) {j : Nat}
    (hj : w.slots[j]? = some ⟨.frozen, k⟩) : k ≠ 0 := by
  rintro rfl
  cases hw.placed hj with
  | frozen _ _ halone => exact halone i hi

theorem sharing (hr : Reachable s) : (sharing s).Coherent s where
  onePool := ⟨rfl, by simp [Workspace.sharing]⟩
  base := rfl
  placed {i slot} hslot := by
    have hmem := Array.mem_of_getElem? hslot
    simp only [Workspace.sharing, List.mem_toArray, List.mem_singleton] at hmem
    rw [hmem]
    exact .shared
  reachable := hr

/-! ## Steps -/

/-- Through a handle that shares the registry, the registry takes its course. -/
theorem storeShared (hw : w.Coherent s) (hi : w.slots[i]? = some ⟨.shared, 0⟩) (hrun : Run s t) :
    (w.store i t).Coherent t ∧ KeepsFrozen w (w.store i t) := by
  have hslots := slots_store hi hw.base t
  have hcatalog {j k : Nat} {c : Catalog} (hj : w.slots[j]? = some ⟨.frozen, k⟩)
      (hc : w.catalogAt? k = some c) : (w.store i t).catalogAt? k = some c := by
    rw [catalogAt?_store hi hw.base, if_neg (hw.ne_zero_of_frozen hi hj).symm, hc]
  constructor
  · exact {
      onePool := hw.onePool.store hi hw.base t
      base := by rw [catalogAt?_store hi hw.base, if_pos rfl]
      placed := fun {j slot} hj => by
        rw [hslots] at hj
        refine (hw.placed hj).transfer (fun heq hc => hcatalog (heq ▸ hj) hc) fun hshared => ?_
        rw [hslots] at hshared
        exact ⟨_, hshared⟩
      reachable := hw.reachable.run hrun }
  · intro j k c hj hc
    exact ⟨by rwa [hslots], hcatalog hj hc⟩

theorem storeFrozen (hw : w.Coherent s) (hi : w.slots[i]? = some ⟨.frozen, k⟩)
    (hc : w.catalogAt? k = some c) {q : Registry} (hq : q.toCatalog = c)
    (hrun : Run s { s with names := q.names }) :
    (w.store i q).Coherent { s with names := q.names } ∧ KeepsFrozen w (w.store i q) := by
  have hslots := slots_store hi hc q
  have hcatalog (j : Nat) : (w.store i q).catalogAt? j = w.catalogAt? j := by
    rw [catalogAt?_store hi hc, hq]
    split
    · rename_i heq
      rw [← heq, hc]
    · rfl
  constructor
  · exact {
      onePool := hw.onePool.store hi hc q
      base := by rw [hcatalog, hw.base]
      placed := fun {j slot} hj => by
        rw [hslots] at hj
        refine (hw.placed hj).transfer (fun _ hc => by rwa [hcatalog]) fun hshared => ?_
        rw [hslots] at hshared
        exact ⟨_, hshared⟩
      reachable := hw.reachable.run hrun }
  · intro j k c hj hc
    exact ⟨by rwa [hslots], by rwa [hcatalog]⟩

theorem addHandle (hw : w.Coherent s) (h : w.addHandle i = some v) :
    v.Coherent s ∧ KeepsFrozen w v := by
  simp only [Workspace.addHandle, Option.bind_eq_bind, Option.bind_eq_some_iff] at h
  obtain ⟨slot, hslot, h⟩ := h
  split at h <;> cases h
  -- every slot is one of those that were there
  have hold {j : Nat} {other : Slot} (hj : (w.slots.push slot)[j]? = some other) :
      ∃ j : Nat, w.slots[j]? = some other := by
    rw [Array.getElem?_push] at hj
    split at hj
    · cases hj
      exact ⟨i, hslot⟩
    · exact ⟨j, hj⟩
  constructor
  · exact {
      onePool := ⟨hw.onePool.pools_eq, hw.onePool.pool_eq_zero⟩
      base := hw.base
      placed := fun hj => by
        obtain ⟨j, hj⟩ := hold hj
        exact (hw.placed hj).transfer (fun _ hc => hc) hold
      reachable := hw.reachable }
  · intro j k c hj hc
    have hlt := (Array.getElem?_eq_some_iff.mp hj).1
    refine ⟨?_, hc⟩
    rw [Array.getElem?_push, if_neg (Nat.ne_of_lt hlt), hj]

theorem froze (hw : w.Coherent s) (hi : w.slots[i]? = some ⟨.shared, 0⟩)
    (hpool : v.OnePool s.names)
    (hslots : ∀ j : Nat, v.slots[j]? = if i = j then some ⟨.frozen, k⟩ else w.slots[j]?)
    (hzero : v.catalogAt? 0 = some s.sealAll) (hk : v.catalogAt? k = some s.sealAll)
    (hold : ∀ {j : Nat} {c : Catalog}, j ≠ 0 → w.catalogAt? j = some c → v.catalogAt? j = some c)
    (halone : ∀ j : Nat, j ≠ i → w.slots[j]? ≠ some ⟨.shared, k⟩) : Froze w v s i := by
  have hshared {j k' : Nat} (hj : v.slots[j]? = some ⟨.shared, k'⟩) :
      j ≠ i ∧ w.slots[j]? = some ⟨.shared, k'⟩ := by
    rw [hslots] at hj
    split at hj
    · cases hj
    · rename_i hne
      exact ⟨Ne.symm hne, hj⟩
  have hcoherent : v.Coherent s.view := {
    onePool := hpool
    base := hzero
    placed := fun {j slot} hj => by
      rw [hslots] at hj
      split at hj
      · cases hj
        refine .frozen hk (allSealed_view s) fun j' hj' => ?_
        obtain ⟨hne, hj'⟩ := hshared hj'
        exact halone j' hne hj'
      · refine (hw.placed hj).transfer (fun heq hc => ?_) fun hj' => ⟨_, (hshared hj').2⟩
        exact hold (hw.ne_zero_of_frozen hi (heq ▸ hj)) hc
    reachable := hw.reachable.view }
  have hkeeps : KeepsFrozen w v := by
    intro j k' c hj hc
    refine ⟨?_, hold (hw.ne_zero_of_frozen hi hj) hc⟩
    rw [hslots]
    split
    · rename_i heq
      rw [← heq, hi] at hj
      cases hj
    · exact hj
  exact ⟨hcoherent, hkeeps, k, by rw [hslots, if_pos rfl], hk⟩

end Coherent

end Workspace

end ObjectSystem
