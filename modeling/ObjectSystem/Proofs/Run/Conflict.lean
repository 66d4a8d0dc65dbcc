import ObjectSystem.Proofs.Conflict.Lookup
import ObjectSystem.Proofs.Run.Graph

/-!
# No conflicts along runs

No step leaves a class with a conflict: what it adds either has been checked, or the classes that
could notice it settle no less than before. So in a reachable registry the members that are looked
up are those of the roles that the rule about conflicts leaves.
-/

namespace ObjectSystem.Registry

open Catalog

variable {r s : Registry}

theorem Step.settled (h : Step r s) (hr : r.Settled) : s.Settled := by
  cases h with
  | intern => exact hr
  | declare _ _ _ hparent hnext =>
    obtain ⟨-, -, happends⟩ := place_eq_ok hnext
    exact hr.append happends rfl
      (happends.wellFormed hr.wellFormed rfl rfl (fun p => TypeEntry.isClass_of_parent) hparent)
  | extend h => exact hr.addParent h
  | consume h hchecked => exact hr.addRole h hchecked
  | addMember hopen _ hchecked => exact hr.addMember hopen hchecked
  | sealType type => exact hr.of_seals (seals_sealType _ type)
  | sealAll => exact hr.of_seals (seals_sealAll _)

theorem Reachable.settled (h : Reachable r) : r.Settled := by
  obtain ⟨config, strings, hrun⟩ := h
  exact hrun.evolves.preserves Step.settled (settled_of_isEmpty rfl)

/-- No class of a reachable registry has a conflict: of a name that two roles offer to it by
different members, a class of its lineage has a declaration. -/
theorem reachable_conflicts (h : Reachable r) {k : Handle} (hclass : r.isClass k) :
    r.conflicts k = [] ∧
      ∀ m p q, r.Offers m k p → r.Offers m k q → p ≠ q → ∃ j ∈ r.lineage k, r.declares j m := by
  have hfree := h.settled.conflictFree k hclass
  refine ⟨(h.wellFormed.conflicts_eq_nil_iff hclass).mpr hfree, fun m p q hp hq hne => ?_⟩
  have hsettles : r.settles k m := (hfree m p q hp hq).resolve_left hne
  exact List.any_eq_true.mp hsettles

/-- Two roles move the duck, and it says itself how. -/
theorem farm_conflicts : farm.conflicts ⟨3⟩ = [] ∧ farm.Offers (farmName "move") ⟨3⟩ ⟨0⟩ ∧
    farm.Offers (farmName "move") ⟨3⟩ ⟨1⟩ ∧
    ∃ j ∈ farm.lineage ⟨3⟩, farm.declares j (farmName "move") := by
  have hclass : farm.isClass ⟨3⟩ := by decide
  have hwalker : farm.Offers (farmName "move") ⟨3⟩ ⟨0⟩ :=
    ⟨⟨0⟩, show ⟨0⟩ ∈ farm.rolesOf ⟨3⟩ by decide, .own (by decide)⟩
  have hswimmer : farm.Offers (farmName "move") ⟨3⟩ ⟨1⟩ :=
    ⟨⟨1⟩, show ⟨1⟩ ∈ farm.rolesOf ⟨3⟩ by decide, .own (by decide)⟩
  obtain ⟨hnone, hsettled⟩ := reachable_conflicts reachable_farm hclass
  exact ⟨hnone, hwalker, hswimmer, hsettled _ _ _ hwalker hswimmer (by decide)⟩

/-- Lookup in a class of a reachable registry. If a class of the lineage declares the name, the
nearest one has the member in force. Otherwise one role is offered to the nearest class to which any
is, and has the member in force; and if none is offered to any class there is no such member. -/
theorem reachable_inForce? (h : Reachable r) {k : Handle} (hclass : r.isClass k) (m : Name) :
    (∀ j, IsFirst (r.declares · m = true) (r.lineage k) j →
        ∃ o, r.ownMember? j m = some o ∧ r.inForce? k m = some o) ∧
      ((∀ j ∈ r.lineage k, r.declares j m = false) →
        (∀ j, IsFirst (r.IsOffered m) (r.lineage k) j →
          ∃ p o, (∀ q, r.Offers m j q ↔ q = p) ∧ r.ownMember? p m = some o ∧
            r.inForce? k m = some o) ∧
        ((∀ j ∈ r.lineage k, ¬ r.IsOffered m j) → r.inForce? k m = none)) := by
  refine ⟨fun j hj => ?_, fun hnone => ⟨fun j hj => ?_, ?_⟩⟩
  · obtain ⟨o, ho⟩ := exists_ownMember? hj.holds
    exact ⟨o, ho, (h.wellFormed.inForce?_of_declares hj).trans ho⟩
  · obtain ⟨p, hunique, heq⟩ := h.settled.inForce?_of_isOffered hclass hnone hj
    obtain ⟨o, ho⟩ := exists_ownMember? ((hunique p).mpr rfl).declares
    exact ⟨p, o, hunique, ho, heq.trans ho⟩
  · exact h.wellFormed.inForce?_eq_none hclass hnone

/-- The legs of the duck are those of a walker. -/
theorem farm_inForce? : ∃ p o, (∀ q, farm.Offers (farmName "legs") ⟨3⟩ q ↔ q = p) ∧
    farm.ownMember? p (farmName "legs") = some o ∧
    farm.inForce? ⟨3⟩ (farmName "legs") = some o := by
  have hclass : farm.isClass ⟨3⟩ := by decide
  have hlineage : farm.lineage ⟨3⟩ = [⟨3⟩, ⟨2⟩] := by decide
  have hoffered : farm.IsOffered (farmName "legs") ⟨3⟩ :=
    ⟨⟨0⟩, ⟨0⟩, show ⟨0⟩ ∈ farm.rolesOf ⟨3⟩ by decide, .own (by decide)⟩
  obtain ⟨-, hroles⟩ := reachable_inForce? reachable_farm hclass (farmName "legs")
  obtain ⟨hoffers, -⟩ := hroles (by decide)
  exact hoffers ⟨3⟩ (hlineage ▸ .head hoffered)

end ObjectSystem.Registry
