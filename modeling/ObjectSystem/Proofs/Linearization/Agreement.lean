import ObjectSystem.Proofs.Graph.Agreement

/-!
# Linearizations of catalogs that agree

A lineage is read off the parents alone, and the resolution order off the parents and the consumed
roles. So catalogs with the same edges have the same linearizations, whether their graph is
well-formed or not: both searches take the same steps under the same bound.
-/

namespace ObjectSystem.Catalog

variable {c d : Catalog}

theorem Agree.climb_eq (hcd : Agree TypeEntry.parent c d) (fuel : Nat) (h : Handle) :
    d.climb fuel h = c.climb fuel h := by
  induction fuel generalizing h with
  | zero => rfl
  | succ fuel ih =>
    have hentry := hcd.map_typeAt?_eq h
    rw [climb, climb]
    cases hd : d.typeAt? h with
    | none =>
      rw [hd, Option.map_none, eq_comm, Option.map_eq_none_iff] at hentry
      rw [hentry]
    | some u =>
      rw [hd, Option.map_some, eq_comm] at hentry
      obtain ⟨t, ht, hparent⟩ := Option.map_eq_some_iff.mp hentry
      rw [ht]
      dsimp only
      rw [hparent]
      cases u.parent with
      | none => rfl
      | some p => exact congrArg (h :: ·) (ih p)

theorem Agree.lineage_eq (hcd : Agree TypeEntry.parent c d) (h : Handle) :
    d.lineage h = c.lineage h := by
  rw [lineage, lineage, hcd.size_eq, hcd.climb_eq]

theorem Agree.isA_eq (hcd : Agree TypeEntry.parent c d) (subject target : Handle) :
    d.isA subject target = c.isA subject target := by
  rw [isA, isA, hcd.lineage_eq]

theorem Agree.explore_eq (hcd : Agree TypeEntry.roles c d) (fuel : Nat)
    (pending found : List Handle) :
    d.explore fuel pending found = c.explore fuel pending found := by
  induction fuel generalizing pending found with
  | zero => rfl
  | succ fuel ih =>
    cases pending with
    | nil => rfl
    | cons h pending => rw [explore, explore, hcd.rolesOf_eq, ih]

theorem Agree.exploreFrom_eq (hcd : Agree TypeEntry.roles c d) :
    d.exploreFrom = c.exploreFrom := by
  funext found cls
  rw [exploreFrom, exploreFrom, hcd.size_eq, hcd.explore_eq]

namespace SameGraph

theorem resolutionOrder_eq (hcd : SameGraph c d) (h : Handle) :
    d.resolutionOrder h = c.resolutionOrder h := by
  rw [resolutionOrder, resolutionOrder, hcd.parent.lineage_eq, hcd.roles.exploreFrom_eq]

theorem reachableRoles_eq (hcd : SameGraph c d) (h : Handle) :
    d.reachableRoles h = c.reachableRoles h := by
  rw [reachableRoles, reachableRoles, hcd.resolutionOrder_eq, hcd.parent.lineage_eq]

theorem does_eq (hcd : SameGraph c d) (subject target : Handle) :
    d.does subject target = c.does subject target := by
  rw [does, does, hcd.kind.isRole_eq, hcd.reachableRoles_eq]

end SameGraph

end ObjectSystem.Catalog
