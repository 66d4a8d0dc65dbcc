import ObjectSystem.Catalog.Resolution
import ObjectSystem.Proofs.Conflict.Provider
import ObjectSystem.Proofs.Linearization.Order

/-!
# Types that are retained

Everything that is asked of a type is read off the types that it extends and consumes, directly or
not. So it has the same answer in every later catalog that retains a set of types which is closed
under these edges (`Retains`): the types of the set are what they were, and what has been added
since is not seen from them.
-/

namespace ObjectSystem.Catalog

/-- The types of the set are in the second catalog what they are in the first, and so is everything
that they extend or consume. -/
structure Retains (P : Handle → Prop) (c d : Catalog) : Prop where
  wellFormed : c.WellFormed
  wellFormed' : d.WellFormed
  known : ∀ {h}, P h → c.Known h
  parent : ∀ {a b}, P a → c.Extends a b → P b
  role : ∀ {a b}, P a → c.Consumes a b → P b
  typeAt?_eq : ∀ {h}, P h → d.typeAt? h = c.typeAt? h

namespace Retains

variable {P : Handle → Prop} {c d : Catalog} {h x : Handle} {m : Name}

theorem of_mem_resolutionOrder (hcd : Retains P c d) (hh : P h) (hx : x ∈ c.resolutionOrder h) :
    P x :=
  hcd.wellFormed.forall_mem_resolutionOrder hcd.parent hcd.role hh hx

theorem of_mem_lineage (hcd : Retains P c d) (hh : P h) (hx : x ∈ c.lineage h) : P x :=
  hcd.of_mem_resolutionOrder hh (hcd.wellFormed.mem_resolutionOrder.mpr ⟨x, hx, .refl⟩)

theorem parent?_eq (hcd : Retains P c d) (hh : P h) : d.parent? h = c.parent? h := by
  rw [parent?, hcd.typeAt?_eq hh, parent?]

theorem rolesOf_eq (hcd : Retains P c d) (hh : P h) : d.rolesOf h = c.rolesOf h := by
  rw [rolesOf, hcd.typeAt?_eq hh, rolesOf]

theorem known' (hcd : Retains P c d) (hh : P h) : d.Known h := by
  rw [known_iff_isSome, hcd.typeAt?_eq hh, ← known_iff_isSome]
  exact hcd.known hh

/-! ## Linearization -/

theorem lineage_eq (hcd : Retains P c d) (hh : P h) : d.lineage h = c.lineage h := by
  induction h, hcd.known hh using hcd.wellFormed.lineage_induction with
  | root h hk hp =>
    rw [lineage_of_root hk hp, lineage_of_root (hcd.known' hh) (by rwa [hcd.parent?_eq hh])]
  | child a b hab ih =>
    have hab' : d.Extends a b := by rwa [Extends, hcd.parent?_eq hh]
    rw [hcd.wellFormed.lineage_of_extends hab, hcd.wellFormed'.lineage_of_extends hab',
      ih (hcd.parent hh hab)]

theorem reachableRoles_eq (hcd : Retains P c d) (hh : P h) :
    d.reachableRoles h = c.reachableRoles h := by
  have hsearch := hcd.wellFormed'.explores_reachableRoles h
  have hsearch' : d.ExploresEach (c.lineage h) (c.lineage h) (c.reachableRoles h) := by
    apply (hcd.wellFormed.explores_reachableRoles h).transport
    intro y hy
    rw [← hcd.wellFormed.resolutionOrder_eq] at hy
    exact hcd.rolesOf_eq (hcd.of_mem_resolutionOrder hh hy)
  rw [hcd.lineage_eq hh] at hsearch
  exact hsearch.unique hsearch'

theorem resolutionOrder_eq (hcd : Retains P c d) (hh : P h) :
    d.resolutionOrder h = c.resolutionOrder h := by
  rw [hcd.wellFormed.resolutionOrder_eq, hcd.wellFormed'.resolutionOrder_eq, hcd.lineage_eq hh,
    hcd.reachableRoles_eq hh]

theorem isA_eq (hcd : Retains P c d) (hh : P h) (target : Handle) :
    d.isA h target = c.isA h target := by
  rw [isA, hcd.lineage_eq hh, isA]

theorem does_eq (hcd : Retains P c d) (hh : P h) (target : Handle) :
    d.does h target = c.does h target := by
  rw [does, does, hcd.reachableRoles_eq hh]
  by_cases hmem : target ∈ c.resolutionOrder h
  · rw [isRole, hcd.typeAt?_eq (hcd.of_mem_resolutionOrder hh hmem), isRole]
  · -- the target may have been declared since, and then it is not listed in either catalog
    rw [hcd.wellFormed.resolutionOrder_eq, List.mem_append, not_or] at hmem
    have hne : h ≠ target := by
      rintro rfl
      exact hmem.1 (hcd.wellFormed.mem_lineage_self (hcd.known hh))
    simp [beq_eq_false_iff_ne.mpr hne, hmem.2]

/-! ## Members -/

theorem membersInForce_eq (hcd : Retains P c d) (hh : P h) :
    d.membersInForce h = c.membersInForce h := by
  have hdeclared : d.declaredMembers h = c.declaredMembers h := by
    rw [declaredMembers, declaredMembers, hcd.resolutionOrder_eq hh]
    apply List.flatMap_congr
    intro x hx
    rw [membersOf, hcd.typeAt?_eq (hcd.of_mem_resolutionOrder hh hx), membersOf]
  rw [membersInForce, hdeclared, membersInForce]

theorem inForce?_eq (hcd : Retains P c d) (hh : P h) : d.inForce? h m = c.inForce? h m := by
  have hmap : (c.resolutionOrder h).map (d.ownMember? · m) =
      (c.resolutionOrder h).map (c.ownMember? · m) := by
    apply List.map_congr_left
    intro x hx
    rw [ownMember?, hcd.typeAt?_eq (hcd.of_mem_resolutionOrder hh hx), ownMember?]
  have heq := congrArg (List.findSome? id) hmap
  rw [List.findSome?_map, List.findSome?_map] at heq
  rw [inForce?, hcd.resolutionOrder_eq hh]
  exact heq

/-! ## Conflicts -/

theorem provisions_eq (hcd : Retains P c d) (hh : P h) : d.provisions h = c.provisions h := by
  have hc := hcd.wellFormed.grounded
  induction h using hc.wellFounded_consumes.induction with
  | _ role ih =>
    rw [hc.provisions_eq, hcd.wellFormed'.grounded.provisions_eq, provisionsFrom, provisionsFrom,
      hcd.typeAt?_eq hh]
    cases ht : c.typeAt? role with
    | none => rfl
    | some t =>
      have hunited : united d.provisions t.roles = united c.provisions t.roles := by
        apply united_congr
        intro s hs
        have hedge : c.Consumes role s := consumes_iff.mpr ⟨t, ht, hs⟩
        exact ih s hedge (hcd.role hh hedge)
      simp only [hunited]

theorem conflicts_eq (hcd : Retains P c d) (hh : P h) : d.conflicts h = c.conflicts h := by
  have hclass : d.isClass h = c.isClass h := by rw [isClass, hcd.typeAt?_eq hh, isClass]
  have hconsumed : d.consumedProvisions h = c.consumedProvisions h := by
    rw [consumedProvisions, hcd.rolesOf_eq hh]
    exact united_congr fun s hs => hcd.provisions_eq (hcd.role hh hs)
  have hsettles (m : Name) : d.settles h m = c.settles h m := by
    rw [settles, settles, hcd.lineage_eq hh, Bool.eq_iff_iff, List.any_eq_true, List.any_eq_true]
    refine exists_congr fun x => and_congr_right fun hx => ?_
    rw [declares, hcd.typeAt?_eq (hcd.of_mem_lineage hh hx), declares]
  simp only [conflicts, hclass, hconsumed, hsettles]

end Retains

end ObjectSystem.Catalog
