import ObjectSystem.Catalog.Resolution
import ObjectSystem.Proofs.Linearization.Agreement

/-!
# Types that become sealed

Sealing changes nothing but seals (`Seals`), so the graph and the members stay as they are.
-/

namespace ObjectSystem.Catalog

/-- The second catalog is the first one with some more types sealed. -/
structure Seals (c d : Catalog) : Prop where
  size_eq : d.size = c.size
  typeAt?_eq : ∀ h, d.typeAt? h = c.typeAt? h ∨
    d.typeAt? h = (c.typeAt? h).map TypeEntry.asSealed

theorem typeAt?_sealEach (c : Catalog) (hs : List Handle) (h : Handle) :
    (c.sealEach hs).typeAt? h =
      if h ∈ hs then (c.typeAt? h).map TypeEntry.asSealed else c.typeAt? h := by
  induction hs generalizing c with
  | nil => rfl
  | cons a rest ih =>
    have hrest := ih (c.sealOne a)
    rw [sealOne, typeAt?_modify] at hrest
    rw [sealEach, List.foldl_cons, ← sealEach, sealOne, hrest]
    by_cases ha : a = h
    · subst ha
      cases c.typeAt? a <;> simp [TypeEntry.asSealed]
    · simp [ha, Ne.symm ha]

theorem size_sealEach (c : Catalog) (hs : List Handle) : (c.sealEach hs).size = c.size := by
  induction hs generalizing c with
  | nil => rfl
  | cons a rest ih => exact (ih (c.sealOne a)).trans (size_modify c a TypeEntry.asSealed)

theorem config_sealEach (c : Catalog) (hs : List Handle) : (c.sealEach hs).config = c.config := by
  induction hs generalizing c with
  | nil => rfl
  | cons a rest ih => exact ih (c.sealOne a)

theorem seals_sealEach (c : Catalog) (hs : List Handle) : Seals c (c.sealEach hs) := by
  refine ⟨size_sealEach c hs, fun h => ?_⟩
  rw [typeAt?_sealEach]
  split
  · exact .inr rfl
  · exact .inl rfl

theorem seals_sealType (c : Catalog) (type : Handle) : Seals c (c.sealType type) :=
  seals_sealEach c (c.resolutionOrder type)

theorem typeAt?_sealAll (c : Catalog) (h : Handle) :
    c.sealAll.typeAt? h = (c.typeAt? h).map TypeEntry.asSealed := by
  simp [typeAt?, sealAll]

theorem seals_sealAll (c : Catalog) : Seals c c.sealAll :=
  ⟨by simp [size, sealAll], fun h => .inr (typeAt?_sealAll c h)⟩

namespace Seals

variable {c d : Catalog}

theorem agree {α : Type} {view : TypeEntry → α} (hcd : Seals c d)
    (hview : ∀ t, view t.asSealed = view t) : Agree view c d := by
  refine ⟨hcd.size_eq, fun h => ?_⟩
  rcases hcd.typeAt?_eq h with heq | heq
  · rw [heq]
  · rw [heq, Option.map_map]
    congr 1
    funext t
    exact hview t

theorem sameGraph (hcd : Seals c d) : SameGraph c d :=
  ⟨⟨hcd.agree fun _ => rfl, hcd.agree fun _ => rfl⟩, hcd.agree fun _ => rfl,
    hcd.agree fun _ => rfl⟩

theorem membersInForce_eq (hcd : Seals c d) (type : Handle) :
    d.membersInForce type = c.membersInForce type := by
  have hmembers : Agree TypeEntry.members c d := hcd.agree fun _ => rfl
  have hdeclared : d.declaredMembers type = c.declaredMembers type := by
    simp only [declaredMembers, hcd.sameGraph.resolutionOrder_eq, hmembers.membersOf_eq]
  rw [membersInForce, hdeclared, membersInForce]

end Seals

end ObjectSystem.Catalog
