import ObjectSystem.Proofs.Linearization.Ancestry
import ObjectSystem.Proofs.Run.Linearization

/-!
# Being and doing along runs

In a reachable registry the two questions about types have the answers that their edges give, and
obey the laws of orders (`reachable_kinship`).
-/

namespace ObjectSystem.Registry

open Catalog Relation

variable {r : Registry}

/-- What it is to be a type and to do a role, and the laws that hold of the two. -/
structure Kinship (c : Catalog) : Prop where
  /-- A type is itself and what it reaches over parents. -/
  isA_iff : ∀ a b, c.isA a b ↔ c.Known a ∧ ReflTransGen c.Extends a b
  isA_antisymm : ∀ a b, c.isA a b → c.isA b a → a = b
  isA_or_isA : ∀ x a b, c.isA x a → c.isA x b → c.isA a b ∨ c.isA b a
  /-- A type does the roles that it reaches over parents and then at least one consumed role, and
  a role does itself. -/
  does_iff : ∀ x role, c.does x role ↔ c.isRole role ∧
    (x = role ∨ ∃ k, ReflTransGen c.Extends x k ∧ TransGen c.Consumes k role)
  does_trans : ∀ x role q, c.does x role → c.does role q → c.does x q
  does_antisymm : ∀ role q, c.does role q → c.does q role → role = q
  does_of_isA : ∀ x y role, c.isA x y → c.does y role → c.does x role
  not_does_of_isClass : ∀ x y, c.isClass y → ¬ c.does x y
  known : ∀ a b, c.isA a b ∨ c.does a b → c.Known a ∧ c.Known b

/-- In every reachable registry, being a type is the order that the parents of types make, in which
what one type is lies on a chain; and doing a role is what consuming makes of it: passed on along
roles and to descendants, never mutual between two roles and never of a class. -/
theorem reachable_kinship (hr : Reachable r) : Kinship r.toCatalog where
  isA_iff _ _ := hr.wellFormed.isA_iff
  isA_antisymm _ _ := hr.wellFormed.isA_antisymm
  isA_or_isA _ _ _ := hr.wellFormed.isA_or_isA
  does_iff _ _ := hr.wellFormed.does_iff_acquires
  does_trans _ _ _ := hr.wellFormed.does_trans
  does_antisymm _ _ := hr.wellFormed.does_antisymm
  does_of_isA _ _ _ := hr.wellFormed.does_of_isA
  not_does_of_isClass _ _ := not_does_of_isClass
  known _ _ h := h.elim hr.wellFormed.known_of_isA hr.wellFormed.known_of_does

/-- At the marsh a duck eats since it is an animal, and moves since it dives and divers swim. No
animal is a duck, nobody does an animal, and there is no eighth type to be. -/
theorem marsh_kinship : marsh.isA ⟨6⟩ ⟨5⟩ ∧ marsh.does ⟨6⟩ ⟨4⟩ ∧ marsh.does ⟨6⟩ ⟨0⟩ ∧
    ¬ marsh.isA ⟨5⟩ ⟨6⟩ ∧ ¬ marsh.does ⟨6⟩ ⟨5⟩ ∧ ¬ marsh.isA ⟨7⟩ ⟨7⟩ := by
  have hkinship := reachable_kinship reachable_marsh
  have hextends : marsh.Extends ⟨6⟩ ⟨5⟩ :=
    show marsh.parent? ⟨6⟩ = some ⟨5⟩ by decide +kernel
  have hanimal : marsh.isA ⟨6⟩ ⟨5⟩ :=
    (hkinship.isA_iff _ _).mpr ⟨hextends.known_left, .single hextends⟩
  have heater : marsh.does ⟨5⟩ ⟨4⟩ := by decide +kernel
  have hdiver : marsh.does ⟨6⟩ ⟨3⟩ := by decide +kernel
  have hmover : marsh.does ⟨3⟩ ⟨0⟩ := by decide +kernel
  have hclass : marsh.isClass ⟨5⟩ := by decide +kernel
  refine ⟨hanimal, hkinship.does_of_isA _ _ _ hanimal heater,
    hkinship.does_trans _ _ _ hdiver hmover, fun hback => ?_,
    hkinship.not_does_of_isClass _ _ hclass, fun hself => ?_⟩
  · cases hkinship.isA_antisymm _ _ hanimal hback
  · have hunknown : ¬ marsh.Known ⟨7⟩ := by
      rw [known_iff_isSome]
      decide +kernel
    exact hunknown (hkinship.known _ _ (.inl hself)).1

end ObjectSystem.Registry
