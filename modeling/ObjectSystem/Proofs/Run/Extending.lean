import ObjectSystem.Proofs.Registry.Extending
import ObjectSystem.Proofs.Run.Validity

/-!
# Classes that come to extend along runs

In a reachable registry a class comes to extend another one exactly when both are known, it is open
and has no parent, and the other one does not descend from it (`reachable_extend`). All that
descends from the class then descends from its parent, too. No conflict is looked for, and there is
none: to inherit from one more class only settles names.
-/

namespace ObjectSystem

namespace Catalog

variable {c : Catalog} {type parent : Handle}

theorem mayExtend_iff : c.MayExtend type parent ↔
    c.isClass type ∧ ¬ c.isSealed type ∧ c.parent? type = none ∧ c.isClass parent ∧
      ¬ c.isA parent type := by
  rw [isA, decide_eq_true_eq]
  constructor
  · intro h
    obtain ⟨-, hsealed⟩ := isOpen_iff.mp h.isOpen
    exact ⟨h.isClass, hsealed, h.parent?_eq, h.parent_isClass, h.not_mem_lineage⟩
  · rintro ⟨hclass, hsealed, hnone, hparent, hback⟩
    exact ⟨hclass, isOpen_iff.mpr ⟨known_of_isClass hclass, hsealed⟩, hnone, hparent, hback⟩

end Catalog

namespace Registry

open Catalog Editing

variable {r s : Registry} {type parent : Handle}

/-- The second registry is the first one with a parent for the class. -/
structure Extended (r s : Registry) (type parent : Handle) : Prop where
  eq_modify : s = { r with toCatalog := r.modify type (·.withParent parent) }
  lineage_eq : ∀ x, s.lineage x =
    if (r.lineage x).getLast? = some type then r.lineage x ++ r.lineage parent else r.lineage x
  isA_iff : ∀ x y, s.isA x y ↔ r.isA x y ∨ r.isClass x ∧ r.isA x type ∧ r.isA parent y
  isSealed_eq : ∀ x, s.isSealed x = r.isSealed x
  rolesOf_eq : ∀ x, s.rolesOf x = r.rolesOf x
  membersOf_eq : ∀ x, s.membersOf x = r.membersOf x
  conflicts_eq : ∀ x, s.conflicts x = [] ∧ r.conflicts x = []
  freeOfConflicts : s.FreeOfConflicts

theorem extended_of_mayExtend (hr : r.Settled) (h : r.MayExtend type parent) :
    Extended r { r with toCatalog := r.addParent type parent } type parent where
  eq_modify := rfl
  lineage_eq := h.lineage_addParent hr.wellFormed
  isA_iff _ _ := h.isA_addParent_iff hr.wellFormed
  isSealed_eq := (agree_addParent (TypeEntry.isSealed_withParent · parent)).any_eq id
  rolesOf_eq := (agree_addParent (TypeEntry.roles_withParent · parent)).rolesOf_eq
  membersOf_eq := (agree_addParent (TypeEntry.members_withParent · parent)).membersOf_eq
  conflicts_eq x := by
    have hs := hr.addParent h
    exact ⟨hs.wellFormed.conflicts_eq_nil hs.conflictFree x,
      hr.wellFormed.conflicts_eq_nil hr.conflictFree x⟩
  freeOfConflicts := (hr.addParent h).conflictFree

theorem run_of_extend (h : r.extend type parent = .ok s) : Run r s := by
  have hrun := Run.perform (.start r) (.edit (.extend type parent))
  rwa [Operation.after, Edit.run, outcome_bind, Editing.extend, outcome_step, h] at hrun

/-- A class comes to extend another one exactly when it is a class that is known, not sealed and
without a parent, and the other one is a class that is known and does not descend from it. Then the
class has that parent and nothing else is changed: the lineages that ended in the class go on, so
that its descendants are now what the parent is, and no class has a conflict. -/
theorem reachable_extend (hr : Reachable r) (type parent : Handle) :
    ((∃ s, r.extend type parent = .ok s) ↔
      r.isClass type ∧ ¬ r.isSealed type ∧ r.parent? type = none ∧ r.isClass parent ∧
        ¬ r.isA parent type) ∧
    ∀ s, r.extend type parent = .ok s → Extended r s type parent := by
  refine ⟨?_, fun s hs => ?_⟩
  · simp only [extend_eq_ok_iff, exists_and_left, exists_eq, and_true, mayExtend_iff]
  · obtain ⟨hmay, rfl⟩ := extend_eq_ok hs
    exact extended_of_mayExtend hr.settled hmay

/-- The farm with creatures, which swim, and of which plants are some. -/
def wildFarm : Registry :=
  [.edit (.declareClass (some "Creature") none false []),
    .edit (.consume ⟨4⟩ ⟨1⟩),
    .edit (.declareClass (some "Plant") (some ⟨4⟩) false [])].foldl Operation.after farm

theorem reachable_wildFarm : Reachable wildFarm := reachable_farm.run (run_foldl _ _)

/-- Animals, which ducks are, may come to be creatures, but creatures may not then come to be ducks.
The duck swims twice over after that, and has no conflict. -/
theorem wildFarm_extend : ∃ s, wildFarm.extend ⟨2⟩ ⟨4⟩ = .ok s ∧ s.lineage ⟨3⟩ = [⟨3⟩, ⟨2⟩, ⟨4⟩] ∧
    s.lineage ⟨5⟩ = [⟨5⟩, ⟨4⟩] ∧ s.isA ⟨3⟩ ⟨4⟩ ∧ ¬ s.isA ⟨5⟩ ⟨2⟩ ∧ s.conflicts ⟨3⟩ = [] ∧
    ∀ t, s.extend ⟨4⟩ ⟨3⟩ ≠ .ok t := by
  obtain ⟨hiff, heffect⟩ := reachable_extend reachable_wildFarm ⟨2⟩ ⟨4⟩
  obtain ⟨s, hs⟩ := hiff.mpr ⟨by decide +kernel, by decide +kernel, by decide +kernel,
    by decide +kernel, by decide +kernel⟩
  have hextended := heffect s hs
  have hduck : wildFarm.lineage ⟨3⟩ = [⟨3⟩, ⟨2⟩] := by decide +kernel
  have hcreature : wildFarm.lineage ⟨4⟩ = [⟨4⟩] := by decide +kernel
  have hplant : wildFarm.lineage ⟨5⟩ = [⟨5⟩, ⟨4⟩] := by decide +kernel
  have hlineage : s.lineage ⟨3⟩ = [⟨3⟩, ⟨2⟩, ⟨4⟩] := by
    rw [hextended.lineage_eq, hduck, hcreature]
    rfl
  have hisA : s.isA ⟨3⟩ ⟨4⟩ :=
    (hextended.isA_iff _ _).mpr (.inr (by decide +kernel))
  have hlineage' : s.lineage ⟨5⟩ = [⟨5⟩, ⟨4⟩] := by
    rw [hextended.lineage_eq, hplant]
    rfl
  refine ⟨s, hs, hlineage, hlineage', hisA, ?_, (hextended.conflicts_eq ⟨3⟩).1, fun t ht => ?_⟩
  · rw [hextended.isA_iff]
    decide +kernel
  · -- the duck is a creature by now
    have hs_reachable := reachable_wildFarm.run (run_of_extend hs)
    obtain ⟨hback, -⟩ := reachable_extend hs_reachable ⟨4⟩ ⟨3⟩
    exact (hback.mp ⟨t, ht⟩).2.2.2.2 hisA

end Registry

end ObjectSystem
