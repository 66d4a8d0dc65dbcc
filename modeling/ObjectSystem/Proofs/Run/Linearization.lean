import ObjectSystem.Proofs.Linearization.Levels
import ObjectSystem.Proofs.Run.Graph

/-!
# The resolution order along runs

In a reachable registry the resolution order of a type is its chain of parents, and then for each
type of the chain the roles that it reaches, level by level, unless they are listed already
(`reachable_resolutionOrder`). The levels are those of a full search from each type; that one search
serves the whole chain is not seen in the result.
-/

namespace ObjectSystem.Registry

open Catalog Relation

variable {r : Registry} {h : Handle}

/-- What the resolution order of a type is: its chain of parents up to the root, followed by what
each type of the chain reaches level by level, less the type itself and what has been listed. The
levels of a type are all told. So the order starts with the type, lists each type once and holds
what is reached over parents and consumed roles; and the roles of it, apart from the type itself,
are those that the type reaches. -/
theorem reachable_resolutionOrder (hr : Reachable r) (hk : r.Known h) :
    r.FollowsParents h (r.lineage h) ∧
    r.resolutionOrder h = r.lineage h ++ r.listEach [h] (r.lineage h) ∧
    (∀ k depth, r.size ≤ depth →
      (r.levels depth (r.rolesOf k)).eraseDups = r.breadthFirst k) ∧
    (r.resolutionOrder h).head? = some h ∧ (r.resolutionOrder h).Nodup ∧
    (∀ x, x ∈ r.resolutionOrder h ↔
      ReflTransGen (fun a b => r.Extends a b ∨ r.Consumes a b) h x) ∧
    r.reachableRoles h = (r.resolutionOrder h).filter fun x => r.isRole x && decide (x ≠ h) := by
  have wf := hr.wellFormed
  have hchain := wf.followsParents hk
  refine ⟨hchain, wf.resolutionOrder_eq_listEach h, fun k depth hdepth => ?_, ?_,
    wf.nodup_resolutionOrder h, fun x => wf.mem_resolutionOrder_iff_reaches hk,
    wf.reachableRoles_eq_filter h⟩
  · rw [wf.levels_eq hdepth, breadthFirst]
  · obtain ⟨rest, hlineage⟩ := List.head?_eq_some_iff.mp hchain.head
    rw [wf.resolutionOrder_eq, hlineage, List.cons_append, List.head?_cons]

/-- A duck that dives and walks. Diving is a way to swim, which animals do, and who swims or walks
moves; animals eat besides. -/
def marsh : Registry :=
  [.edit (.declareRole (some "Mover") []),
    .edit (.declareRole (some "Walker") []),
    .edit (.declareRole (some "Swimmer") []),
    .edit (.declareRole (some "Diver") []),
    .edit (.declareRole (some "Eater") []),
    .edit (.declareClass (some "Animal") none false []),
    .edit (.declareClass (some "Duck") (some ⟨5⟩) false []),
    .edit (.consume ⟨1⟩ ⟨0⟩),
    .edit (.consume ⟨2⟩ ⟨0⟩),
    .edit (.consume ⟨3⟩ ⟨2⟩),
    .edit (.consume ⟨5⟩ ⟨2⟩),
    .edit (.consume ⟨5⟩ ⟨4⟩),
    .edit (.consume ⟨6⟩ ⟨3⟩),
    .edit (.consume ⟨6⟩ ⟨1⟩)].foldl Operation.after (.new {} .empty)

theorem reachable_marsh : Reachable marsh := (reachable_new {}).run (run_foldl _ _)

/-- Animals add to the order of the duck that they eat. The ways to move that they share with the
duck are listed for the duck, and the deepest ones last. -/
theorem marsh_resolutionOrder : marsh.Known ⟨6⟩ ∧ marsh.breadthFirst ⟨5⟩ = [⟨2⟩, ⟨4⟩, ⟨0⟩] ∧
    marsh.resolutionOrder ⟨6⟩ = [⟨6⟩, ⟨5⟩, ⟨3⟩, ⟨1⟩, ⟨2⟩, ⟨0⟩, ⟨4⟩] ∧
    marsh.reachableRoles ⟨6⟩ = [⟨3⟩, ⟨1⟩, ⟨2⟩, ⟨0⟩, ⟨4⟩] := by
  have hduck : marsh.Known ⟨6⟩ := known_of_isClass (by decide +kernel)
  obtain ⟨-, horder, -, -, -, -, hroles⟩ := reachable_resolutionOrder reachable_marsh hduck
  have hlisted : marsh.lineage ⟨6⟩ ++ marsh.listEach [⟨6⟩] (marsh.lineage ⟨6⟩) =
      [⟨6⟩, ⟨5⟩, ⟨3⟩, ⟨1⟩, ⟨2⟩, ⟨0⟩, ⟨4⟩] := by decide +kernel
  rw [hlisted] at horder
  rw [horder] at hroles
  refine ⟨hduck, by decide +kernel, horder, hroles.trans ?_⟩
  decide +kernel

end ObjectSystem.Registry
