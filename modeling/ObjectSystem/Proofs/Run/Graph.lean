import ObjectSystem.Proofs.Conflict.Provider
import ObjectSystem.Proofs.Run.Editing
import ObjectSystem.Proofs.Sealing.Seals

/-!
# The graph along runs

Every step keeps the type graph well-formed, so the graph of every reachable registry is. A change
that is only proposed keeps it well-formed too: the recursion over consumed roles, which looks for
conflicts before the change is granted, comes to an end on every graph it is run on.
-/

namespace ObjectSystem

open Relation

namespace Catalog

variable {c : Catalog}

/-- The recursion for what a role provides, called at the role, comes to an end with this result:
the calls at the roles that it consumes do, and the result is made from theirs. -/
inductive Evaluates (c : Catalog) : Handle → List Provision → Prop
  | call {role : Handle} {provided : Handle → List Provision}
      (hcalls : ∀ s, c.Consumes role s → Evaluates c s (provided s)) :
      Evaluates c role (c.provisionsFrom provided role)

theorem WellFormed.evaluates (wf : c.WellFormed) (role : Handle) :
    c.Evaluates role (c.provisions role) := by
  induction role using wf.grounded.wellFounded_consumes.induction with
  | _ role ih =>
    rw [wf.grounded.provisions_eq]
    exact .call ih

end Catalog

namespace Registry

open Catalog

variable {r s : Registry} {next : Catalog}

theorem Step.wellFormed (h : Step r s) (wf : r.WellFormed) : s.WellFormed := by
  cases h with
  | intern => exact wf
  | declare _ _ _ hparent hnext =>
    obtain ⟨-, -, happends⟩ := place_eq_ok hnext
    exact happends.wellFormed wf rfl rfl (fun p => TypeEntry.isClass_of_parent) hparent
  | extend h => exact h.wellFormed wf
  | consume h => exact h.wellFormed wf
  | addMember => exact sameGraph_addMember.wellFormed wf
  | sealType type => exact (seals_sealType _ type).sameGraph.wellFormed wf
  | sealAll => exact (seals_sealAll _).sameGraph.wellFormed wf

theorem Evolves.wellFormed (h : Evolves r s) : r.WellFormed → s.WellFormed :=
  h.preserves (P := WellFormed) Step.wellFormed

theorem Reachable.wellFormed (h : Reachable r) : r.WellFormed := by
  obtain ⟨config, strings, hrun⟩ := h
  exact hrun.evolves.wellFormed (wellFormed_of_isEmpty rfl)

/-- The catalog is one in which conflicts are looked for. In some state a role or a member has been
added and is not granted yet; a block or a tag makes several changes, so the state may lie some
steps away from the registry. -/
inductive Examines (r : Registry) : Catalog → Prop
  | role {s : Registry} {type role : Handle} {next : Catalog} (h : Evolves r s)
      (hnext : s.proposeRole type role = .ok (some next)) : Examines r next
  | member {s : Registry} {type : Handle} {m : Member} {next : Catalog} (h : Evolves r s)
      (hnext : s.proposeMember type m = .ok next) : Examines r next

theorem Examines.wellFormed (h : Examines r next) (wf : r.WellFormed) : next.WellFormed := by
  cases h with
  | role h hnext =>
    obtain ⟨hmay, rfl⟩ := proposeRole_eq_some hnext
    exact hmay.wellFormed (h.wellFormed wf)
  | member h hnext =>
    obtain ⟨-, -, rfl⟩ := proposeMember_eq_ok hnext
    exact sameGraph_addMember.wellFormed (h.wellFormed wf)

/-- The graph of a reachable registry is well-formed, and so is every graph that is examined before
a change is granted. On all of them the recursion over consumed roles comes to an end. -/
theorem reachable_graph (h : Reachable r) :
    (r.WellFormed ∧ ∀ role, r.Evaluates role (r.provisions role)) ∧
      ∀ next, Examines r next →
        next.WellFormed ∧ ∀ role, next.Evaluates role (next.provisions role) := by
  have wf := h.wellFormed
  refine ⟨⟨wf, wf.evaluates⟩, fun next hnext => ?_⟩
  have hnext_wf := hnext.wellFormed wf
  exact ⟨hnext_wf, hnext_wf.evaluates⟩

/-- The graph of the farm, and the one that is examined before swimmers walk. -/
theorem farm_graph : farm.Extends ⟨3⟩ ⟨2⟩ ∧ farm.Consumes ⟨3⟩ ⟨1⟩ ∧ farm.WellFormed ∧
    ∃ next, Examines farm next ∧ next.WellFormed ∧ next.Evaluates ⟨1⟩ (next.provisions ⟨1⟩) := by
  obtain ⟨⟨hwf, -⟩, hexamined⟩ := reachable_graph reachable_farm
  have hproposal : farm.proposeRole ⟨1⟩ ⟨0⟩ = .ok (some (farm.addRole ⟨1⟩ ⟨0⟩)) := by rfl
  have hexamines := Examines.role (.refl farm) hproposal
  obtain ⟨hnext_wf, hevaluates⟩ := hexamined _ hexamines
  exact ⟨show farm.parent? ⟨3⟩ = some ⟨2⟩ by decide, show ⟨1⟩ ∈ farm.rolesOf ⟨3⟩ by decide, hwf,
    _, hexamines, hnext_wf, hevaluates ⟨1⟩⟩

end Registry

end ObjectSystem
