import ObjectSystem.Proofs.Registry.Construction
import ObjectSystem.Proofs.Run.Graph

/-!
# Sealed types along runs

Every step leaves the types that are sealed as they are, and what these extend or consume sealed. So
nothing that is read off a sealed type changes in a run, although an edit looks at one seal only.
-/

namespace ObjectSystem.Registry

open Catalog

variable {r s : Registry} {type : Handle}

theorem Step.keepsSealed (h : Step r s) : r.KeepsSealed s.toCatalog := by
  cases h with
  | intern => exact .refl _
  | declare _ _ _ _ hnext =>
    obtain ⟨-, -, happends⟩ := place_eq_ok hnext
    exact happends.keepsSealed
  | extend h => exact .modify h.isOpen
  | consume h => exact .modify h.isOpen
  | addMember hopen => exact .modify hopen
  | sealType type => exact (seals_sealType _ type).keepsSealed
  | sealAll => exact (seals_sealAll _).keepsSealed

theorem Evolves.keepsSealed (h : Evolves r s) : r.KeepsSealed s.toCatalog :=
  h.respects (R := fun r s => r.KeepsSealed s.toCatalog) (fun r => .refl r.toCatalog) .trans
    Step.keepsSealed fun _ => .refl _

theorem Step.sealClosed (h : Step r s) (wf : r.WellFormed) (hr : r.SealClosed) :
    s.SealClosed := by
  cases h with
  | intern => exact hr
  | declare _ _ _ _ hnext =>
    obtain ⟨-, -, happends⟩ := place_eq_ok hnext
    exact hr.append happends rfl
  | extend h => exact hr.modify h.isOpen fun t => TypeEntry.isSealed_withParent t _
  | consume h => exact hr.modify h.isOpen fun _ => rfl
  | addMember hopen => exact hr.modify hopen fun _ => rfl
  | sealType type => exact hr.sealType wf type
  | sealAll => exact sealClosed_sealAll wf

theorem Reachable.sealClosed (h : Reachable r) : r.SealClosed := by
  obtain ⟨config, strings, hrun⟩ := h
  have hboth := hrun.evolves.preserves (P := fun c => c.WellFormed ∧ c.SealClosed)
    (fun hstep ⟨wf, hsealed⟩ => ⟨hstep.wellFormed wf, hstep.sealClosed wf hsealed⟩)
  refine (hboth ⟨wellFormed_of_isEmpty rfl, ?_⟩).2
  have hnone {h : Handle} : ¬ (new config (.ofStrings strings)).isSealed h := by
    simp [new, isSealed, typeAt?]
  exact ⟨fun ha => absurd ha hnone, fun ha => absurd ha hnone⟩

theorem Reachable.later (h : Reachable r) (hrun : Run r s) : r.Later s.toCatalog where
  wellFormed := h.wellFormed
  sealClosed := h.sealClosed
  wellFormed' := (h.run hrun).wellFormed
  keepsSealed := hrun.evolves.keepsSealed

/-- A sealed type of a reachable registry depends on sealed types only, and in every later state of
the registry it is sealed and everything that is asked of it has the answer of before. What comes of
making an instance is the same unless an attribute has a name that was issued in between, which
makes a key known that was not. -/
theorem reachable_sealed (h : Reachable r) (hsealed : r.isSealed type) :
    (∀ x ∈ r.resolutionOrder type, r.isSealed x) ∧
      ∀ s, Run r s →
        s.isSealed type ∧
        s.lineage type = r.lineage type ∧
        s.resolutionOrder type = r.resolutionOrder type ∧
        s.membersInForce type = r.membersInForce type ∧
        (∀ name, s.inForce? type name = r.inForce? type name) ∧
        (∀ target, s.isA type target = r.isA type target) ∧
        (∀ target, s.does type target = r.does type target) ∧
        (r.AttributesIssuedBefore s type → ∀ fields, (s.instantiate type fields).map Prod.fst =
          (r.instantiate type fields).map Prod.fst) := by
  refine ⟨fun x => h.sealClosed.isSealed_of_mem_resolutionOrder h.wellFormed hsealed,
    fun s hrun => ?_⟩
  have hlater := h.later hrun
  refine ⟨hlater.keepsSealed.isSealed hsealed, hlater.lineage_eq hsealed,
    hlater.resolutionOrder_eq hsealed, hlater.membersInForce_eq hsealed,
    fun name => hlater.inForce?_eq hsealed, hlater.isA_eq hsealed, hlater.does_eq hsealed,
    fun hbefore fields => ?_⟩
  rw [map_fst_instantiate, map_fst_instantiate]
  exact construct_eq_of_isSealed hrun.evolves.succeeds h.named hbefore hlater hsealed fields

def sealedFarm : Registry := Operation.after farm (.sealType ⟨3⟩)

/-- A sealed duck does not come to run when runners are declared, and its age goes on being all that
can be written for it. -/
theorem farm_sealed : sealedFarm.isSealed ⟨1⟩ ∧
    ((Operation.edit (.tag ⟨3⟩ "Runner")).after sealedFarm).resolutionOrder ⟨3⟩ =
      sealedFarm.resolutionOrder ⟨3⟩ ∧
    ∀ fields, (((Operation.edit (.tag ⟨3⟩ "Runner")).after sealedFarm).instantiate ⟨3⟩ fields).map
      Prod.fst = (sealedFarm.instantiate ⟨3⟩ fields).map Prod.fst := by
  have hreachable : Reachable sealedFarm := reachable_farm.run (.perform (.start farm) _)
  have hduck : sealedFarm.isSealed ⟨3⟩ := by decide +kernel
  have hswimmer : ⟨1⟩ ∈ sealedFarm.resolutionOrder ⟨3⟩ := by decide +kernel
  obtain ⟨hdepends, hlater⟩ := reachable_sealed hreachable hduck
  obtain ⟨-, -, horder, -, -, -, -, hmade⟩ := hlater _ (.perform (.start sealedFarm) _)
  exact ⟨hdepends ⟨1⟩ hswimmer, horder, hmade (by decide +kernel)⟩

def sealedFen : Registry := Operation.after fen (.sealType ⟨0⟩)

/-- A sealed duck of the fen has nothing that is called a cow until there are cows, whose name is
that of its attribute. A duck that is sealed by a transaction that fails is open again. -/
theorem fen_not_sealed : Reachable sealedFen ∧ sealedFen.isSealed ⟨0⟩ ∧
    (sealedFen.instantiate ⟨0⟩ [("Cow", .nil)]).isOk = false ∧
    Run sealedFen (declareCow.after sealedFen) ∧
    ((declareCow.after sealedFen).instantiate ⟨0⟩ [("Cow", .nil)]).isOk ∧
    Run fen (fen.settle (.error () : Except Unit Unit) sealedFen) ∧
    (fen.settle (.error () : Except Unit Unit) sealedFen).isSealed ⟨0⟩ = false := by
  have hsealing : Run fen sealedFen := .perform (.start fen) _
  exact ⟨reachable_fen.run hsealing, by decide +kernel, by decide +kernel,
    .perform (.start sealedFen) declareCow, by decide +kernel,
    .transaction (.start fen) hsealing _, by decide +kernel⟩

end ObjectSystem.Registry
