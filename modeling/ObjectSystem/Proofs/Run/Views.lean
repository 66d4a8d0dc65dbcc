import ObjectSystem.Proofs.Registry.Answers
import ObjectSystem.Proofs.Run.Growth
import ObjectSystem.Proofs.Run.Sealing

/-!
# Views of a registry

When everything in a registry is sealed, its types do not change any more, though others may be
declared. So the registry goes on answering as it did then to all questions about these types
(`Upholds`).
-/

namespace ObjectSystem

namespace Catalog

variable {c d : Catalog}

def AllSealed (c : Catalog) : Prop := ∀ h, c.Known h → c.isSealed h

theorem allSealed_sealAll (c : Catalog) : c.sealAll.AllSealed := by
  intro h hk
  have hknown : c.Known h := (seals_sealAll c).sameGraph.parent.known_iff.mp hk
  exact (isSealed_sealAll c h).mpr hknown

theorem AllSealed.types_eq (hc : c.AllSealed) (hcd : Seals c d) : d.types = c.types := by
  apply Array.ext_getElem?
  intro i
  have hsize : d.size = c.size := hcd.size_eq
  by_cases hk : c.Known ⟨i⟩
  · exact hcd.keepsSealed ⟨i⟩ (hc ⟨i⟩ hk)
  · have hk' : ¬ d.Known ⟨i⟩ := by rwa [Known, hsize]
    exact (typeAt?_eq_none hk').trans (typeAt?_eq_none hk).symm

theorem AllSealed.sealType_eq (hc : c.AllSealed) (type : Handle) : c.sealType type = c := by
  have htypes := hc.types_eq (seals_sealType c type)
  have hnaming := SameNaming.sealEach c (c.resolutionOrder type)
  calc c.sealType type
      = ⟨(c.sealType type).types, (c.sealType type).symbols, (c.sealType type).config,
          (c.sealType type).anonymousCount⟩ := rfl
    _ = c := by
      rw [htypes, sealType, hnaming.symbols_eq, hnaming.config_eq, hnaming.anonymousCount_eq]

theorem AllSealed.sealAll_eq (hc : c.AllSealed) : c.sealAll = c := by
  have htypes := hc.types_eq (seals_sealAll c)
  calc c.sealAll = { c with types := c.sealAll.types } := rfl
    _ = c := by rw [htypes]

end Catalog

def Operation.IsReading : Operation → Prop
  | .edit _ => False
  | _ => True

namespace Registry

open Catalog

variable {r s : Registry} {o : Operation}

/-! ## Reading -/

theorem toCatalog_after_of_isReading (ho : o.IsReading) (hr : r.AllSealed) :
    (o.after r).toCatalog = r.toCatalog := by
  cases o with
  | edit => exact ho.elim
  | sealType type => exact hr.sealType_eq type
  | sealAll => exact hr.sealAll_eq
  | instantiate type fields =>
    rw [after_instantiate]
    split
    · exact hr.sealType_eq type
    · rfl
  | intern => rfl

/-- What reading does to the names of a registry can happen to any other with the same names. -/
theorem run_names_after (ho : o.IsReading) (hnames : s.names = r.names) :
    Run s { s with names := (o.after r).names } := by
  have hsame (h : (o.after r).names = r.names) : Run s { s with names := (o.after r).names } := by
    rw [h, ← hnames]
    exact .start s
  cases o with
  | edit => exact ho.elim
  | sealType => exact hsame rfl
  | sealAll => exact hsame rfl
  | instantiate type fields =>
    apply hsame
    rw [after_instantiate]
    split <;> rfl
  | intern t =>
    rw [Operation.after, ← hnames]
    exact .perform (.start s) (.intern t)

/-! ## Sealing everything -/

/-- The registry with all its types sealed. -/
def view (r : Registry) : Registry := { r with toCatalog := r.sealAll }

/-- The types of the first registry are sealed in the second one and are there what they are in the
first, and what resolves in the first resolves to the same in the second. A string calls the same as
in the first if that was settled. -/
structure Upholds (r s : Registry) : Prop where
  isSealed : ∀ {h}, r.Known h → s.isSealed h
  lineage_eq : ∀ {h}, r.Known h → s.lineage h = r.lineage h
  resolutionOrder_eq : ∀ {h}, r.Known h → s.resolutionOrder h = r.resolutionOrder h
  membersInForce_eq : ∀ {h}, r.Known h → s.membersInForce h = r.membersInForce h
  inForce?_eq : ∀ {h}, r.Known h → ∀ name, s.inForce? h name = r.inForce? h name
  memberCalled?_eq : ∀ {h}, r.Known h → ∀ label, r.CallSettled s h label →
    s.memberCalled? h label = r.memberCalled? h label
  isA_eq : ∀ {h}, r.Known h → ∀ target, s.isA h target = r.isA h target
  does_eq : ∀ {h}, r.Known h → ∀ target, s.does h target = r.does h target
  typeName?_eq : ∀ {h}, r.Known h → s.typeName? h = r.typeName? h
  resolve? : ∀ {q h}, r.resolve? q = some h → s.resolve? q = some h

theorem Reachable.view (hr : Reachable r) : Reachable r.view :=
  hr.run (.perform (.start r) .sealAll)

theorem allSealed_view (r : Registry) : r.view.AllSealed := allSealed_sealAll r.toCatalog

theorem Reachable.upholds (hr : Reachable r) (hrun : Run r.view s) : Upholds r.view s := by
  have hlater := hr.view.later hrun
  have hgrows := hrun.grows
  have hnames := hrun.evolves.succeeds.grows
  exact {
    isSealed := fun hk => hlater.keepsSealed.isSealed (allSealed_view r _ hk)
    lineage_eq := fun hk => hlater.lineage_eq (allSealed_view r _ hk)
    resolutionOrder_eq := fun hk => hlater.resolutionOrder_eq (allSealed_view r _ hk)
    membersInForce_eq := fun hk => hlater.membersInForce_eq (allSealed_view r _ hk)
    inForce?_eq := fun hk _ => hlater.inForce?_eq (allSealed_view r _ hk)
    memberCalled?_eq := fun hk _ hsettled =>
      hsettled.memberCalled?_eq hnames (hlater.membersInForce_eq (allSealed_view r _ hk))
    isA_eq := fun hk => hlater.isA_eq (allSealed_view r _ hk)
    does_eq := fun hk => hlater.does_eq (allSealed_view r _ hk)
    typeName?_eq := hr.view.named.typeName?_eq hgrows hnames
    resolve? := resolve?_mono hgrows hnames }

end Registry

end ObjectSystem
