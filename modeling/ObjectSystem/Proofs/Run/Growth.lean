import ObjectSystem.Proofs.Growth.Queries
import ObjectSystem.Proofs.Run.Graph
import ObjectSystem.Proofs.Run.Naming

/-!
# Registries grow along runs

Whatever happens to a registry, its catalog grows (`Run.grows`): an edit that fails takes back only
what it wrote itself, and a scratch copy that is dropped leaves the catalog from which it was made.
So an answer that says yes is never withdrawn (`reachable_grows`).
-/

namespace ObjectSystem.Registry

open Catalog

variable {r s : Registry} {h subject : Handle}

theorem Step.grows (h : Step r s) : r.toCatalog.Grows s.toCatalog := by
  cases h with
  | intern => exact .refl _
  | declare _ _ _ _ hnext =>
    rcases place_cases hnext with ⟨-, rfl⟩ | ⟨-, symbols, hsymbols, rfl⟩
    · exact .pushAnonymous _ _
    · exact .push hsymbols
  | extend h => exact .addParent h.parent?_eq
  | consume => exact .addRole _ _
  | addMember => exact .addMember _ _
  | sealType type => exact .sealType _ type
  | sealAll => exact .sealAll _

theorem Evolves.grows (h : Evolves r s) : r.toCatalog.Grows s.toCatalog :=
  h.respects (R := fun r s => r.toCatalog.Grows s.toCatalog) (fun r => .refl r.toCatalog) .trans
    Step.grows fun _ => .refl _

theorem Run.grows (h : Run r s) : r.toCatalog.Grows s.toCatalog := h.evolves.grows

/-! ## What is looked up by string -/

theorem Named.typeName?_eq (hr : r.Named) (hgrows : r.toCatalog.Grows s.toCatalog)
    (hnames : r.names.Grows s.names) (hk : r.Known h) : s.typeName? h = r.typeName? h := by
  obtain ⟨t, ht⟩ := hk.exists_entry
  obtain ⟨u, hu, htu⟩ := hgrows.typeAt? ht
  rw [typeName?_of_entry ht, typeName?_of_entry hu, htu.name_eq, hnames.lookup_eq (hr.type ht)]

theorem resolve?_mono (hgrows : r.toCatalog.Grows s.toCatalog) (hnames : r.names.Grows s.names)
    {q : String} (hq : r.resolve? q = some h) : s.resolve? q = some h := by
  obtain ⟨name, hget, hsymbol⟩ := resolve?_eq_some.mp hq
  exact resolve?_eq_some.mpr ⟨name, hnames.get?_eq_some hget, hgrows.resolve? hsymbol⟩

theorem can_mono (hgrows : r.toCatalog.Grows s.toCatalog) (hnames : r.names.Grows s.names)
    (wf : r.WellFormed) (wf' : s.WellFormed) {label : String} (hcan : r.can subject label) :
    s.can subject label := by
  simp only [can, memberCalled?, Option.isSome_bind, Option.any_eq_true] at hcan ⊢
  obtain ⟨name, hget, hmember⟩ := hcan
  exact ⟨name, hnames.get?_eq_some hget, hgrows.isSome_inForce? wf wf' hmember⟩

/-- In every later state of a registry each of its types is there, with what it extends, consumes
and declares in the places of before; each name stands for the type that it stood for. Whatever was
inherited from, done or had by a type then is so now, and a helper that held, also one of an old
table, holds. -/
theorem reachable_grows (hr : Reachable r) (hrun : Run r s) :
    r.toCatalog.Grows s.toCatalog ∧
    (∀ h, r.Known h → s.typeName? h = r.typeName? h) ∧
    (∀ q h, r.resolve? q = some h → s.resolve? q = some h) ∧
    (∀ subject target, r.isA subject target → s.isA subject target) ∧
    (∀ subject target, r.does subject target → s.does subject target) ∧
    (∀ subject label, r.can subject label → s.can subject label) ∧
    ∀ (table : HelperTable) helper subject,
      table.check? r.toCatalog helper subject = some true →
        table.check? s.toCatalog helper subject = some true := by
  have hgrows := hrun.grows
  have hnames := hrun.evolves.succeeds.grows
  have wf := hr.wellFormed
  have wf' := (hr.run hrun).wellFormed
  exact ⟨hgrows, fun _ => hr.named.typeName?_eq hgrows hnames,
    fun _ _ => resolve?_mono hgrows hnames, fun _ _ => hgrows.isA wf wf',
    fun _ _ => hgrows.does wf wf', fun _ _ => can_mono hgrows hnames wf wf',
    fun _ _ _ => hgrows.check? wf wf'⟩

/-- Whatever is done at the farm, the duck goes on being an animal that has legs. -/
theorem farm_grows : (HelperTable.build farm).check? farm.toCatalog "is_Animal" ⟨3⟩ = some true ∧
    farm.can ⟨3⟩ "legs" ∧ ∀ o : Operation,
      (HelperTable.build farm).check? (o.after farm).toCatalog "is_Animal" ⟨3⟩ = some true ∧
      (o.after farm).can ⟨3⟩ "legs" := by
  have hanimal : (HelperTable.build farm).check? farm.toCatalog "is_Animal" ⟨3⟩ = some true := by
    decide +kernel
  have hlegs : farm.can ⟨3⟩ "legs" := by decide +kernel
  refine ⟨hanimal, hlegs, fun o => ?_⟩
  obtain ⟨-, -, -, -, -, hcan, hcheck⟩ :=
    reachable_grows reachable_farm (.perform (.start farm) o)
  exact ⟨hcheck _ _ _ hanimal, hcan _ _ hlegs⟩

end ObjectSystem.Registry
