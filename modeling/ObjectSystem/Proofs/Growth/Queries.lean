import ObjectSystem.Catalog.Resolution
import ObjectSystem.Proofs.Conflict.Lookup
import ObjectSystem.Proofs.Growth.Types
import ObjectSystem.TypeTest

/-!
# Answers of a growing catalog

When a catalog grows, its edges and declarations stay and others may come. So a type goes on
inheriting from what it inherits from and doing what it does, and goes on having a member of each
name of which it has one, though perhaps another member. A test that was passed is passed for good.
-/

namespace ObjectSystem

namespace Catalog

open Relation

variable {c d : Catalog} {a b h x type subject target : Handle} {m : Name}

/-- The type has a member of that name if a type in its resolution order declares one. -/
theorem isSome_inForce?_iff :
    (c.inForce? type m).isSome ↔ ∃ x ∈ c.resolutionOrder type, c.declares x m := by
  simp only [inForce?, List.findSome?_isSome_iff, isSome_ownMember?]

namespace Grows

theorem known (hcd : c.Grows d) (hk : c.Known h) : d.Known h := by
  obtain ⟨t, ht⟩ := hk.exists_entry
  obtain ⟨u, hu, -⟩ := hcd.typeAt? ht
  exact known_of_typeAt? hu

theorem isRole (hcd : c.Grows d) (hr : c.isRole h) : d.isRole h := by
  obtain ⟨t, ht, hrole⟩ := isRole_iff.mp hr
  obtain ⟨u, hu, htu⟩ := hcd.typeAt? ht
  exact isRole_iff.mpr ⟨u, hu, htu.isRole_eq ▸ hrole⟩

theorem extends_mono (hcd : c.Grows d) (hab : c.Extends a b) : d.Extends a b := by
  obtain ⟨t, ht, hp⟩ := extends_iff.mp hab
  obtain ⟨u, hu, htu⟩ := hcd.typeAt? ht
  exact extends_iff.mpr ⟨u, hu, htu.parent hp⟩

theorem consumes_mono (hcd : c.Grows d) (hab : c.Consumes a b) : d.Consumes a b := by
  obtain ⟨t, ht, hb⟩ := consumes_iff.mp hab
  obtain ⟨u, hu, htu⟩ := hcd.typeAt? ht
  exact consumes_iff.mpr ⟨u, hu, htu.roles.subset hb⟩

theorem declares (hcd : c.Grows d) (hd : c.declares h m) : d.declares h m := by
  simp only [Catalog.declares, Option.any_eq_true] at hd ⊢
  obtain ⟨t, ht, hd⟩ := hd
  obtain ⟨u, hu, htu⟩ := hcd.typeAt? ht
  exact ⟨u, hu, htu.declares hd⟩

theorem mem_lineage (hcd : c.Grows d) (wf : c.WellFormed) (wf' : d.WellFormed)
    (hx : x ∈ c.lineage h) : x ∈ d.lineage h := by
  obtain ⟨hk, hpath⟩ := wf.mem_lineage.mp hx
  have hpath' := ReflTransGen.mono (fun _ _ => hcd.extends_mono) h x hpath
  exact wf'.mem_lineage.mpr ⟨hcd.known hk, hpath'⟩

theorem mem_resolutionOrder (hcd : c.Grows d) (wf : c.WellFormed) (wf' : d.WellFormed)
    (hx : x ∈ c.resolutionOrder h) : x ∈ d.resolutionOrder h := by
  obtain ⟨k, hk, hpath⟩ := wf.mem_resolutionOrder.mp hx
  exact wf'.mem_resolutionOrder.mpr ⟨k, hcd.mem_lineage wf wf' hk,
    ReflTransGen.mono (fun _ _ => hcd.consumes_mono) k x hpath⟩

theorem isA (hcd : c.Grows d) (wf : c.WellFormed) (wf' : d.WellFormed)
    (h : c.isA subject target) : d.isA subject target := by
  simp only [Catalog.isA, decide_eq_true_eq] at h ⊢
  exact hcd.mem_lineage wf wf' h

theorem does (hcd : c.Grows d) (wf : c.WellFormed) (wf' : d.WellFormed)
    (h : c.does subject target) : d.does subject target := by
  obtain ⟨hrole, hmem⟩ := wf.does_iff.mp h
  exact wf'.does_iff.mpr ⟨hcd.isRole hrole, hcd.mem_resolutionOrder wf wf' hmem⟩

theorem isSome_inForce? (hcd : c.Grows d) (wf : c.WellFormed) (wf' : d.WellFormed)
    (h : (c.inForce? type m).isSome) : (d.inForce? type m).isSome := by
  obtain ⟨x, hx, hdeclares⟩ := isSome_inForce?_iff.mp h
  exact isSome_inForce?_iff.mpr ⟨x, hcd.mem_resolutionOrder wf wf' hx, hcd.declares hdeclares⟩

theorem check {test : TypeTest} (hcd : c.Grows d) (wf : c.WellFormed) (wf' : d.WellFormed)
    (h : test.check c subject) : test.check d subject := by
  cases test with
  | isA target => exact hcd.isA wf wf' h
  | does target => exact hcd.does wf wf' h

theorem check? {table : HelperTable} {helper : String} (hcd : c.Grows d) (wf : c.WellFormed)
    (wf' : d.WellFormed) (h : table.check? c helper subject = some true) :
    table.check? d helper subject = some true := by
  obtain ⟨test, htest, hcheck⟩ := Option.map_eq_some_iff.mp h
  exact Option.map_eq_some_iff.mpr ⟨test, htest, hcd.check wf wf' hcheck⟩

end Grows

end Catalog

end ObjectSystem
