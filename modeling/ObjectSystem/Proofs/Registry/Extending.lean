import ObjectSystem.Proofs.Linearization.Retention
import ObjectSystem.Proofs.Registry.Change

/-!
# Classes that come to extend

When exactly a class comes to extend another one (`extend_eq_ok_iff`), and what this does to
lineages. A class without a parent can only stand at the end of one, so the lineages that end there
go on with that of the parent (`lineage_addParent`), and the others stay. They are those of the
types that do not descend from the class, which are retained as they are.
-/

namespace ObjectSystem

namespace Catalog

variable {c : Catalog} {type parent root x y : Handle}

/-- A type without a parent stands in a lineage at its end or not at all. -/
theorem WellFormed.getLast?_lineage_iff (wf : c.WellFormed) (hroot : c.parent? root = none) :
    (c.lineage x).getLast? = some root ↔ root ∈ c.lineage x := by
  refine ⟨List.mem_of_getLast?, fun hmem => ?_⟩
  have hk : c.Known x := (wf.mem_lineage.mp hmem).1
  induction x, hk using wf.lineage_induction with
  | root x hk hp =>
    rw [lineage_of_root hk hp, List.mem_singleton] at hmem
    rw [lineage_of_root hk hp, hmem, List.getLast?_singleton]
  | child a b hab ih =>
    rw [wf.lineage_of_extends hab, List.mem_cons] at hmem
    rcases hmem with rfl | hmem
    · exact absurd (hroot.symm.trans hab) (by simp)
    · rw [wf.lineage_of_extends hab, List.getLast?_cons, ih hmem, Option.getD_some]

theorem MayExtend.exists_entries (h : c.MayExtend type parent) :
    ∃ child entry, c.typeAt? type = some child ∧ c.typeAt? parent = some entry ∧
      child.isRole = false ∧ child.isSealed = false ∧ child.parent = none ∧
      entry.isRole = false := by
  obtain ⟨child, hchild, hclass⟩ := isClass_iff.mp h.isClass
  obtain ⟨entry, hentry, hparent⟩ := isClass_iff.mp h.parent_isClass
  have hopen := h.isOpen
  have hnone := h.parent?_eq
  rw [parent?_of_entry hchild] at hnone
  simp only [Catalog.isOpen, hchild, Option.any_some, Bool.not_eq_true'] at hopen
  exact ⟨child, entry, hchild, hentry, TypeEntry.isRole_eq_false hclass, hopen, hnone,
    TypeEntry.isRole_eq_false hparent⟩

/-! ## Lineages with one more parent -/

namespace MayExtend

variable (h : c.MayExtend type parent) (wf : c.WellFormed)

include h

theorem extends_iff {a b : Handle} :
    (c.addParent type parent).Extends a b ↔ c.Extends a b ∨ a = type ∧ b = parent :=
  extends_addParent h.isClass h.parent?_eq

include wf

theorem retains :
    Retains (fun x => c.Known x ∧ type ∉ c.lineage x) c (c.addParent type parent) where
  wellFormed := wf
  wellFormed' := h.wellFormed wf
  known hx := hx.1
  parent := by
    rintro a b ⟨-, ha⟩ hab
    rw [wf.lineage_of_extends hab, List.mem_cons, not_or] at ha
    exact ⟨wf.known_of_extends hab, ha.2⟩
  role := by
    rintro a b - hab
    have hrole := wf.consumes_role hab
    refine ⟨wf.known_of_consumes hab, fun hmem => ?_⟩
    rw [wf.lineage_of_isRole hrole, List.mem_singleton] at hmem
    exact not_isClass_of_isRole hrole (hmem ▸ h.isClass)
  typeAt?_eq := by
    rintro x ⟨hk, hx⟩
    apply typeAt?_modify_of_ne
    rintro rfl
    exact hx (wf.mem_lineage_self hk)

theorem lineage_of_not_mem (hx : type ∉ c.lineage x) :
    (c.addParent type parent).lineage x = c.lineage x := by
  by_cases hk : c.Known x
  · exact (h.retains wf).lineage_eq ⟨hk, hx⟩
  · have hkind : Agree (·.form.kind) c (c.addParent type parent) :=
      agree_addParent fun t => TypeEntry.kind_withParent t parent
    rw [lineage_of_unknown hk, lineage_of_unknown (mt hkind.known_iff.mp hk)]

theorem lineage_of_mem (hx : type ∈ c.lineage x) :
    (c.addParent type parent).lineage x = c.lineage x ++ c.lineage parent := by
  have wf' := h.wellFormed wf
  have hk : c.Known x := (wf.mem_lineage.mp hx).1
  induction x, hk using wf.lineage_induction with
  | root x hk hp =>
    rw [lineage_of_root hk hp, List.mem_singleton] at hx
    subst hx
    have hedge : (c.addParent type parent).Extends type parent :=
      h.extends_iff.mpr (.inr ⟨rfl, rfl⟩)
    rw [wf'.lineage_of_extends hedge, h.lineage_of_not_mem wf h.not_mem_lineage,
      lineage_of_root hk hp, List.singleton_append]
  | child a b hab ih =>
    have hedge : (c.addParent type parent).Extends a b := h.extends_iff.mpr (.inl hab)
    rw [wf.lineage_of_extends hab, List.mem_cons] at hx
    rcases hx with rfl | hx
    · exact absurd (h.parent?_eq.symm.trans hab) (by simp)
    · rw [wf'.lineage_of_extends hedge, wf.lineage_of_extends hab, ih hx, List.cons_append]

/-- The lineages that ended in the class go on with that of the parent. -/
theorem lineage_addParent (x : Handle) :
    (c.addParent type parent).lineage x =
      if (c.lineage x).getLast? = some type then c.lineage x ++ c.lineage parent
      else c.lineage x := by
  split
  · rename_i hlast
    exact h.lineage_of_mem wf ((wf.getLast?_lineage_iff h.parent?_eq).mp hlast)
  · rename_i hlast
    exact h.lineage_of_not_mem wf (mt (wf.getLast?_lineage_iff h.parent?_eq).mpr hlast)

theorem isA_addParent_iff :
    (c.addParent type parent).isA x y ↔
      c.isA x y ∨ c.isClass x ∧ c.isA x type ∧ c.isA parent y := by
  simp only [isA, decide_eq_true_eq]
  by_cases hx : type ∈ c.lineage x
  · have hclass : c.isClass x := by
      rcases wf.isClass_of_extends_path (wf.mem_lineage.mp hx).2 with rfl | ⟨hclass, -⟩
      · exact h.isClass
      · exact hclass
    rw [h.lineage_of_mem wf hx, List.mem_append]
    simp only [hclass, hx, true_and]
  · rw [h.lineage_of_not_mem wf hx]
    simp only [hx, false_and, and_false, or_false]

end MayExtend

end Catalog

namespace Registry

open Catalog

variable {r next : Registry} {type parent : Handle}

theorem extend_eq_ok_iff : r.extend type parent = .ok next ↔
    r.MayExtend type parent ∧ next = { r with toCatalog := r.addParent type parent } := by
  refine ⟨extend_eq_ok, ?_⟩
  rintro ⟨h, rfl⟩
  obtain ⟨child, entry, hchild, hentry, hclass, hopen, hnone, hparent⟩ := h.exists_entries
  simp only [extend, hchild, hentry, hclass, hopen, hnone, hparent, if_neg h.not_mem_lineage]
  rfl

end Registry

end ObjectSystem
