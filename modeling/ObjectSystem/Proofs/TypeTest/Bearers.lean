import ObjectSystem.Proofs.Naming.Binding
import ObjectSystem.Proofs.TypeTest.Table

/-!
# The types of a helper

A named type has one helper: what is asked of it and the last segment of its name (`HasHelper`). The
entries of a helper are the tests of the types that have it, in order of declaration
(`map_entriesOf_helpers`), so a test stands alone if its helper is that of one type only.
-/

namespace ObjectSystem

namespace Catalog

variable {c : Catalog} {t : TypeEntry}

theorem WellFormed.nodup_map_handle (wf : c.WellFormed) :
    (c.types.toList.map TypeEntry.handle).Nodup := by
  have hhandles : c.types.toList.map TypeEntry.handle =
      (List.range c.types.toList.length).map Handle.mk := by
    apply List.ext_getElem (by simp)
    intro i hi _
    rw [List.length_map] at hi
    have hentry : c.typeAt? ⟨i⟩ = some c.types.toList[i] := by
      rw [typeAt?_eq_getElem?, List.getElem?_eq_getElem hi]
    rw [List.getElem_map, List.getElem_map, List.getElem_range, wf.handle_eq hentry]
  rw [hhandles]
  exact List.nodup_range.map fun i j hij => Handle.mk.inj hij

end Catalog

namespace Registry

open Catalog HelperTable

variable {r : Registry} {k : Handle} {helper : String} {t : TypeEntry}

/-- The string is the helper of the type: what is asked of a type of its kind, and the last segment
of its name. Anonymous types have none. -/
def HasHelper (r : Registry) (k : Handle) (helper : String) : Prop :=
  r.isNamed k ∧ ∃ q, r.typeName? k = some q ∧
    helper = (if r.isRole k then "does_" else "is_") ++ lastSegment q

def bearers (r : Registry) (helper : String) : List Handle :=
  (r.types.toList.filter fun t => r.helper t == helper && !t.isAnonymous).map TypeEntry.handle

theorem helper_eq (r : Registry) (t : TypeEntry) : r.helper t =
    (if t.isRole then "does_" else "is_") ++ lastSegment (r.names.lookup t.name) := by
  rw [Registry.helper, TypeEntry.test]
  split <;> rfl

theorem hasHelper_iff : r.HasHelper k helper ↔
    ∃ t, r.typeAt? k = some t ∧ t.isAnonymous = false ∧ r.helper t = helper := by
  rw [HasHelper, isNamed, typeName?, isRole]
  cases r.typeAt? k with
  | none => simp
  | some t => simp [helper_eq, eq_comm (a := helper)]

theorem mem_bearers_iff (wf : r.WellFormed) : k ∈ r.bearers helper ↔ r.HasHelper k helper := by
  simp only [bearers, hasHelper_iff, List.mem_map, List.mem_filter, Bool.and_eq_true,
    Bool.not_eq_true', beq_iff_eq]
  constructor
  · rintro ⟨t, ⟨ht, hhelper, hnamed⟩, rfl⟩
    exact ⟨t, wf.mem_types_iff.mp ht, hnamed, hhelper⟩
  · rintro ⟨t, ht, hnamed, hhelper⟩
    have heq := wf.handle_eq ht
    exact ⟨t, ⟨wf.mem_types_iff.mpr (heq ▸ ht), hhelper, hnamed⟩, heq⟩

theorem nodup_bearers (wf : r.WellFormed) (helper : String) : (r.bearers helper).Nodup :=
  (List.filter_sublist.map TypeEntry.handle).nodup wf.nodup_map_handle

theorem bearers_eq_singleton_iff (wf : r.WellFormed) :
    r.bearers helper = [k] ↔ ∀ j, r.HasHelper j helper ↔ j = k := by
  constructor
  · intro hone j
    rw [← mem_bearers_iff wf, hone, List.mem_singleton]
  · intro honly
    have hperm : (r.bearers helper).Perm [k] := by
      rw [List.perm_ext_iff_of_nodup (nodup_bearers wf helper) (List.nodup_singleton k)]
      intro j
      rw [mem_bearers_iff wf, honly, List.mem_singleton]
    exact List.perm_singleton.mp hperm

theorem map_entriesOf_helpers (wf : r.WellFormed) (helper : String) :
    (entriesOf helper r.helpers).map (some ·.2) = (r.bearers helper).map r.test? := by
  rw [entriesOf, helpers, bearers, List.filter_map, List.filter_filter, List.map_map, List.map_map]
  refine List.map_congr_left fun t ht => ?_
  have hentry := wf.mem_types_iff.mp (List.mem_of_mem_filter ht)
  rw [Function.comp_apply, Function.comp_apply, test?, hentry, Option.map_some]

/-- The test that stands alone under a helper is that of the only type that has the helper. -/
theorem alone?_helpers_iff (wf : r.WellFormed) {test : TypeTest} :
    alone? helper r.helpers = some test ↔
      ∃ k, (∀ j, r.HasHelper j helper ↔ j = k) ∧ r.test? k = some test := by
  rw [alone?_eq_some_iff_map, map_entriesOf_helpers wf, List.map_eq_singleton_iff]
  simp only [bearers_eq_singleton_iff wf]

end Registry

end ObjectSystem
