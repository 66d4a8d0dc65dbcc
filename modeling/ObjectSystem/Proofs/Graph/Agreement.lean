import ObjectSystem.Proofs.Graph.Basic

/-!
# Catalogs that agree

A change of a catalog leaves most of it alone. `Agree view c d` says that two catalogs have equally
many types and that these look the same through the view; what is computed from the view alone is
then the same in both. Catalogs that agree on handles, kinds, parents and roles have the same graph.
-/

namespace ObjectSystem.Catalog

open Relation

/-! ## Changing one type -/

section Modify

variable {c : Catalog} {h : Handle} {f : TypeEntry → TypeEntry}

theorem map_typeAt?_modify {α : Type} (view : TypeEntry → α) (hf : ∀ t, view (f t) = view t)
    (k : Handle) : ((c.modify h f).typeAt? k).map view = (c.typeAt? k).map view := by
  rw [typeAt?_modify]
  split
  · rw [Option.map_map]
    congr 1
    funext t
    exact hf t
  · rfl

theorem typeAt?_modify_of_ne {k : Handle} (hne : h ≠ k) :
    (c.modify h f).typeAt? k = c.typeAt? k := by
  rw [typeAt?_modify, if_neg hne]

theorem typeAt?_modify_self {t : TypeEntry} (ht : c.typeAt? h = some t) :
    (c.modify h f).typeAt? h = some (f t) := by
  rw [typeAt?_modify, if_pos rfl, ht, Option.map_some]

end Modify

/-- Two catalogs with equally many types that differ in nothing that the view shows. -/
structure Agree {α : Type} (view : TypeEntry → α) (c d : Catalog) : Prop where
  size_eq : d.size = c.size
  map_typeAt?_eq : ∀ h, (d.typeAt? h).map view = (c.typeAt? h).map view

namespace Agree

variable {α β : Type} {view : TypeEntry → α} {c d : Catalog}

theorem modify {h : Handle} {f : TypeEntry → TypeEntry} (hf : ∀ t, view (f t) = view t) :
    Agree view c (c.modify h f) :=
  ⟨size_modify c h f, map_typeAt?_modify view hf⟩

theorem known_iff (hcd : Agree view c d) {h : Handle} : d.Known h ↔ c.Known h := by
  rw [Known, Known, hcd.size_eq]

theorem exists_entry (hcd : Agree view c d) {h : Handle} {t : TypeEntry}
    (ht : d.typeAt? h = some t) : ∃ u, c.typeAt? h = some u ∧ view u = view t := by
  have heq := hcd.map_typeAt?_eq h
  rw [ht, Option.map_some] at heq
  exact Option.map_eq_some_iff.mp heq.symm

theorem bind_eq (hcd : Agree view c d) (g : α → Option β) (h : Handle) :
    (d.typeAt? h).bind (fun t => g (view t)) = (c.typeAt? h).bind fun t => g (view t) := by
  have heq := congrArg (Option.bind · g) (hcd.map_typeAt?_eq h)
  rwa [Option.bind_map, Option.bind_map] at heq

theorem any_eq (hcd : Agree view c d) (g : α → Bool) (h : Handle) :
    (d.typeAt? h).any (fun t => g (view t)) = (c.typeAt? h).any fun t => g (view t) := by
  have heq := congrArg (Option.any g) (hcd.map_typeAt?_eq h)
  rwa [Option.any_map, Option.any_map] at heq

theorem parent?_eq (hcd : Agree TypeEntry.parent c d) (h : Handle) : d.parent? h = c.parent? h :=
  hcd.bind_eq id h

theorem rolesOf_eq (hcd : Agree TypeEntry.roles c d) (h : Handle) : d.rolesOf h = c.rolesOf h := by
  simp only [rolesOf, hcd.map_typeAt?_eq h]

theorem membersOf_eq (hcd : Agree TypeEntry.members c d) (h : Handle) :
    d.membersOf h = c.membersOf h := by
  simp only [membersOf, hcd.map_typeAt?_eq h]

theorem declares_eq (hcd : Agree TypeEntry.members c d) (h : Handle) (name : Name) :
    d.declares h name = c.declares h name := by
  simp only [declares, TypeEntry.declares_eq_any]
  exact hcd.any_eq (List.any · (·.name == name)) h

theorem isClass_eq (hcd : Agree (·.form.kind) c d) (h : Handle) : d.isClass h = c.isClass h :=
  hcd.any_eq (fun kind => decide (kind = .cls)) h

theorem isRole_eq (hcd : Agree (·.form.kind) c d) (h : Handle) : d.isRole h = c.isRole h :=
  hcd.any_eq (fun kind => decide (kind = .role)) h

end Agree

structure SameTypes (c d : Catalog) : Prop where
  handle : Agree TypeEntry.handle c d
  kind : Agree (·.form.kind) c d

/-- Where handles and kinds stay, well-formedness is a matter of the edges. -/
theorem SameTypes.wellFormed {c d : Catalog} (hcd : SameTypes c d) (wf : c.WellFormed)
    (hextends : ∀ {a b}, d.Extends a b → c.isClass a ∧ c.isClass b)
    (hconsumes : ∀ {a b}, d.Consumes a b → c.isRole b) (hnodup : ∀ a, (d.rolesOf a).Nodup)
    (hextends_acyclic : ∀ a, ¬ TransGen d.Extends a a)
    (hconsumes_acyclic : ∀ a, ¬ TransGen d.Consumes a a) : d.WellFormed where
  handle_eq ht := by
    obtain ⟨u, hu, heq⟩ := hcd.handle.exists_entry ht
    rw [← heq, wf.handle_eq hu]
  extends_class hab := by
    rw [hcd.kind.isClass_eq, hcd.kind.isClass_eq]
    exact hextends hab
  consumes_role hab := by
    rw [hcd.kind.isRole_eq]
    exact hconsumes hab
  nodup_roles := hnodup
  extends_acyclic := hextends_acyclic
  consumes_acyclic := hconsumes_acyclic

/-- The catalogs have the same types and edges; members and seals may differ. -/
structure SameGraph (c d : Catalog) : Prop extends SameTypes c d where
  parent : Agree TypeEntry.parent c d
  roles : Agree TypeEntry.roles c d

namespace SameGraph

variable {c d : Catalog}

theorem modify {h : Handle} {f : TypeEntry → TypeEntry} (hhandle : ∀ t, (f t).handle = t.handle)
    (hform : ∀ t, (f t).form = t.form) (hroles : ∀ t, (f t).roles = t.roles) :
    SameGraph c (c.modify h f) where
  handle := .modify hhandle
  kind := .modify fun t => by rw [hform]
  parent := .modify fun t => by simp only [TypeEntry.parent, hform]
  roles := .modify hroles

theorem extends_eq (hcd : SameGraph c d) : d.Extends = c.Extends := by
  funext a b
  rw [Extends, Extends, hcd.parent.parent?_eq]

theorem consumes_eq (hcd : SameGraph c d) : d.Consumes = c.Consumes := by
  funext a b
  rw [Consumes, Consumes, hcd.roles.rolesOf_eq]

theorem wellFormed (hcd : SameGraph c d) (wf : c.WellFormed) : d.WellFormed := by
  apply hcd.toSameTypes.wellFormed wf
  · rw [hcd.extends_eq]
    exact wf.extends_class
  · rw [hcd.consumes_eq]
    exact wf.consumes_role
  · intro a
    rw [hcd.roles.rolesOf_eq]
    exact wf.nodup_roles a
  · rw [hcd.extends_eq]
    exact wf.extends_acyclic
  · rw [hcd.consumes_eq]
    exact wf.consumes_acyclic

end SameGraph

end ObjectSystem.Catalog
