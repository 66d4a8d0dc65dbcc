import ObjectSystem.Proofs.Graph.Agreement

/-!
# Members and edges that are added

What one more member, consumed role or parent does to the graph, read off edge by edge, and why the
graph stays well-formed: an edge is added only where nothing leads back (`not_transGen_insert`).
-/

namespace ObjectSystem

open Relation

/-- Adding one edge makes no cycle if nothing leads from its end to its start. -/
theorem not_transGen_insert {E : Handle → Handle → Prop} {a b : Handle}
    (hacyclic : ∀ x, ¬ TransGen E x x) (hback : ¬ ReflTransGen E b a) (x : Handle) :
    ¬ TransGen (fun x y => E x y ∨ x = a ∧ y = b) x x := by
  -- a path has old edges only, or the new one between two old paths
  have hsplit : ∀ y, TransGen (fun x y => E x y ∨ x = a ∧ y = b) x y →
      TransGen E x y ∨ ReflTransGen E x a ∧ ReflTransGen E b y := by
    intro y hy
    induction hy with
    | single hedge =>
      rcases hedge with hedge | ⟨rfl, rfl⟩
      · exact .inl (.single hedge)
      · exact .inr ⟨.refl, .refl⟩
    | tail _ hedge ih =>
      rcases ih with hold | ⟨hxa, hby⟩ <;> rcases hedge with hedge | ⟨rfl, rfl⟩
      · exact .inl (hold.tail hedge)
      · exact .inr ⟨hold.to_reflTransGen, .refl⟩
      · exact .inr ⟨hxa, hby.tail hedge⟩
      · exact absurd hby hback
  intro hcycle
  rcases hsplit x hcycle with hold | ⟨hxa, hbx⟩
  · exact hacyclic x hold
  · exact hback (hbx.trans hxa)

namespace Catalog

/-! ## Adding a member -/

section AddMember

variable {c : Catalog} {type : Handle} {m : Member}

theorem sameGraph_addMember : SameGraph c (c.addMember type m) :=
  .modify (fun _ => rfl) (fun _ => rfl) fun _ => rfl

theorem declares_addMember (hk : c.Known type) (h : Handle) (name : Name) :
    (c.addMember type m).declares h name =
      (c.declares h name || (decide (h = type) && m.name == name)) := by
  obtain ⟨t, ht⟩ := hk.exists_entry
  by_cases hh : type = h
  · subst hh
    have hnew : (c.addMember type m).typeAt? type = some (t.withMember m) :=
      typeAt?_modify_self ht
    simp [declares, hnew, ht, TypeEntry.declares_eq_any, TypeEntry.withMember]
  · have hold : (c.addMember type m).typeAt? h = c.typeAt? h := typeAt?_modify_of_ne hh
    simp [declares, hold, Ne.symm hh]

end AddMember

/-! ## Adding a consumed role -/

section AddRole

variable {c : Catalog} {type role : Handle}

theorem rolesOf_addRole (hk : c.Known type) (h : Handle) :
    (c.addRole type role).rolesOf h =
      if h = type then c.rolesOf type ++ [role] else c.rolesOf h := by
  obtain ⟨t, ht⟩ := hk.exists_entry
  by_cases hh : h = type
  · subst hh
    have hnew : (c.addRole h role).typeAt? h = some (t.withRole role) := typeAt?_modify_self ht
    rw [if_pos rfl, rolesOf_of_entry hnew, rolesOf_of_entry ht]
    rfl
  · have hold : (c.addRole type role).typeAt? h = c.typeAt? h :=
      typeAt?_modify_of_ne (Ne.symm hh)
    rw [if_neg hh, rolesOf, hold, rolesOf]

theorem consumes_addRole (hk : c.Known type) {a b : Handle} :
    (c.addRole type role).Consumes a b ↔ c.Consumes a b ∨ a = type ∧ b = role := by
  rw [Consumes, rolesOf_addRole hk, Consumes]
  by_cases ha : a = type
  · subst ha
    simp
  · simp [ha]

theorem agree_addRole {α : Type} {view : TypeEntry → α}
    (hview : ∀ t, view (t.withRole role) = view t) : Agree view c (c.addRole type role) :=
  .modify hview

theorem extends_addRole : (c.addRole type role).Extends = c.Extends := by
  funext a b
  rw [Extends, (agree_addRole fun _ => rfl).parent?_eq, Extends]

theorem nodup_rolesOf_addRole (wf : c.WellFormed) (hk : c.Known type)
    (hnew : ¬ c.Consumes type role) (a : Handle) :
    ((c.addRole type role).rolesOf a).Nodup := by
  rw [rolesOf_addRole hk]
  split
  · exact List.nodup_append.mpr ⟨wf.nodup_roles type, List.nodup_singleton role, fun x hx y hy =>
      fun heq => hnew (List.mem_singleton.mp hy ▸ heq ▸ hx)⟩
  · exact wf.nodup_roles a

theorem WellFormed.addRole (wf : c.WellFormed) (hk : c.Known type) (hrole : c.isRole role)
    (hnew : ¬ c.Consumes type role) (hback : ¬ ReflTransGen c.Consumes role type) :
    (c.addRole type role).WellFormed := by
  have htypes : SameTypes c (c.addRole type role) :=
    ⟨agree_addRole fun _ => rfl, agree_addRole fun _ => rfl⟩
  have hconsumes : (c.addRole type role).Consumes =
      fun a b => c.Consumes a b ∨ a = type ∧ b = role := by
    funext a b
    exact propext (consumes_addRole hk)
  apply htypes.wellFormed wf
  · rw [extends_addRole]
    exact wf.extends_class
  · intro a b hab
    rcases (consumes_addRole hk).mp hab with hab | ⟨-, rfl⟩
    · exact wf.consumes_role hab
    · exact hrole
  · exact nodup_rolesOf_addRole wf hk hnew
  · rw [extends_addRole]
    exact wf.extends_acyclic
  · rw [hconsumes]
    exact not_transGen_insert wf.consumes_acyclic hback

end AddRole

/-! ## Adding a parent -/

section AddParent

variable {c : Catalog} {type parent : Handle}

theorem agree_addParent {α : Type} {view : TypeEntry → α}
    (hview : ∀ t, view (t.withParent parent) = view t) : Agree view c (c.addParent type parent) :=
  .modify hview

theorem extends_addParent (hclass : c.isClass type) (hnone : c.parent? type = none)
    {a b : Handle} :
    (c.addParent type parent).Extends a b ↔ c.Extends a b ∨ a = type ∧ b = parent := by
  obtain ⟨t, ht, hentry⟩ := isClass_iff.mp hclass
  by_cases ha : a = type
  · subst ha
    have hnew : (c.addParent a parent).typeAt? a = some (t.withParent parent) :=
      typeAt?_modify_self ht
    rw [Extends, Extends, parent?_of_entry hnew, TypeEntry.parent_withParent hentry, hnone]
    simp [eq_comm]
  · have hold : (c.addParent type parent).typeAt? a = c.typeAt? a :=
      typeAt?_modify_of_ne (Ne.symm ha)
    simp [Extends, parent?, hold, ha]

theorem consumes_addParent : (c.addParent type parent).Consumes = c.Consumes := by
  funext a b
  rw [Consumes, (agree_addParent (TypeEntry.roles_withParent · parent)).rolesOf_eq, Consumes]

theorem WellFormed.addParent (wf : c.WellFormed) (hclass : c.isClass type)
    (hnone : c.parent? type = none) (hparent : c.isClass parent)
    (hback : ¬ ReflTransGen c.Extends parent type) : (c.addParent type parent).WellFormed := by
  have htypes : SameTypes c (c.addParent type parent) :=
    ⟨agree_addParent fun t => TypeEntry.handle_withParent t parent,
      agree_addParent fun t => TypeEntry.kind_withParent t parent⟩
  have hextends : (c.addParent type parent).Extends =
      fun a b => c.Extends a b ∨ a = type ∧ b = parent := by
    funext a b
    exact propext (extends_addParent hclass hnone)
  apply htypes.wellFormed wf
  · intro a b hab
    rcases (extends_addParent hclass hnone).mp hab with hab | ⟨rfl, rfl⟩
    · exact wf.extends_class hab
    · exact ⟨hclass, hparent⟩
  · rw [consumes_addParent]
    exact wf.consumes_role
  · intro a
    rw [(agree_addParent fun t => TypeEntry.roles_withParent t parent).rolesOf_eq]
    exact wf.nodup_roles a
  · rw [hextends]
    exact not_transGen_insert wf.extends_acyclic hback
  · rw [consumes_addParent]
    exact wf.consumes_acyclic

end AddParent

end Catalog

end ObjectSystem
