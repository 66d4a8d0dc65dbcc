import ObjectSystem.Catalog.Conflict
import ObjectSystem.Catalog.Resolution
import ObjectSystem.Proofs.Twin.Catalog

/-!
# Members and conflicts of alike catalogs

Members are looked up, listed and provided by comparing names and by following the graph. Where each
name is related to one name only, alike catalogs therefore give related results.
-/

namespace ObjectSystem

open Relator

variable {N : Name → Name → Prop}

structure OwnedMember.Alike (N : Name → Name → Prop) (m m' : OwnedMember) : Prop where
  owner_eq : m'.owner = m.owner
  member : m.member.Alike N m'.member

theorem OwnedMember.Alike.mono {M : Name → Name → Prop} {m m' : OwnedMember} (h : m.Alike N m')
    (hNM : ∀ {n n'}, N n n' → M n n') : m.Alike M m' :=
  { h with member := h.member.mono hNM }

structure Provision.Alike (N : Name → Name → Prop) (p p' : Provision) : Prop where
  member : N p.member p'.member
  roles_eq : p'.roles = p.roles

namespace Provision

variable {known known' more more' : List Provision} {p p' : Provision}

theorem Alike.insert (hN : BiUnique N) (hknown : List.Forall₂ (Alike N) known known')
    (hp : p.Alike N p') : List.Forall₂ (Alike N) (Provision.insert known p)
      (Provision.insert known' p') := by
  induction hknown with
  | nil => exact .cons hp .nil
  | @cons q q' _ _ hq hrest ih =>
    rw [Provision.insert, Provision.insert]
    by_cases heq : q.member = p.member
    · have heq' : q'.member = p'.member := (rel_eq hN hq.member hp.member).mp heq
      rw [if_pos heq, if_pos heq', hq.roles_eq, hp.roles_eq]
      exact .cons ⟨hq.member, rfl⟩ hrest
    · have heq' : ¬ q'.member = p'.member := (rel_eq hN hq.member hp.member).not.mp heq
      rw [if_neg heq, if_neg heq']
      exact .cons hq ih

theorem Alike.merge (hN : BiUnique N) (hknown : List.Forall₂ (Alike N) known known')
    (hmore : List.Forall₂ (Alike N) more more') :
    List.Forall₂ (Alike N) (Provision.merge known more) (Provision.merge known' more') := by
  induction hmore generalizing known known' with
  | nil => exact hknown
  | cons hp _ ih => exact ih (Alike.insert hN hknown hp)

end Provision

namespace Catalog.Alike

variable {c c' : Catalog} {n n' : Name}

/-! ## Members -/

theorem membersOf (h : c.Alike N c') (owner : Handle) :
    List.Forall₂ (Member.Alike N) (c.membersOf owner) (c'.membersOf owner) := by
  rw [Catalog.membersOf, Catalog.membersOf]
  rcases cases_rel (h.typeAt? owner) with ⟨ht, ht'⟩ | ⟨t, t', ht, ht', halike⟩
  · rw [ht, ht']
    exact .nil
  · rw [ht, ht']
    exact halike.members

theorem declaredMembers (h : c.Alike N c') (type : Handle) :
    List.Forall₂ (OwnedMember.Alike N) (c.declaredMembers type) (c'.declaredMembers type) := by
  rw [Catalog.declaredMembers, Catalog.declaredMembers, h.resolutionOrder_eq]
  induction c.resolutionOrder type with
  | nil => exact .nil
  | cons owner rest ih =>
    rw [List.flatMap_cons, List.flatMap_cons]
    refine List.rel_append ?_ ih
    rw [List.forall₂_map_left_iff, List.forall₂_map_right_iff]
    exact (h.membersOf owner).imp fun _ _ hm => ⟨rfl, hm⟩

theorem collect (hN : BiUnique N) {found found' : List OwnedMember} {m m' : OwnedMember}
    (hfound : List.Forall₂ (OwnedMember.Alike N) found found') (hm : m.Alike N m') :
    List.Forall₂ (OwnedMember.Alike N) (Catalog.collect found m) (Catalog.collect found' m') := by
  have hseen : found.any (·.member.name == m.member.name) =
      found'.any (·.member.name == m'.member.name) :=
    any_eq_of_rel hfound fun ho => beq_eq_of_rel hN ho.member.name hm.member.name
  rw [Catalog.collect, Catalog.collect, hseen]
  split
  · exact hfound
  · exact List.rel_append hfound (.cons hm .nil)

theorem membersInForce (h : c.Alike N c') (hN : BiUnique N) (type : Handle) :
    List.Forall₂ (OwnedMember.Alike N) (c.membersInForce type) (c'.membersInForce type) := by
  have hfrom {found found' : List OwnedMember} {ms ms' : List OwnedMember}
      (hfound : List.Forall₂ (OwnedMember.Alike N) found found')
      (hms : List.Forall₂ (OwnedMember.Alike N) ms ms') :
      List.Forall₂ (OwnedMember.Alike N) (ms.foldl Catalog.collect found)
        (ms'.foldl Catalog.collect found') := by
    induction hms generalizing found found' with
    | nil => exact hfound
    | cons hm _ ih => exact ih (collect hN hfound hm)
  exact hfrom .nil (h.declaredMembers type)

def AttributeAlike (N : Name → Name → Prop) (a a' : Name × Attribute) : Prop :=
  N a.1 a'.1 ∧ a.2.erased = a'.2.erased

theorem attributesInForce (h : c.Alike N c') (hN : BiUnique N) (type : Handle) :
    List.Forall₂ (AttributeAlike N) (c.attributesInForce type) (c'.attributesInForce type) := by
  refine List.rel_filterMap (R := OwnedMember.Alike N) ?_ (h.membersInForce hN type)
  intro m m' hm
  obtain ⟨hname, hkind⟩ := hm.member
  dsimp only
  generalize m.member.kind = kind at hkind
  generalize m'.member.kind = kind' at hkind
  cases hkind with
  | stored hrules => exact .some ⟨hname, hrules⟩
  | method _ => exact .none

/-! ## Conflicts -/

theorem united {provided provided' : Handle → List Provision} (hN : BiUnique N)
    (hprovided : ∀ r, List.Forall₂ (Provision.Alike N) (provided r) (provided' r))
    (roles : List Handle) :
    List.Forall₂ (Provision.Alike N) (Catalog.united provided roles)
      (Catalog.united provided' roles) := by
  have hfrom {known known' : List Provision}
      (hknown : List.Forall₂ (Provision.Alike N) known known') :
      List.Forall₂ (Provision.Alike N)
        (roles.foldl (fun known r => Provision.merge known (provided r)) known)
        (roles.foldl (fun known r => Provision.merge known (provided' r)) known') := by
    induction roles generalizing known known' with
    | nil => exact hknown
    | cons r rest ih => exact ih (Provision.Alike.merge hN hknown (hprovided r))
  exact hfrom .nil

theorem provisionsFrom (h : c.Alike N c') (hN : BiUnique N)
    {provided provided' : Handle → List Provision}
    (hprovided : ∀ r, List.Forall₂ (Provision.Alike N) (provided r) (provided' r)) (role : Handle) :
    List.Forall₂ (Provision.Alike N) (c.provisionsFrom provided role)
      (c'.provisionsFrom provided' role) := by
  rw [Catalog.provisionsFrom, Catalog.provisionsFrom]
  rcases cases_rel (h.typeAt? role) with ⟨ht, ht'⟩ | ⟨t, t', ht, ht', halike⟩
  · rw [ht, ht']
    exact .nil
  · rw [ht, ht']
    refine List.rel_append ?_ (List.rel_filter ?_ ?_)
    · rw [List.forall₂_map_left_iff, List.forall₂_map_right_iff]
      exact halike.members.imp fun _ _ hm => ⟨hm.name, rfl⟩
    · intro p p' hp
      dsimp only
      rw [halike.declares_eq hN hp.member]
    · rw [halike.roles_eq]
      exact united hN hprovided _

theorem provisionsWithin (h : c.Alike N c') (hN : BiUnique N) (fuel : Nat) (role : Handle) :
    List.Forall₂ (Provision.Alike N) (c.provisionsWithin fuel role)
      (c'.provisionsWithin fuel role) := by
  induction fuel generalizing role with
  | zero => exact .nil
  | succ fuel ih => exact h.provisionsFrom hN ih role

theorem consumedProvisions (h : c.Alike N c') (hN : BiUnique N) (type : Handle) :
    List.Forall₂ (Provision.Alike N) (c.consumedProvisions type) (c'.consumedProvisions type) := by
  rw [Catalog.consumedProvisions, Catalog.consumedProvisions, h.rolesOf_eq]
  refine united hN (fun r => ?_) _
  rw [Catalog.provisions, Catalog.provisions, h.size_eq]
  exact h.provisionsWithin hN _ r

theorem settles_eq (h : c.Alike N c') (hN : BiUnique N) (hn : N n n') (cls : Handle) :
    c'.settles cls n' = c.settles cls n := by
  simp only [settles, h.lineage_eq, h.declares_eq hN hn]

theorem conflicts (h : c.Alike N c') (hN : BiUnique N) (type : Handle) :
    List.Forall₂ (Provision.Alike N) (c.conflicts type) (c'.conflicts type) := by
  rw [Catalog.conflicts, Catalog.conflicts, h.isClass_eq]
  split
  · refine List.rel_filter ?_ (h.consumedProvisions hN type)
    intro p p' hp
    dsimp only
    rw [hp.roles_eq, h.settles_eq hN hp.member]
  · exact .nil

theorem affectedClasses_eq (h : c.Alike N c') (type : Handle) :
    c'.affectedClasses type = c.affectedClasses type := by
  rw [affectedClasses, affectedClasses, h.isClass_eq, h.reachableRoles_eq]
  split
  · rfl
  · refine (list_map_eq_of_rel (List.rel_filter ?_ h.types) fun ht => ht.handle_eq.symm).symm
    intro t t' ht
    dsimp only
    rw [ht.isClass_eq, ht.handle_eq]

def FirstConflictAlike (N : Name → Name → Prop) (x x' : Handle × Provision) : Prop :=
  x'.1 = x.1 ∧ x.2.Alike N x'.2

theorem firstConflict? (h : c.Alike N c') (hN : BiUnique N) (type : Handle) :
    Option.Rel (FirstConflictAlike N) (c.firstConflict? type) (c'.firstConflict? type) := by
  rw [Catalog.firstConflict?, Catalog.firstConflict?, h.affectedClasses_eq]
  refine rel_findSome? _ fun cls => ?_
  rcases cases_rel (rel_head? (h.conflicts hN cls)) with ⟨hp, hp'⟩ | ⟨p, p', hp, hp', hpp⟩
  · rw [hp, hp']
    exact .none
  · rw [hp, hp']
    exact .some ⟨rfl, hpp⟩

end Catalog.Alike

end ObjectSystem
