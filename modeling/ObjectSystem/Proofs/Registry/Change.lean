import ObjectSystem.Proofs.Graph.Declaration
import ObjectSystem.Proofs.Linearization.Order
import ObjectSystem.Registry.Change

/-!
# Granted changes

What has been checked of a change of the type graph when it is granted, and what the next registry
is. The checks for cycles look for one type in a list; that they keep the graph well-formed is
because the lists are complete (`MayExtend.wellFormed`, `MayConsume.wellFormed`).
-/

namespace ObjectSystem

namespace Catalog

/-- The class is open and has no parent, and the parent is a class that does not descend from it. -/
structure MayExtend (c : Catalog) (type parent : Handle) : Prop where
  isClass : c.isClass type
  isOpen : c.isOpen type
  parent?_eq : c.parent? type = none
  parent_isClass : c.isClass parent
  not_mem_lineage : type ∉ c.lineage parent

/-- The type is open and does not consume the role yet, and the role does not reach it. -/
structure MayConsume (c : Catalog) (type role : Handle) : Prop where
  isOpen : c.isOpen type
  isRole : c.isRole role
  ne : type ≠ role
  not_consumes : ¬ c.Consumes type role
  not_mem_reachableRoles : c.isRole type → type ∉ c.reachableRoles role

variable {c : Catalog} {type parent role : Handle}

theorem MayExtend.wellFormed (h : c.MayExtend type parent) (wf : c.WellFormed) :
    (c.addParent type parent).WellFormed := by
  apply wf.addParent h.isClass h.parent?_eq h.parent_isClass
  intro hback
  exact h.not_mem_lineage (wf.mem_lineage.mpr ⟨known_of_isClass h.parent_isClass, hback⟩)

theorem MayConsume.not_reaches (h : c.MayConsume type role) (wf : c.WellFormed) :
    ¬ Relation.ReflTransGen c.Consumes role type := by
  intro hback
  rcases wf.isRole_of_reaches hback with heq | htype
  · exact h.ne heq.symm
  · rcases wf.mem_reachableRoles_of_isRole h.isRole hback with heq | hmem
    · exact h.ne heq
    · exact h.not_mem_reachableRoles htype hmem

theorem MayConsume.wellFormed (h : c.MayConsume type role) (wf : c.WellFormed) :
    (c.addRole type role).WellFormed :=
  wf.addRole (known_of_isOpen h.isOpen) h.isRole h.not_consumes (h.not_reaches wf)

end Catalog

namespace Registry

open Catalog

variable {r next : Registry} {type parent role : Handle}

theorem isClass_of_not_isRole {h : Handle} {t : TypeEntry} (ht : r.typeAt? h = some t)
    (hrole : ¬ t.isRole) : r.isClass h := by
  by_contra hnot
  rw [← isRole_of_entry ht] at hrole
  exact hrole (isRole_of_not_isClass (known_of_typeAt? ht) hnot)

theorem checked_eq_ok {cat : Catalog} (h : r.checked type cat = .ok next) :
    cat.firstConflict? type = none ∧ next = { r with toCatalog := cat } := by
  rw [checked] at h
  split at h
  · rename_i hnone
    exact ⟨hnone, (Except.ok.inj h).symm⟩
  · cases h

theorem extend_eq_ok (h : r.extend type parent = .ok next) :
    r.MayExtend type parent ∧ next = { r with toCatalog := r.addParent type parent } := by
  simp only [extend, bind, Except.bind, pure, Except.pure, throw, throwThe,
    MonadExceptOf.throw] at h
  split at h <;> try cases h
  rename_i child hchild
  split at h <;> try cases h
  rename_i hclass
  split at h <;> try cases h
  rename_i hopen
  split at h <;> try cases h
  rename_i hparent
  split at h <;> try cases h
  rename_i entry hentry
  split at h <;> try cases h
  rename_i hparentClass
  split at h <;> cases h
  rename_i hback
  have hnone : child.parent = none := by
    cases hp : child.parent with
    | none => rfl
    | some p => exact absurd hp (hparent p)
  refine ⟨⟨isClass_of_not_isRole hchild hclass, by simpa [isOpen, hchild] using hopen, ?_,
    isClass_of_not_isRole hentry hparentClass, hback⟩, rfl⟩
  rw [parent?_of_entry hchild, hnone]

theorem proposeRole_eq_some {cat : Catalog} (h : r.proposeRole type role = .ok (some cat)) :
    r.MayConsume type role ∧ cat = r.addRole type role := by
  simp only [proposeRole, bind, Except.bind, pure, Except.pure, throw, throwThe,
    MonadExceptOf.throw] at h
  split at h <;> try cases h
  rename_i consumer hconsumer
  split at h <;> try cases h
  rename_i entry hentry
  split at h <;> try cases h
  rename_i hself
  split at h <;> try cases h
  rename_i hrole
  split at h <;> try cases h
  rename_i hopen
  split at h <;> try cases h
  rename_i hnew
  split at h <;> cases h
  rename_i hback
  refine ⟨⟨by simpa [isOpen, hconsumer] using hopen, by simpa [isRole, hentry] using hrole, hself,
    by rwa [Consumes, rolesOf_of_entry hconsumer], ?_⟩, rfl⟩
  rw [isRole_of_entry hconsumer]
  intro hisRole
  simpa [hisRole] using hback

/-- A granted consumption changes nothing if it is not new, and leaves no conflict otherwise. -/
theorem consume_eq_ok (h : r.consume type role = .ok next) :
    next = r ∨ r.MayConsume type role ∧ (r.addRole type role).firstConflict? type = none ∧
      next = { r with toCatalog := r.addRole type role } := by
  simp only [consume, bind, Except.bind, pure, Except.pure] at h
  split at h <;> try cases h
  rename_i proposal hproposal
  cases proposal with
  | none => exact .inl (Except.ok.inj h).symm
  | some cat =>
    obtain ⟨hmay, rfl⟩ := proposeRole_eq_some hproposal
    exact .inr ⟨hmay, checked_eq_ok h⟩

theorem proposeMember_eq_ok {cat : Catalog} {m : Member}
    (h : r.proposeMember type m = .ok cat) :
    r.isOpen type ∧ r.declares type m.name = false ∧ cat = r.addMember type m := by
  simp only [proposeMember, bind, Except.bind, pure, Except.pure, throw, throwThe,
    MonadExceptOf.throw] at h
  split at h <;> try cases h
  rename_i entry hentry
  split at h <;> try cases h
  rename_i hopen
  split at h <;> cases h
  rename_i hnew
  exact ⟨by simpa [isOpen, hentry] using hopen, by simpa [declares, hentry] using hnew, rfl⟩

theorem insertMember_eq_ok {m : Member} (h : r.insertMember type m = .ok next) :
    r.isOpen type ∧ r.declares type m.name = false ∧
      (r.addMember type m).firstConflict? type = none ∧
      next = { r with toCatalog := r.addMember type m } := by
  simp only [insertMember, bind, Except.bind] at h
  split at h <;> try cases h
  rename_i cat hproposal
  obtain ⟨hopen, hnew, rfl⟩ := proposeMember_eq_ok hproposal
  exact ⟨hopen, hnew, checked_eq_ok h⟩

theorem place_eq_ok {entry : TypeEntry} (h : r.place entry = .ok next) :
    next.names = r.names ∧ next.config = r.config ∧ r.Appends entry next.toCatalog := by
  rw [place] at h
  split at h
  · cases h
    exact ⟨rfl, rfl, appends_pushAnonymous _ _⟩
  · split at h <;> cases h
    exact ⟨rfl, rfl, appends_push _ _ _⟩

/-- A declared type comes last. Its members have different names, and its parent is a class. -/
theorem insertType_eq_ok {name : Name} {isAnonymous : Bool} {form : Form}
    {members : List Member} (h : r.insertType name isAnonymous form members = .ok next) :
    repeatedMember? members = none ∧
      (∀ p, (r.newEntry name isAnonymous form members).parent = some p → r.isClass p) ∧
      r.place (r.newEntry name isAnonymous form members) = .ok next := by
  simp only [insertType, bind, Except.bind, throw, throwThe, MonadExceptOf.throw] at h
  split at h <;> try cases h
  rename_i hmembers
  have hnone : repeatedMember? members = none := by
    cases hr : repeatedMember? members with
    | none => rfl
    | some m => exact absurd hr (hmembers m)
  split at h
  · rename_i p hp
    split at h <;> try cases h
    rename_i entry hentry
    split at h <;> try cases h
    rename_i hclass
    refine ⟨hnone, fun q hq => ?_, h⟩
    obtain rfl := Option.some.inj (hp.symm.trans hq)
    exact isClass_of_not_isRole hentry hclass
  · rename_i hp
    exact ⟨hnone, fun q hq => absurd hq (hp q), h⟩

end Registry

end ObjectSystem
