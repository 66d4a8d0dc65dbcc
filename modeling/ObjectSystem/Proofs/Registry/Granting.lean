import ObjectSystem.Proofs.Conflict.Locality

/-!
# Roles that are consumed

When exactly a type comes to consume a role (`consume_eq_ok_iff`). The check after the change asks
for the conflicts of some classes only; it finds none where no class has one
(`WellFormed.firstConflict?_eq_none`).
-/

namespace ObjectSystem

namespace Catalog

variable {c : Catalog} {type role : Handle}

/-- What is asked of every consumption, also of one that changes nothing: the type is open, and the
other one is a role and not the type itself. -/
structure Admits (c : Catalog) (type role : Handle) : Prop where
  isOpen : c.isOpen type
  isRole : c.isRole role
  ne : type ≠ role

theorem MayConsume.admits (h : c.MayConsume type role) : c.Admits type role :=
  ⟨h.isOpen, h.isRole, h.ne⟩

theorem Admits.mayConsume (h : c.Admits type role) (wf : c.WellFormed)
    (hnew : ¬ c.Consumes type role)
    (hback : ¬ Relation.ReflTransGen c.Consumes role type) : c.MayConsume type role where
  isOpen := h.isOpen
  isRole := h.isRole
  ne := h.ne
  not_consumes := hnew
  not_mem_reachableRoles _ hmem := by
    obtain ⟨-, k, hk, hreach⟩ := wf.mem_reachableRoles.mp hmem
    rw [wf.lineage_of_isRole h.isRole, List.mem_singleton] at hk
    exact hback (hk ▸ hreach)

theorem WellFormed.conflicts_eq_nil (wf : c.WellFormed)
    (hfree : ∀ k, c.isClass k → c.ConflictFree k) (k : Handle) : c.conflicts k = [] := by
  by_cases hclass : c.isClass k
  · exact (wf.conflicts_eq_nil_iff hclass).mpr (hfree k hclass)
  · exact conflicts_of_not_isClass hclass

theorem WellFormed.firstConflict?_eq_none (wf : c.WellFormed)
    (hfree : ∀ k, c.isClass k → c.ConflictFree k) : c.firstConflict? type = none := by
  rw [firstConflict?, List.findSome?_eq_none_iff]
  intro k _
  rw [wf.conflicts_eq_nil hfree k]
  rfl

/-! ## Roles that provide nothing -/

/-- A role that provides nothing gives a type that comes to consume it nothing more to offer. -/
theorem offers_of_offers_addRole {m : Name} {k p : Handle} (h : c.MayConsume type role)
    (hroles : c.rolesOf role = []) (hmembers : ∀ m, c.declares role m = false)
    (hoffers : (c.addRole type role).Offers m k p) : c.Offers m k p := by
  have hdeclares : Agree TypeEntry.members c (c.addRole type role) := agree_addRole fun _ => rfl
  have hedge {a b : Handle} : (c.addRole type role).Consumes a b ↔
      c.Consumes a b ∨ a = type ∧ b = role := consumes_addRole (known_of_isOpen h.isOpen)
  have hsilent (q : Handle) : ¬ (c.addRole type role).Provides m role q := by
    intro hq
    cases hq with
    | own hown =>
      rw [hdeclares.declares_eq, hmembers] at hown
      cases hown
    | consumed _ hedge' _ =>
      rcases hedge.mp hedge' with hold | ⟨heq, -⟩
      · rw [Consumes, hroles] at hold
        cases hold
      · exact h.ne heq.symm
  have hprovides {x q : Handle} (hx : (c.addRole type role).Provides m x q) :
      c.Provides m x q := by
    induction hx with
    | own hown => exact .own (hdeclares.declares_eq _ _ ▸ hown)
    | consumed hhidden hab hprovides ih =>
      rcases hedge.mp hab with hold | ⟨-, rfl⟩
      · exact .consumed (hdeclares.declares_eq _ _ ▸ hhidden) hold ih
      · exact absurd hprovides (hsilent _)
  obtain ⟨x, hkx, hx⟩ := hoffers
  rcases hedge.mp hkx with hold | ⟨-, rfl⟩
  · exact ⟨x, hold, hprovides hx⟩
  · exact absurd hx (hsilent p)

theorem Settled.firstConflict?_addRole (hc : c.Settled) (h : c.MayConsume type role)
    (hroles : c.rolesOf role = []) (hmembers : ∀ m, c.declares role m = false) :
    (c.addRole type role).firstConflict? type = none := by
  have wf' := h.wellFormed hc.wellFormed
  have hsame : Agree TypeEntry.members c (c.addRole type role) := agree_addRole fun _ => rfl
  have hparent : Agree TypeEntry.parent c (c.addRole type role) := agree_addRole fun _ => rfl
  have hkind : Agree (·.form.kind) c (c.addRole type role) := agree_addRole fun _ => rfl
  apply wf'.firstConflict?_eq_none
  intro k hk m p q hp hq
  rw [hkind.isClass_eq] at hk
  have hfree := hc.conflictFree k hk m p q (offers_of_offers_addRole h hroles hmembers hp)
    (offers_of_offers_addRole h hroles hmembers hq)
  refine hfree.imp_right (hc.wellFormed.settles_mono wf' (fun hab => ?_) hkind.known_iff.mpr
    fun x hx => ?_)
  · rwa [Extends, hparent.parent?_eq]
  · rwa [hsame.declares_eq]

end Catalog

namespace Registry

open Catalog

variable {r next : Registry} {type role : Handle}

theorem admits_of_proposeRole {proposal : Option Catalog}
    (h : r.proposeRole type role = .ok proposal) : r.Admits type role := by
  simp only [proposeRole, bind, Except.bind, throw, throwThe, MonadExceptOf.throw] at h
  split at h <;> try cases h
  rename_i consumer hconsumer
  split at h <;> try cases h
  rename_i entry hentry
  split at h <;> try cases h
  rename_i hself
  split at h <;> try cases h
  rename_i hrole
  split at h <;> try cases h
  rename_i hopen
  exact ⟨by simpa [isOpen, hconsumer] using hopen, by simpa [isRole, hentry] using hrole, hself⟩

theorem Admits.exists_entries (h : r.Admits type role) :
    ∃ consumer entry, r.typeAt? type = some consumer ∧ r.typeAt? role = some entry ∧
      consumer.isSealed = false ∧ entry.isRole := by
  obtain ⟨entry, hentry, hrole⟩ := isRole_iff.mp h.isRole
  have hopen := h.isOpen
  simp only [isOpen, Option.any_eq_true, Bool.not_eq_true'] at hopen
  obtain ⟨consumer, hconsumer, hopen⟩ := hopen
  exact ⟨consumer, entry, hconsumer, hentry, hopen, hrole⟩

theorem proposeRole_of_admits (h : r.Admits type role) :
    r.proposeRole type role =
      if role ∈ r.rolesOf type then .ok none
      else if r.isRole type && decide (type ∈ r.reachableRoles role) then
        .error (.roleCycle (r.display type) (r.display role))
      else .ok (some (r.addRole type role)) := by
  obtain ⟨consumer, entry, hconsumer, hentry, hopen, hrole⟩ := Admits.exists_entries h
  simp only [proposeRole, hconsumer, hentry, if_neg h.ne, hrole, hopen,
    rolesOf_of_entry hconsumer, isRole_of_entry hconsumer]
  rfl

theorem consume_eq_ok_iff :
    r.consume type role = .ok next ↔
      r.Admits type role ∧ r.Consumes type role ∧ next = r ∨
      r.MayConsume type role ∧ (r.addRole type role).firstConflict? type = none ∧
        next = { r with toCatalog := r.addRole type role } := by
  constructor
  · intro h
    simp only [consume, bind, Except.bind, pure, Except.pure] at h
    split at h <;> try cases h
    rename_i proposal hproposal
    have hadmits := admits_of_proposeRole hproposal
    cases proposal with
    | none =>
      rw [proposeRole_of_admits hadmits] at hproposal
      split at hproposal
      · rename_i hold
        exact .inl ⟨hadmits, hold, (Except.ok.inj h).symm⟩
      · split at hproposal <;> cases hproposal
    | some cat =>
      obtain ⟨hmay, rfl⟩ := proposeRole_eq_some hproposal
      exact .inr ⟨hmay, checked_eq_ok h⟩
  · rintro (⟨hadmits, hold, rfl⟩ | ⟨hmay, hchecked, rfl⟩)
    · rw [Consumes] at hold
      rw [consume, proposeRole_of_admits hadmits, if_pos hold]
      rfl
    · have hnew : role ∉ r.rolesOf type := hmay.not_consumes
      have hcycle : (r.isRole type && decide (type ∈ r.reachableRoles role)) = false := by
        simpa using hmay.not_mem_reachableRoles
      rw [consume, proposeRole_of_admits hmay.admits, if_neg hnew, hcycle]
      simp only [bind, Except.bind, Bool.false_eq_true, if_false, checked, hchecked]

theorem consume_of_provides_nothing (hr : r.Settled) (h : r.Admits type role)
    (hnew : ¬ r.Consumes type role) (hroles : r.rolesOf role = [])
    (hmembers : ∀ m, r.declares role m = false) :
    r.consume type role = .ok { r with toCatalog := r.addRole type role } := by
  have hmay : r.MayConsume type role := by
    apply h.mayConsume hr.wellFormed hnew
    intro hback
    rcases Relation.ReflTransGen.cases_head hback with heq | ⟨x, hx, -⟩
    · exact h.ne heq.symm
    · rw [Consumes, hroles] at hx
      cases hx
  exact consume_eq_ok_iff.mpr (.inr ⟨hmay, hr.firstConflict?_addRole hmay hroles hmembers, rfl⟩)

end Registry

end ObjectSystem
