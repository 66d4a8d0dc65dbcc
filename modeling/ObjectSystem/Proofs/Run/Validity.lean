import ObjectSystem.Proofs.Registry.Granting
import ObjectSystem.Proofs.Run.Conflict
import ObjectSystem.Proofs.Sealing.Frozen

/-!
# Edits that keep the registry valid

A consumption or a new member is granted exactly when the graph with it has neither a cycle nor, in
any class, a conflict (`reachable_grants`). The check looks at a few classes only: those that it
skips had no conflict before and do not notice the edit, so they have none after it either.
-/

namespace ObjectSystem

open Relation

namespace Catalog

variable {c : Catalog} {type role h : Handle} {m : Member}

def FreeOfConflicts (c : Catalog) : Prop := ∀ k, c.isClass k → c.ConflictFree k

theorem isOpen_iff : c.isOpen h ↔ c.Known h ∧ ¬ c.isSealed h := by
  rw [known_iff_isSome, isOpen, isSealed]
  cases c.typeAt? h <;> simp

namespace Settled

/-- The check after a consumption finds a conflict exactly when some class has one. -/
theorem firstConflict?_addRole_iff (hc : c.Settled) (h : c.MayConsume type role) :
    (c.addRole type role).firstConflict? type = none ↔ (c.addRole type role).FreeOfConflicts :=
  ⟨fun hchecked => (hc.addRole h hchecked).conflictFree,
    (h.wellFormed hc.wellFormed).firstConflict?_eq_none⟩

theorem firstConflict?_addMember_iff (hc : c.Settled) (hopen : c.isOpen type) :
    (c.addMember type m).firstConflict? type = none ↔ (c.addMember type m).FreeOfConflicts :=
  ⟨fun hchecked => (hc.addMember hopen hchecked).conflictFree,
    (sameGraph_addMember.wellFormed hc.wellFormed).firstConflict?_eq_none⟩

end Settled

end Catalog

namespace Registry

open Catalog

variable {r s : Registry} {type role : Handle} {m : Member}

theorem admits_iff :
    r.Admits type role ↔
      r.Known type ∧ r.Known role ∧ type ≠ role ∧ r.isRole role ∧ ¬ r.isSealed type := by
  constructor
  · intro h
    obtain ⟨hk, hsealed⟩ := isOpen_iff.mp h.isOpen
    exact ⟨hk, known_of_isRole h.isRole, h.ne, h.isRole, hsealed⟩
  · rintro ⟨hk, -, hne, hrole, hsealed⟩
    exact ⟨isOpen_iff.mpr ⟨hk, hsealed⟩, hrole, hne⟩

theorem Reachable.consume_eq_ok_iff (hr : Reachable r) :
    r.consume type role = .ok s ↔
      (r.Admits type role ∧ (r.Consumes type role ∨
        ¬ ReflTransGen r.Consumes role type ∧ (r.addRole type role).FreeOfConflicts)) ∧
      s = if role ∈ r.rolesOf type then r else { r with toCatalog := r.addRole type role } := by
  rw [Registry.consume_eq_ok_iff]
  by_cases hold : role ∈ r.rolesOf type
  · have hnot : ¬ r.MayConsume type role := fun hmay => hmay.not_consumes hold
    have hconsumes : r.Consumes type role := hold
    rw [if_pos hold]
    simp only [hconsumes, hnot, true_and, true_or, and_true, false_and, or_false]
  · rw [if_neg hold]
    constructor
    · rintro (⟨-, hconsumes, -⟩ | ⟨hmay, hchecked, rfl⟩)
      · exact absurd hconsumes hold
      · have hfree := (hr.settled.firstConflict?_addRole_iff hmay).mp hchecked
        exact ⟨⟨hmay.admits, .inr ⟨hmay.not_reaches hr.wellFormed, hfree⟩⟩, rfl⟩
    · rintro ⟨⟨hadmits, hconsumes | ⟨hback, hfree⟩⟩, rfl⟩
      · exact absurd hconsumes hold
      · have hmay := hadmits.mayConsume hr.wellFormed hold hback
        exact .inr ⟨hmay, (hr.settled.firstConflict?_addRole_iff hmay).mpr hfree, rfl⟩

theorem insertMember_eq_ok_iff :
    r.insertMember type m = .ok s ↔
      (r.isOpen type ∧ r.declares type m.name = false ∧
        (r.addMember type m).firstConflict? type = none) ∧
      s = { r with toCatalog := r.addMember type m } := by
  constructor
  · intro h
    obtain ⟨hopen, hnew, hchecked, rfl⟩ := insertMember_eq_ok h
    exact ⟨⟨hopen, hnew, hchecked⟩, rfl⟩
  · rintro ⟨⟨hopen, hnew, hchecked⟩, rfl⟩
    obtain ⟨t, ht⟩ := (known_of_isOpen hopen).exists_entry
    have hproposal : r.proposeMember type m = .ok (r.addMember type m) := by
      simp only [isOpen, declares, ht, Option.any_some, Bool.not_eq_true'] at hopen hnew
      simp only [proposeMember, ht, hopen, hnew]
      rfl
    rw [insertMember, hproposal]
    simp only [bind, Except.bind, checked, hchecked]

/-- What the edits accept: a type comes to consume a role, and comes to have a member, exactly when
this leaves no cycle of roles and no class of the registry with a conflict. If it is granted,
nothing but the one list changes, at the end of which the role or member stands, and the index of
the members, which has its place. -/
theorem reachable_grants (hr : Reachable r) (type : Handle) :
    (∀ role s, r.consume type role = .ok s ↔
      (r.Known type ∧ r.Known role ∧ type ≠ role ∧ r.isRole role ∧ ¬ r.isSealed type ∧
        (r.Consumes type role ∨ ¬ ReflTransGen r.Consumes role type ∧
          (r.addRole type role).FreeOfConflicts)) ∧
      s = if role ∈ r.rolesOf type then r else
        { r with toCatalog := r.modify type fun t => { t with roles := t.roles ++ [role] } }) ∧
    ∀ m s, r.insertMember type m = .ok s ↔
      (r.Known type ∧ ¬ r.isSealed type ∧ r.declares type m.name = false ∧
        (r.addMember type m).FreeOfConflicts) ∧
      s = { r with
        toCatalog := r.modify type fun t => { t with
          members := t.members ++ [m]
          index := t.index.insert m.name t.members.length } } := by
  refine ⟨fun role s => ?_, fun m s => ?_⟩
  · rw [hr.consume_eq_ok_iff, admits_iff]
    simp only [and_assoc]
    rfl
  · rw [insertMember_eq_ok_iff]
    refine and_congr_left fun _ => ?_
    constructor
    · rintro ⟨hopen, hnew, hchecked⟩
      obtain ⟨hk, hsealed⟩ := isOpen_iff.mp hopen
      exact ⟨hk, hsealed, hnew, (hr.settled.firstConflict?_addMember_iff hopen).mp hchecked⟩
    · rintro ⟨hk, hsealed, hnew, hfree⟩
      have hopen := isOpen_iff.mpr ⟨hk, hsealed⟩
      exact ⟨hopen, hnew, (hr.settled.firstConflict?_addMember_iff hopen).mpr hfree⟩

def leggedFarm : Catalog := farm.addMember ⟨1⟩ ⟨farmName "legs", .stored {}⟩

/-- Swimmers may come to walk: the duck would have the legs that it has. They may not have legs of
their own, for then the duck would have two kinds of them. -/
theorem farm_grants : farm.consume ⟨1⟩ ⟨0⟩ = .ok { farm with
      toCatalog := farm.modify ⟨1⟩ fun t => { t with roles := t.roles ++ [⟨0⟩] } } ∧
    (farm.addRole ⟨1⟩ ⟨0⟩).FreeOfConflicts ∧
    ∀ s, farm.insertMember ⟨1⟩ ⟨farmName "legs", .stored {}⟩ ≠ .ok s := by
  obtain ⟨hconsume, hmember⟩ := reachable_grants reachable_farm ⟨1⟩
  have hok : (farm.consume ⟨1⟩ ⟨0⟩).isOk := by decide +kernel
  have hnew : ⟨0⟩ ∉ farm.rolesOf ⟨1⟩ := by decide +kernel
  cases hs : farm.consume ⟨1⟩ ⟨0⟩ with
  | error e =>
    rw [hs] at hok
    cases hok
  | ok s =>
    obtain ⟨⟨-, -, -, -, -, hedge⟩, rfl⟩ := (hconsume ⟨0⟩ s).mp hs
    obtain ⟨-, hfree⟩ := hedge.resolve_left hnew
    refine ⟨by rw [if_neg hnew], hfree, fun s hs => ?_⟩
    -- both roles offer legs to the duck, and neither it nor an animal settles them
    obtain ⟨⟨-, -, -, hlegged⟩, -⟩ := (hmember _ s).mp hs
    have hclass : leggedFarm.isClass ⟨3⟩ := by decide +kernel
    have hwalker : leggedFarm.Offers (farmName "legs") ⟨3⟩ ⟨0⟩ :=
      ⟨⟨0⟩, show ⟨0⟩ ∈ leggedFarm.rolesOf ⟨3⟩ by decide +kernel, .own (by decide +kernel)⟩
    have hswimmer : leggedFarm.Offers (farmName "legs") ⟨3⟩ ⟨1⟩ :=
      ⟨⟨1⟩, show ⟨1⟩ ∈ leggedFarm.rolesOf ⟨3⟩ by decide +kernel, .own (by decide +kernel)⟩
    have hsettles : ¬ leggedFarm.settles ⟨3⟩ (farmName "legs") := by decide +kernel
    rcases hlegged ⟨3⟩ hclass _ _ _ hwalker hswimmer with heq | hsettled
    · cases heq
    · exact hsettles hsettled

end Registry

end ObjectSystem
