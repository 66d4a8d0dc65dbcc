import ObjectSystem.Proofs.Conflict.Widening
import ObjectSystem.Proofs.Registry.Granting
import ObjectSystem.Proofs.Run.Conflict

/-!
# The order of consumption

Types may come to consume roles one after another in any order. What is left is determined by the
set of the edges (`consumeEach_eq_ok`), and each order passes the checks on the way if one does:
what would be refused in between, a cycle or a conflict, would still be there in the end.
-/

namespace ObjectSystem

open Relation

def Editing.consumeEach (edges : List (Handle × Handle)) : Editing Unit :=
  edges.forM fun edge => Editing.consume edge.1 edge.2

namespace Catalog

variable {c d : Catalog} {type role : Handle}

theorem Widens.admits_iff (hcd : Widens c d) : d.Admits type role ↔ c.Admits type role := by
  have hopen := hcd.isOpen_eq type
  have hrole := hcd.kind.isRole_eq role
  constructor
  · exact fun h => ⟨hopen ▸ h.isOpen, hrole ▸ h.isRole, h.ne⟩
  · exact fun h => ⟨hopen.symm ▸ h.isOpen, hrole.symm ▸ h.isRole, h.ne⟩

end Catalog

namespace Registry

open Catalog Editing

variable {r s : Registry} {type role : Handle} {edges : List (Handle × Handle)}

theorem outcome_consumeEach_cons (edge : Handle × Handle) (edges : List (Handle × Handle))
    (r : Registry) :
    (consumeEach (edge :: edges)).outcome r =
      match r.consume edge.1 edge.2 with
      | .ok s => (consumeEach edges).outcome s
      | .error e => (.error e, r) := by
  show outcome (Editing.consume edge.1 edge.2 >>= fun _ => consumeEach edges) r = _
  rw [outcome_bind, Editing.consume, outcome_step]
  cases r.consume edge.1 edge.2 <;> rfl

theorem consume_widens (h : r.consume type role = .ok s) :
    Widens r.toCatalog s.toCatalog ∧
      ∀ a b, s.Consumes a b ↔ r.Consumes a b ∨ a = type ∧ b = role := by
  rcases consume_eq_ok_iff.mp h with ⟨-, hold, rfl⟩ | ⟨hmay, -, rfl⟩
  · refine ⟨.refl _, fun a b => ⟨.inl, ?_⟩⟩
    rintro (hab | ⟨rfl, rfl⟩)
    · exact hab
    · exact hold
  · have hk := known_of_isOpen hmay.isOpen
    exact ⟨.addRole hk, fun a b => consumes_addRole hk⟩

theorem consume_settled (h : r.consume type role = .ok s) (hr : r.Settled) : s.Settled := by
  rcases consume_eq_ok_iff.mp h with ⟨-, -, rfl⟩ | ⟨hmay, hchecked, rfl⟩
  · exact hr
  · exact hr.addRole hmay hchecked

theorem consume_admits (h : r.consume type role = .ok s) : r.Admits type role := by
  rcases consume_eq_ok_iff.mp h with ⟨hadmits, -⟩ | ⟨hmay, -⟩
  · exact hadmits
  · exact hmay.admits

/-- An edge is granted if it leads to nothing that is wrong in some wider catalog. -/
theorem exists_consume_eq_ok {d : Catalog} (hr : r.Settled) (hwider : Widens r.toCatalog d)
    (hd : d.Settled) (hadmits : r.Admits type role) (hedge : d.Consumes type role) :
    ∃ s, r.consume type role = .ok s := by
  by_cases hold : r.Consumes type role
  · exact ⟨r, consume_eq_ok_iff.mpr (.inl ⟨hadmits, hold, rfl⟩)⟩
  · have hmay := hadmits.mayConsume hr.wellFormed hold (hwider.not_reaches hd.wellFormed hedge)
    have hk := known_of_isOpen hadmits.isOpen
    have hadded : Widens (r.addRole type role) d := by
      refine (Widens.addRole hk).of_common hwider fun {a b} hab => ?_
      rcases (consumes_addRole hk).mp hab with hab | ⟨rfl, rfl⟩
      · exact hwider.consumes hab
      · exact hedge
    have hchecked : (r.addRole type role).firstConflict? type = none := by
      apply (hmay.wellFormed hr.wellFormed).firstConflict?_eq_none
      intro k hk
      rw [← hadded.kind.isClass_eq] at hk
      exact hadded.conflictFree (hd.conflictFree k hk)
    exact ⟨_, consume_eq_ok_iff.mpr (.inr ⟨hmay, hchecked, rfl⟩)⟩

/-- What is left when all edges have been granted: the edges of before and these. -/
theorem consumeEach_eq_ok (h : (consumeEach edges).outcome r = (.ok (), s)) (hr : r.Settled) :
    s.Settled ∧ Widens r.toCatalog s.toCatalog ∧
      (∀ a b, s.Consumes a b ↔ r.Consumes a b ∨ (a, b) ∈ edges) ∧
      ∀ edge ∈ edges, r.Admits edge.1 edge.2 := by
  induction edges generalizing r with
  | nil =>
    cases h
    exact ⟨hr, .refl _, by simp, by simp⟩
  | cons edge edges ih =>
    rw [outcome_consumeEach_cons] at h
    split at h
    · rename_i next hnext
      obtain ⟨hwiden, hedge⟩ := consume_widens hnext
      obtain ⟨hs, hrest, hedges, hadmits⟩ := ih h (consume_settled hnext hr)
      refine ⟨hs, hwiden.trans hrest, fun a b => ?_, ?_⟩
      · rw [hedges, hedge, List.mem_cons, or_assoc, Prod.ext_iff]
      · intro other hother
        rcases List.mem_cons.mp hother with rfl | hother
        · exact consume_admits hnext
        · exact hwiden.admits_iff.mp (hadmits other hother)
    · cases h

theorem exists_consumeEach_eq_ok {d : Catalog} (hr : r.Settled) (hwider : Widens r.toCatalog d)
    (hd : d.Settled)
    (hedges : ∀ edge ∈ edges, r.Admits edge.1 edge.2 ∧ d.Consumes edge.1 edge.2) :
    ∃ s, (consumeEach edges).outcome r = (.ok (), s) := by
  induction edges generalizing r with
  | nil => exact ⟨r, rfl⟩
  | cons edge edges ih =>
    obtain ⟨hfirst, hrest⟩ := List.forall_mem_cons.mp hedges
    obtain ⟨next, hnext⟩ := exists_consume_eq_ok hr hwider hd hfirst.1 hfirst.2
    obtain ⟨hwiden, hedge⟩ := consume_widens hnext
    have hwider' : Widens next.toCatalog d := by
      refine hwiden.of_common hwider fun {a b} hab => ?_
      rcases (hedge a b).mp hab with hab | ⟨rfl, rfl⟩
      · exact hwider.consumes hab
      · exact hfirst.2
    rw [outcome_consumeEach_cons, hnext]
    apply ih (consume_settled hnext hr) hwider'
    intro other hother
    obtain ⟨hadmits, hconsumes⟩ := hrest other hother
    exact ⟨hwiden.admits_iff.mpr hadmits, hconsumes⟩

/-- Edges that are granted one after another are granted in every order. Then every type consumes
the same roles, every question about types has the same answer, and the same members are in force in
every class. -/
theorem reachable_consumeEach_perm (h : Reachable r) {edges' : List (Handle × Handle)}
    (hperm : edges'.Perm edges) (hgranted : (consumeEach edges).outcome r = (.ok (), s)) :
    ∃ s', (consumeEach edges').outcome r = (.ok (), s') ∧
      (∀ type, (s'.rolesOf type).Perm (s.rolesOf type)) ∧
      (∀ subject target, s'.isA subject target = s.isA subject target) ∧
      (∀ subject target, s'.does subject target = s.does subject target) ∧
      ∀ k, s.isClass k → ∀ m, s'.inForce? k m = s.inForce? k m := by
  obtain ⟨hs, hwiden, hedges, hadmits⟩ := consumeEach_eq_ok hgranted h.settled
  have hfinal : ∀ edge ∈ edges', r.Admits edge.1 edge.2 ∧ s.Consumes edge.1 edge.2 := by
    intro edge hedge
    have hmem := hperm.mem_iff.mp hedge
    exact ⟨hadmits edge hmem, (hedges _ _).mpr (.inr hmem)⟩
  obtain ⟨s', hgranted'⟩ := exists_consumeEach_eq_ok h.settled hwiden hs hfinal
  obtain ⟨hs', hwiden', hedges', -⟩ := consumeEach_eq_ok hgranted' h.settled
  have hiff (a b : Handle) : s'.Consumes a b ↔ s.Consumes a b := by
    rw [hedges, hedges', hperm.mem_iff]
  have hforth : Widens s.toCatalog s'.toCatalog := hwiden.of_common hwiden' (hiff _ _).mpr
  have hback : Widens s'.toCatalog s.toCatalog := hwiden'.of_common hwiden (hiff _ _).mp
  refine ⟨s', hgranted', fun type => ?_, hforth.parent.isA_eq,
    hforth.does_eq hback hs.wellFormed hs'.wellFormed, fun k hk => ?_⟩
  · exact (List.perm_ext_iff_of_nodup (hs'.wellFormed.nodup_roles type)
      (hs.wellFormed.nodup_roles type)).mpr (hiff type)
  · exact hforth.inForce?_eq hback hs hs' hk

def walkingEdges : List (Handle × Handle) := [(⟨2⟩, ⟨1⟩), (⟨1⟩, ⟨0⟩)]

def walkingFarm : Registry := ((consumeEach walkingEdges).outcome farm).2

/-- If swimmers come to walk first, animals get the same legs. -/
theorem farm_consumeEach : (consumeEach walkingEdges).outcome farm = (.ok (), walkingFarm) ∧
    ∃ s, (consumeEach walkingEdges.reverse).outcome farm = (.ok (), s) ∧
      (s.inForce? ⟨2⟩ (farmName "legs")).map OwnedMember.owner = some ⟨0⟩ := by
  have hgranted : (consumeEach walkingEdges).outcome farm = (.ok (), walkingFarm) := by
    have hok : ((consumeEach walkingEdges).outcome farm).1 = .ok () := by decide +kernel
    rw [walkingFarm, ← hok]
  have hclass : walkingFarm.isClass ⟨2⟩ := by decide +kernel
  have hlegs : (walkingFarm.inForce? ⟨2⟩ (farmName "legs")).map OwnedMember.owner = some ⟨0⟩ := by
    decide +kernel
  obtain ⟨s, hs, -, -, -, hforce⟩ :=
    reachable_consumeEach_perm reachable_farm (List.reverse_perm walkingEdges) hgranted
  exact ⟨hgranted, s, hs, by rw [hforce ⟨2⟩ hclass, hlegs]⟩

end Registry

end ObjectSystem
