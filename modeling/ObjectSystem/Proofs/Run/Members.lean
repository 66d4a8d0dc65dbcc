import ObjectSystem.Proofs.Registry.Calling
import ObjectSystem.Proofs.Run.InPlace

/-!
# The queries for members

A member can be asked for in several ways: by name, by string, by whether there is one and by who
owns it, and all members can be listed. In a reachable registry the answers agree
(`reachable_members`). The list names each member once, owner by owner in resolution order; and the
index by which a type finds its own members finds those that it declares.
-/

namespace ObjectSystem.Registry

open Catalog

variable {r : Registry} {type : Handle}

/-- A string that is not interned calls no member, as no member has a name that stands for it. -/
theorem memberCalled?_eq_find? (r : Registry) (type : Handle) (label : String) :
    r.memberCalled? type label =
      (r.membersInForce type).find? (r.names.string? ·.member.name == some label) := by
  have hcalls (m : OwnedMember) : (r.names.string? m.member.name == some label) =
      (r.names.get? label == some m.member.name) := by
    rw [Bool.eq_iff_iff, beq_iff_eq, beq_iff_eq, Interner.string?_eq_some_iff]
  rw [List.find?_congr fun m _ => hcalls m, memberCalled?]
  cases r.names.get? label with
  | none => exact (List.find?_eq_none.2 (by simp)).symm
  | some name =>
    rw [Option.bind_some, inForce?_eq_find?_membersInForce]
    refine List.find?_congr fun m _ => ?_
    rw [Bool.eq_iff_iff, beq_iff_eq, beq_iff_eq, Option.some.injEq, eq_comm]

structure MembersAgree (r : Registry) (type : Handle) : Prop where
  /-- The list has at most one member of a name, and it is the one that is found by the name. -/
  named : ∀ name, (r.membersInForce type).filter (·.member.name == name) =
    (r.inForce? type name).toList
  /-- That is the member declared under the name by the first type that declares one. -/
  nearest : ∀ name m, r.inForce? type name = some m ↔
    IsFirst (r.declares · name = true) (r.resolutionOrder type) m.owner ∧
      ∃ t, r.typeAt? m.owner = some t ∧ m.member ∈ t.members ∧ m.member.name = name
  called : ∀ label name, r.names.get? label = some name →
    r.memberCalled? type label = r.inForce? type name
  /-- A string, also one that has no name, finds the member of the list that it stands for. -/
  listed : ∀ label, r.memberCalled? type label =
    (r.membersInForce type).find? (r.names.string? ·.member.name == some label)
  can : ∀ label, r.can type label = (r.memberCalled? type label).isSome
  ownerOf : ∀ label, r.ownerOf? type label = (r.memberCalled? type label).map OwnedMember.owner
  /-- The list has a group for each owner, in the order of resolution, and the members of a group
  are in the order of their declaration. -/
  groups : (r.resolutionOrder type).Nodup ∧
    r.membersInForce type = (r.resolutionOrder type).flatMap fun owner =>
      ((r.membersOf owner).filter fun m =>
        (r.inForce? type m.name).any (·.owner == owner)).map (OwnedMember.mk owner)
  owner : ∀ m ∈ r.membersInForce type, m.owner = type ∨
    (r.isClass m.owner ∧ r.isA type m.owner) ∨ (r.isRole m.owner ∧ r.does type m.owner)

theorem Reachable.membersAgree (hr : Reachable r) (type : Handle) : r.MembersAgree type where
  named name := by
    rw [inForce?_eq_find?_membersInForce]
    exact filter_of_pairwise (r.pairwise_membersInForce type) name
  nearest _ _ := inForce?_eq_some_iff hr.distinctMembers
  called label name hname := by rw [memberCalled?, hname, Option.bind_some]
  listed := r.memberCalled?_eq_find? type
  can _ := rfl
  ownerOf _ := rfl
  groups := ⟨hr.wellFormed.nodup_resolutionOrder type,
    hr.wellFormed.membersInForce_eq_groups hr.distinctMembers type⟩
  owner _ := hr.wellFormed.owner_cases

/-- In a reachable registry all queries for the members of a type agree, whatever its handle. The
index of every type came about by building it, adding members and taking them back, and whichever
way such an index came about, looking a name up in it finds the member that the type declares, if
there is one. -/
theorem reachable_members (hr : Reachable r) :
    (∀ type, r.MembersAgree type) ∧
    ∀ h t, r.typeAt? h = some t → t.Kept ∧
      ∀ index, TypeEntry.Kept { t with index } → ∀ name,
        (index.place? name).bind (t.members[·]?) = t.member? name ∧
          (index.place? name).isSome = t.declares name := by
  refine ⟨hr.membersAgree, fun h t ht => ⟨hr.keepsIndices ht, fun index hkept name => ?_⟩⟩
  exact ⟨hkept.inStep.member?_eq name, hkept.inStep.hasMember_eq name⟩

/-- The duck has its own way to move, the age of an animal and the legs of a walker, in this order.
It is the walker who owns the legs, and nobody declares wings. -/
theorem farm_members :
    (farm.membersInForce ⟨3⟩).map (·.owner) = [⟨3⟩, ⟨2⟩, ⟨0⟩] ∧
    farm.ownerOf? ⟨3⟩ "legs" = some ⟨0⟩ ∧ farm.can ⟨3⟩ "wings" = false ∧
    ∃ t, farm.typeAt? ⟨0⟩ = some t ∧ t.hasMember (farmName "legs") := by
  obtain ⟨hagree, hindex⟩ := reachable_members reachable_farm
  obtain ⟨t, ht⟩ := (known_of_isRole (c := farm.toCatalog) (h := ⟨0⟩)
    (by decide +kernel)).exists_entry
  obtain ⟨hkept, hfinds⟩ := hindex _ t ht
  have hlegs : farm.declares ⟨0⟩ (farmName "legs") := by decide +kernel
  rw [declares, ht, Option.any_some] at hlegs
  refine ⟨?_, ?_, ?_, t, ht, (hfinds t.index hkept _).2.trans hlegs⟩
  · rw [(hagree ⟨3⟩).groups.2]
    decide +kernel
  · rw [(hagree ⟨3⟩).ownerOf, (hagree ⟨3⟩).listed]
    decide +kernel
  · rw [(hagree ⟨3⟩).can, (hagree ⟨3⟩).listed]
    decide +kernel

end ObjectSystem.Registry
