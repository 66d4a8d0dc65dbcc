import Mathlib.Data.List.Find
import Mathlib.Data.List.Pairwise
import ObjectSystem.Proofs.Conflict.Lookup

/-!
# Members in force

The members of the types in the resolution order are collected, the first one of each name, while
the lookup of a name stops at the first type that declares it. Both find the same members
(`mem_membersInForce`), and of each name at most one.
-/

namespace ObjectSystem

theorem find?_of_pairwise {α β : Type} [BEq β] [LawfulBEq β] {key : α → β} {l : List α} {a : α}
    (h : l.Pairwise (key · ≠ key ·)) (ha : a ∈ l) : l.find? (key · == key a) = some a := by
  induction h with
  | nil => cases ha
  | cons hfirst _ ih =>
    rcases List.mem_cons.mp ha with rfl | ha
    · exact List.find?_cons_of_pos BEq.rfl
    · rw [List.find?_cons_of_neg (by simpa using hfirst a ha), ih ha]

namespace Catalog

variable {c : Catalog} {type : Handle} {name : Name} {m : OwnedMember}

theorem inForce?_eq_find?_declaredMembers (c : Catalog) (type : Handle) (name : Name) :
    c.inForce? type name = (c.declaredMembers type).find? (·.member.name == name) := by
  have hown (owner : Handle) :
      ((c.membersOf owner).map (OwnedMember.mk owner)).find? (·.member.name == name) =
        c.ownMember? owner name := by
    rw [List.find?_map, membersOf, ownMember?]
    cases c.typeAt? owner <;> rfl
  rw [inForce?, declaredMembers, List.find?_flatMap]
  simp only [hown]

/-! ## Collecting -/

theorem find?_collect (found : List OwnedMember) (m : OwnedMember) (name : Name) :
    (collect found m).find? (·.member.name == name) =
      (found ++ [m]).find? (·.member.name == name) := by
  rw [collect]
  split
  · -- a member that is left out has the name of one that has been found
    rename_i hknown
    obtain ⟨n, hn, hsame⟩ := List.any_eq_true.mp hknown
    rw [List.find?_append]
    by_cases hm : m.member.name = name
    · have hsome : (found.find? (·.member.name == name)).isSome :=
        List.find?_isSome.mpr ⟨n, hn, hm ▸ hsame⟩
      rw [Option.or_of_isSome hsome]
    · rw [List.find?_singleton, if_neg (by simpa using hm), Option.or_none]
  · rfl

theorem find?_foldl_collect (ms found : List OwnedMember) (name : Name) :
    (ms.foldl collect found).find? (·.member.name == name) =
      (found ++ ms).find? (·.member.name == name) := by
  induction ms generalizing found with
  | nil => rw [List.foldl_nil, List.append_nil]
  | cons m ms ih =>
    rw [List.foldl_cons, ih, List.find?_append, find?_collect, ← List.find?_append,
      List.append_assoc, List.singleton_append]

theorem pairwise_foldl_collect (ms : List OwnedMember) {found : List OwnedMember}
    (h : found.Pairwise (·.member.name ≠ ·.member.name)) :
    (ms.foldl collect found).Pairwise (·.member.name ≠ ·.member.name) := by
  induction ms generalizing found with
  | nil => exact h
  | cons m ms ih =>
    apply ih
    rw [collect]
    split
    · exact h
    · rename_i hnew
      refine List.pairwise_append.mpr ⟨h, List.pairwise_singleton _ _, fun n hn k hk heq => ?_⟩
      rw [List.mem_singleton.mp hk] at heq
      exact hnew (List.any_eq_true.mpr ⟨n, hn, beq_iff_eq.mpr heq⟩)

/-! ## One member of each name -/

theorem inForce?_eq_find?_membersInForce (c : Catalog) (type : Handle) (name : Name) :
    c.inForce? type name = (c.membersInForce type).find? (·.member.name == name) := by
  rw [inForce?_eq_find?_declaredMembers, membersInForce, find?_foldl_collect, List.nil_append]

theorem pairwise_membersInForce (c : Catalog) (type : Handle) :
    (c.membersInForce type).Pairwise (·.member.name ≠ ·.member.name) :=
  pairwise_foldl_collect _ .nil

theorem mem_membersInForce :
    m ∈ c.membersInForce type ↔ c.inForce? type m.member.name = some m := by
  rw [inForce?_eq_find?_membersInForce]
  constructor
  · exact find?_of_pairwise (c.pairwise_membersInForce type)
  · exact List.mem_of_find?_eq_some

theorem pairwise_attributesInForce (c : Catalog) (type : Handle) :
    (c.attributesInForce type).Pairwise (·.1 ≠ ·.1) := by
  refine List.pairwise_filterMap.mpr ((c.pairwise_membersInForce type).imp ?_)
  intro m n hne a ha b hb
  obtain ⟨_, -, rfl⟩ := Option.map_eq_some_iff.mp ha
  obtain ⟨_, -, rfl⟩ := Option.map_eq_some_iff.mp hb
  exact hne

theorem mem_attributesInForce_of_mem {rules : Attribute} (hm : m ∈ c.membersInForce type)
    (hkind : m.member.kind = .stored rules) : (m.member.name, rules) ∈ c.attributesInForce type :=
  List.mem_filterMap.mpr ⟨m, hm, by rw [hkind]; rfl⟩

end Catalog

end ObjectSystem
