import ObjectSystem.Proofs.Linearization.MemberGroups
import ObjectSystem.Proofs.Run.Names

/-!
# The index of members

A type finds its members by an index, which is built when the type is declared and written to when a
member is added, or added and taken back (`TypeEntry.Kept`). However an index came about, it leads
to the member that the type declares under the name (`TypeEntry.Kept.inStep`), because no type
declares a name twice. A member that is taken back leaves no trace in it
(`TypeEntry.popMember_withMember`).
-/

namespace ObjectSystem

open Registry Catalog

theorem MemberIndex.erase_insert {index : MemberIndex} {name : Name}
    (h : index.place? name = none) (place : Nat) :
    (index.insert name place).erase name = index := by
  ext1
  funext n
  by_cases hn : n = name
  · simp [erase, hn, h]
  · simp [erase, insert, hn]

/-! ## Members that are not repeated -/

theorem repeatedAfter?_eq_none_iff {seen : List Name} {ms : List Member} :
    repeatedAfter? seen ms = none ↔
      (∀ m ∈ ms, m.name ∉ seen) ∧ ms.Pairwise (·.name ≠ ·.name) := by
  induction ms generalizing seen with
  | nil => simp [repeatedAfter?]
  | cons m ms ih =>
    rw [repeatedAfter?]
    split
    · rename_i hseen
      simp [hseen]
    · rename_i hnew
      rw [ih, List.pairwise_cons]
      simp only [List.mem_cons, not_or, forall_eq_or_imp, forall_and, ne_comm (a := m.name)]
      tauto

theorem repeatedMember?_eq_none_iff {ms : List Member} :
    repeatedMember? ms = none ↔ ms.Pairwise (·.name ≠ ·.name) := by
  rw [repeatedMember?, repeatedAfter?_eq_none_iff]
  simp

namespace TypeEntry

variable {t : TypeEntry} {m : Member} {name : Name}

def hasMember (t : TypeEntry) (name : Name) : Bool := (t.index.place? name).isSome

/-- Takes the last member off again, with its place in the index. -/
def popMember (t : TypeEntry) : TypeEntry :=
  match t.members.getLast? with
  | none => t
  | some m => { t with members := t.members.dropLast, index := t.index.erase m.name }

theorem popMember_withMember (hnew : t.hasMember m.name = false) :
    (t.withMember m).popMember = t := by
  have hnone : t.index.place? m.name = none := by simpa [hasMember] using hnew
  simp [popMember, withMember, MemberIndex.erase_insert hnone]

/-- The index has of every name the first place at which a member of the name stands. -/
def InStep (t : TypeEntry) : Prop :=
  ∀ name, t.index.place? name = t.members.findIdx? (·.name == name)

theorem InStep.member?_eq (h : t.InStep) (name : Name) :
    (t.index.place? name).bind (t.members[·]?) = t.member? name := by
  rw [h, member?, List.find?_eq_bind_findIdx?_getElem?]

theorem InStep.hasMember_eq (h : t.InStep) (name : Name) :
    t.hasMember name = t.declares name := by
  rw [hasMember, h, List.findIdx?_isSome, declares_eq_any]

theorem InStep.withMember (h : t.InStep) (hnew : t.hasMember m.name = false) :
    (t.withMember m).InStep := by
  have hnone : t.members.findIdx? (·.name == m.name) = none := by
    rw [← h m.name]
    simpa [hasMember] using hnew
  intro name
  by_cases hname : name = m.name
  · subst hname
    simp [TypeEntry.withMember, MemberIndex.insert, List.findIdx?_append, hnone]
  · simp [TypeEntry.withMember, MemberIndex.insert, List.findIdx?_append, hname, Ne.symm hname,
      h name]

/-- What can have become of a type and its index. The index is built for a new type, which has no
member twice, and is written to when a member is added that the type does not have, which may be
taken back at once. Whatever else happens to the type leaves the index alone. -/
inductive Kept : TypeEntry → Prop
  | declared {t : TypeEntry} (hdistinct : repeatedMember? t.members = none)
      (hindex : t.index = .ofMembers t.members) : Kept t
  | edited {t u : TypeEntry} (h : Kept t) (hmembers : u.members = t.members)
      (hindex : u.index = t.index) : Kept u
  | added {t : TypeEntry} {m : Member} (h : Kept t) (hnew : t.hasMember m.name = false) :
      Kept (t.withMember m)
  | takenBack {t : TypeEntry} {m : Member} (h : Kept t) (hnew : t.hasMember m.name = false) :
      Kept (t.withMember m).popMember

theorem ofMembers_concat (ms : List Member) (m : Member) :
    MemberIndex.ofMembers (ms ++ [m]) = (MemberIndex.ofMembers ms).insert m.name ms.length := by
  simp [MemberIndex.ofMembers, List.zipIdx_append]

theorem inStep_ofMembers (ht : t.members.Pairwise (·.name ≠ ·.name))
    (hindex : t.index = .ofMembers t.members) : t.InStep := by
  suffices h : ∀ ms : List Member, ms.Pairwise (·.name ≠ ·.name) →
      InStep { t with members := ms, index := .ofMembers ms } by
    have hself : { t with members := t.members, index := .ofMembers t.members } = t := by
      rw [← hindex]
    exact hself ▸ h t.members ht
  intro ms hms
  induction ms using List.reverseRecOn with
  | nil => exact fun name => rfl
  | append_singleton ms m ih =>
    obtain ⟨hms, -, hlast⟩ := List.pairwise_append.mp hms
    have hbefore := ih hms
    have hnew : hasMember { t with members := ms, index := .ofMembers ms } m.name = false := by
      rw [hbefore.hasMember_eq, declares_eq_any, List.any_eq_false]
      intro n hn
      simpa using hlast n hn m List.mem_cons_self
    have hstep := hbefore.withMember hnew
    rwa [TypeEntry.withMember, ← ofMembers_concat] at hstep

theorem Kept.inStep (h : Kept t) : t.InStep := by
  induction h with
  | declared hdistinct hindex =>
    exact inStep_ofMembers (repeatedMember?_eq_none_iff.mp hdistinct) hindex
  | edited _ hmembers hindex ih =>
    intro name
    rw [hmembers, hindex]
    exact ih name
  | added _ hnew ih => exact ih.withMember hnew
  | takenBack _ hnew ih =>
    rw [popMember_withMember hnew]
    exact ih

theorem Kept.pairwise (h : Kept t) : t.members.Pairwise (·.name ≠ ·.name) := by
  induction h with
  | declared hdistinct => exact repeatedMember?_eq_none_iff.mp hdistinct
  | edited _ hmembers _ ih => rwa [hmembers]
  | @added t m h hnew ih =>
    refine List.pairwise_append.mpr ⟨ih, List.pairwise_singleton _ _, fun n hn k hk => ?_⟩
    rw [List.mem_singleton.mp hk]
    rw [h.inStep.hasMember_eq, declares_eq_any, List.any_eq_false] at hnew
    simpa using hnew n hn
  | takenBack h hnew ih => rwa [popMember_withMember hnew]

end TypeEntry

/-! ## Along runs -/

namespace Registry

variable {r s : Registry} {c d : Catalog}

def KeepsIndices (c : Catalog) : Prop := ∀ {h t}, c.typeAt? h = some t → t.Kept

theorem KeepsIndices.of_agree (hc : KeepsIndices c)
    (hcd : Agree (fun t => (t.members, t.index)) c d) : KeepsIndices d := by
  intro h t ht
  obtain ⟨u, hu, heq⟩ := hcd.exists_entry ht
  obtain ⟨hmembers, hindex⟩ := Prod.mk.inj heq
  exact (hc hu).edited hmembers.symm hindex.symm

theorem KeepsIndices.append {t : TypeEntry} (hc : KeepsIndices c) (hd : c.Appends t d)
    (ht : t.Kept) : KeepsIndices d := by
  intro h u hu
  rw [hd.typeAt?_eq] at hu
  split at hu
  · cases hu
    exact ht
  · exact hc hu

theorem KeepsIndices.hasMember_eq (hc : KeepsIndices c) {type : Handle} {t : TypeEntry}
    (ht : c.typeAt? type = some t) (name : Name) : t.hasMember name = c.declares type name := by
  rw [declares, ht, Option.any_some, (hc ht).inStep.hasMember_eq]

theorem KeepsIndices.addMember {type : Handle} {m : Member} (hc : KeepsIndices c)
    (hnew : c.declares type m.name = false) : KeepsIndices (c.addMember type m) := by
  intro h t ht
  rw [Catalog.addMember, typeAt?_modify] at ht
  split at ht
  · rename_i heq
    subst heq
    obtain ⟨u, hu, rfl⟩ := Option.map_eq_some_iff.mp ht
    exact (hc hu).added ((hc.hasMember_eq hu m.name).trans hnew)
  · exact hc ht

theorem Step.keepsIndices (h : Step r s) (hr : KeepsIndices r.toCatalog) :
    KeepsIndices s.toCatalog := by
  cases h with
  | intern => exact hr
  | declare _ _ hdistinct _ hnext =>
    exact hr.append (place_eq_ok hnext).2.2 (.declared hdistinct rfl)
  | extend => exact hr.of_agree (agree_addParent fun t => by simp)
  | consume => exact hr.of_agree (agree_addRole fun _ => rfl)
  | addMember _ hnew => exact hr.addMember hnew
  | sealType type => exact hr.of_agree ((seals_sealType r.toCatalog type).agree fun _ => rfl)
  | sealAll => exact hr.of_agree ((seals_sealAll r.toCatalog).agree fun _ => rfl)

theorem Reachable.keepsIndices (h : Reachable r) : KeepsIndices r.toCatalog := by
  obtain ⟨config, strings, hrun⟩ := h
  apply hrun.evolves.preserves (P := fun c => KeepsIndices c) Step.keepsIndices
  intro h t ht
  simp [new, typeAt?] at ht

theorem Reachable.distinctMembers (h : Reachable r) : r.DistinctMembers :=
  fun ht => (h.keepsIndices ht).pairwise

end Registry

end ObjectSystem
