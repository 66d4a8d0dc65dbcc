import ObjectSystem.Proofs.Linearization.Ancestry
import ObjectSystem.Proofs.Linearization.Members

/-!
# Members in force by owner

The members in force are those of the first type of the resolution order to declare their name
(`inForce?_eq_some_iff`). They come owner by owner in that order, those of one owner as it declares
them (`WellFormed.membersInForce_eq_groups`), provided that no type declares a name twice.
-/

namespace ObjectSystem

theorem filter_of_pairwise {α β : Type} [BEq β] [LawfulBEq β] {key : α → β} {l : List α}
    (h : l.Pairwise (key · ≠ key ·)) (k : β) :
    l.filter (key · == k) = (l.find? (key · == k)).toList := by
  induction h with
  | nil => rfl
  | @cons a l hfirst _ ih =>
    by_cases ha : key a = k
    · have hrest : l.filter (key · == k) = [] :=
        List.filter_eq_nil_iff.mpr fun b hb => by simpa [← ha] using (hfirst b hb).symm
      rw [List.filter_cons_of_pos (by simpa using ha), List.find?_cons_of_pos (by simpa using ha),
        hrest, Option.toList_some]
    · rw [List.filter_cons_of_neg (by simpa using ha), List.find?_cons_of_neg (by simpa using ha),
        ih]

namespace Catalog

variable {c : Catalog} {type owner : Handle} {name : Name} {m : OwnedMember}

/-- No type declares two members of one name. -/
def DistinctMembers (c : Catalog) : Prop :=
  ∀ {h t}, c.typeAt? h = some t → t.members.Pairwise (·.name ≠ ·.name)

/-! ## The first to declare a name -/

theorem isFirst_of_find? {f : Handle → Bool} {hs : List Handle} {j : Handle}
    (h : hs.find? f = some j) : IsFirst (f · = true) hs j := by
  induction hs with
  | nil => cases h
  | cons i hs ih =>
    cases hi : f i with
    | true =>
      rw [List.find?_cons_of_pos hi] at h
      exact Option.some.inj h ▸ .head hi
    | false =>
      rw [List.find?_cons_of_neg (by simp [hi])] at h
      exact .tail (by simp [hi]) (ih h)

theorem ownMember?_eq_some_iff (hc : c.DistinctMembers) :
    c.ownMember? owner name = some m ↔
      m.owner = owner ∧ ∃ t, c.typeAt? owner = some t ∧ m.member ∈ t.members ∧
        m.member.name = name := by
  rw [ownMember?, Option.map_eq_some_iff]
  constructor
  · rintro ⟨n, hn, rfl⟩
    obtain ⟨t, ht, hfound⟩ := Option.bind_eq_some_iff.mp hn
    exact ⟨rfl, t, ht, List.mem_of_find?_eq_some hfound, by simpa using List.find?_some hfound⟩
  · rintro ⟨rfl, t, ht, hmem, rfl⟩
    exact ⟨m.member, Option.bind_eq_some_iff.mpr ⟨t, ht, find?_of_pairwise (hc ht) hmem⟩, rfl⟩

theorem inForce?_eq_some_iff (hc : c.DistinctMembers) :
    c.inForce? type name = some m ↔
      IsFirst (c.declares · name = true) (c.resolutionOrder type) m.owner ∧
      ∃ t, c.typeAt? m.owner = some t ∧ m.member ∈ t.members ∧ m.member.name = name := by
  rw [inForce?, findSome?_ownMember?, Option.bind_eq_some_iff]
  constructor
  · rintro ⟨owner, hfirst, hown⟩
    obtain ⟨rfl, hmember⟩ := (ownMember?_eq_some_iff hc).mp hown
    exact ⟨isFirst_of_find? hfirst, hmember⟩
  · rintro ⟨hfirst, hmember⟩
    exact ⟨m.owner, hfirst.find?_eq, (ownMember?_eq_some_iff hc).mpr ⟨rfl, hmember⟩⟩

/-! ## Owners in order -/

/-- Where members of one name have different owners, collecting them keeps those that are found
first. -/
theorem foldl_collect_eq_filter {ms : List OwnedMember}
    (hms : ms.Pairwise fun m n => m.member.name = n.member.name → m.owner ≠ n.owner) :
    ms.foldl collect [] = ms.filter fun m =>
      (ms.find? (·.member.name == m.member.name)).any (·.owner == m.owner) := by
  -- on the members from the last one on: a member that is added at the end is never found before
  induction ms using List.reverseRecOn with
  | nil => rfl
  | append_singleton ms m ih =>
    obtain ⟨hms, -, hlast⟩ := List.pairwise_append.mp hms
    have hold : ms.filter (fun n => ((ms ++ [m]).find? (·.member.name == n.member.name)).any
        (·.owner == n.owner)) = ms.foldl collect [] := by
      rw [ih hms]
      refine List.filter_congr fun n hn => ?_
      have hfound : (ms.find? (·.member.name == n.member.name)).isSome :=
        List.find?_isSome.mpr ⟨n, hn, BEq.rfl⟩
      rw [List.find?_append, Option.or_of_isSome hfound]
    have hseen : (ms.foldl collect []).any (·.member.name == m.member.name) =
        (ms.find? (·.member.name == m.member.name)).isSome := by
      rw [← List.isSome_find?, find?_foldl_collect, List.nil_append]
    rw [List.foldl_append, List.foldl_cons, List.foldl_nil, collect, hseen, List.filter_append,
      hold, List.filter_singleton, List.find?_append]
    cases hfound : ms.find? (·.member.name == m.member.name) with
    | none => simp
    | some n =>
      have hname : n.member.name = m.member.name := by simpa using List.find?_some hfound
      have howner : (n.owner == m.owner) = false :=
        beq_eq_false_iff_ne.mpr
          (hlast n (List.mem_of_find?_eq_some hfound) m List.mem_cons_self hname)
      simp [howner]

theorem WellFormed.pairwise_declaredMembers (wf : c.WellFormed) (hc : c.DistinctMembers)
    (type : Handle) : (c.declaredMembers type).Pairwise fun m n =>
      m.member.name = n.member.name → m.owner ≠ n.owner := by
  rw [declaredMembers, List.pairwise_flatMap]
  constructor
  · intro owner _
    rw [List.pairwise_map, membersOf]
    cases ht : c.typeAt? owner with
    | none => exact .nil
    | some t => exact (hc ht).imp fun hne heq => absurd heq hne
  · refine (wf.nodup_resolutionOrder type).imp fun hne m hm n hn _ => ?_
    obtain ⟨_, -, rfl⟩ := List.mem_map.mp hm
    obtain ⟨_, -, rfl⟩ := List.mem_map.mp hn
    exact hne

/-- The members in force come in groups, one for each type of the resolution order: of the members
that the type declares, in the order of their declaration, those that no type before it declares. -/
theorem WellFormed.membersInForce_eq_groups (wf : c.WellFormed) (hc : c.DistinctMembers)
    (type : Handle) :
    c.membersInForce type = (c.resolutionOrder type).flatMap fun owner =>
      ((c.membersOf owner).filter fun m =>
        (c.inForce? type m.name).any (·.owner == owner)).map (OwnedMember.mk owner) := by
  rw [membersInForce, foldl_collect_eq_filter (wf.pairwise_declaredMembers hc type)]
  simp only [← inForce?_eq_find?_declaredMembers]
  rw [declaredMembers, List.filter_flatMap]
  simp only [List.filter_map]
  rfl

/-! ## Owners -/

theorem owner_mem_resolutionOrder (hm : m ∈ c.membersInForce type) :
    m.owner ∈ c.resolutionOrder type := by
  obtain ⟨owner, hmem, hown⟩ := List.exists_of_findSome?_eq_some (mem_membersInForce.mp hm)
  obtain ⟨_, -, rfl⟩ := Option.map_eq_some_iff.mp hown
  exact hmem

theorem WellFormed.owner_cases (wf : c.WellFormed) (hm : m ∈ c.membersInForce type) :
    m.owner = type ∨ (c.isClass m.owner ∧ c.isA type m.owner) ∨
      (c.isRole m.owner ∧ c.does type m.owner) := by
  have howner := owner_mem_resolutionOrder hm
  obtain ⟨k, hk, hreach⟩ := wf.mem_resolutionOrder.mp howner
  rcases wf.isRole_of_reaches hreach with rfl | hrole
  · rcases wf.isClass_of_extends_path (wf.mem_lineage.mp hk).2 with heq | ⟨-, hclass⟩
    · exact .inl heq.symm
    · exact .inr (.inl ⟨hclass, decide_eq_true hk⟩)
  · exact .inr (.inr ⟨hrole, wf.does_iff.mpr ⟨hrole, howner⟩⟩)

end Catalog

end ObjectSystem
