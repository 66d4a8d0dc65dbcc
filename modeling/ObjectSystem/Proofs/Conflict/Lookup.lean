import ObjectSystem.Catalog.Resolution
import ObjectSystem.Proofs.Conflict.Locality

/-!
# Lookup and providers

The lookup of a member goes through one flat order of types, while what a role provides is told
level by level. They agree: the first role of a search that declares a name is offered by a type
that the search starts from (`Explores.offers_of_find?`), and a search that finds no such role
leaves nobody who offers the name (`Swept.not_isOffered`). So the member that the lookup finds is
that of a role offered to the first class to which any is (`ExploresEach.find?_cases`).
-/

namespace ObjectSystem.Catalog

open Relation

variable {c : Catalog} {m : Name} {k x : Handle} {pending found added first : List Handle}

inductive IsFirst (P : Handle → Prop) : List Handle → Handle → Prop
  | head {j : Handle} {rest : List Handle} (h : P j) : IsFirst P (j :: rest) j
  | tail {i j : Handle} {rest : List Handle} (h : ¬ P i) (hj : IsFirst P rest j) :
      IsFirst P (i :: rest) j

namespace IsFirst

variable {P : Handle → Prop} {hs : List Handle} {i j : Handle}

theorem mem (h : IsFirst P hs j) : j ∈ hs := by
  induction h with
  | head => exact List.mem_cons_self
  | tail _ _ ih => exact List.mem_cons_of_mem _ ih

theorem holds (h : IsFirst P hs j) : P j := by
  induction h with
  | head h => exact h
  | tail _ _ ih => exact ih

theorem unique (hi : IsFirst P hs i) (hj : IsFirst P hs j) : i = j := by
  induction hi with
  | head h =>
    cases hj with
    | head => rfl
    | tail hnot => exact absurd h hnot
  | tail hnot _ ih =>
    cases hj with
    | head h => exact absurd h hnot
    | tail _ hj => exact ih hj

theorem find?_eq {f : Handle → Bool} (h : IsFirst (f · = true) hs j) : hs.find? f = some j := by
  induction h with
  | head h => exact List.find?_cons_of_pos h
  | tail hnot _ ih => rw [List.find?_cons_of_neg hnot, ih]

end IsFirst

def IsOffered (c : Catalog) (m : Name) (type : Handle) : Prop := ∃ p, c.Offers m type p

/-! ## The member of the first type that declares the name -/

theorem isSome_ownMember? (c : Catalog) (h : Handle) (m : Name) :
    (c.ownMember? h m).isSome = c.declares h m := by
  cases ht : c.typeAt? h <;> simp [ownMember?, declares, TypeEntry.declares, ht]

theorem exists_ownMember? (h : c.declares k m) : ∃ o, c.ownMember? k m = some o := by
  rw [← isSome_ownMember?] at h
  exact Option.isSome_iff_exists.mp h

theorem findSome?_ownMember? (hs : List Handle) :
    hs.findSome? (c.ownMember? · m) = (hs.find? (c.declares · m)).bind (c.ownMember? · m) := by
  induction hs with
  | nil => rfl
  | cons h hs ih =>
    rw [List.findSome?_cons, List.find?_cons, ← isSome_ownMember?]
    cases ho : c.ownMember? h m with
    | none => simp [ih]
    | some o => simp [ho]

theorem WellFormed.inForce?_eq (wf : c.WellFormed) (type : Handle) (m : Name) :
    c.inForce? type m =
      (((c.lineage type).find? (c.declares · m)).or
        ((c.reachableRoles type).find? (c.declares · m))).bind (c.ownMember? · m) := by
  rw [inForce?, findSome?_ownMember?, wf.resolutionOrder_eq, List.find?_append]

/-! ## What a search comes upon -/

/-- The first role of a search that declares the name is offered by a pending type: on the way to it
there are only roles that do not declare the name. -/
theorem Explores.offers_of_find? (h : c.Explores pending found added)
    (hx : added.find? (c.declares · m) = some x) : ∃ p ∈ pending, c.Offers m p x := by
  induction h with
  | done found => cases hx
  | @visit h pending found added _ ih =>
    rw [List.find?_append] at hx
    cases hfresh : (c.freshRoles found h).find? (c.declares · m) with
    | some y =>
      rw [hfresh, Option.some_or] at hx
      obtain rfl := Option.some.inj hx
      have hmem := (mem_freshRoles.mp (List.mem_of_find?_eq_some hfresh)).1
      have hdeclares : c.declares y m := by simpa using List.find?_some hfresh
      exact ⟨h, List.mem_cons_self, y, hmem, .own hdeclares⟩
    | none =>
      rw [hfresh, Option.none_or] at hx
      obtain ⟨p, hp, hoffers⟩ := ih hx
      rcases List.mem_append.mp hp with hp | hp
      · exact ⟨p, List.mem_cons_of_mem h hp, hoffers⟩
      · -- a fresh role passes on what it is offered
        have hsilent : c.declares p m = false := by
          simpa using List.find?_eq_none.mp hfresh p hp
        exact ⟨h, List.mem_cons_self, p, (mem_freshRoles.mp hp).1,
          provides_iff.mpr (.inr ⟨hsilent, hoffers⟩)⟩

/-- The roles that have been found are of no help for the name: what they consume has been found
too, and none of them declares it. -/
structure Swept (c : Catalog) (m : Name) (found : List Handle) : Prop where
  closed : ∀ y ∈ found, c.isRole y → ∀ x, c.Consumes y x → x ∈ found
  silent : ∀ y ∈ found, c.isRole y → c.declares y m = false

theorem Swept.not_isOffered (hswept : c.Swept m found) (wf : c.WellFormed)
    (hk : ∀ x, c.Consumes k x → x ∈ found) : ¬ c.IsOffered m k := by
  rintro ⟨p, r, hkr, hp⟩
  have hr := hk r hkr
  have hrole := wf.consumes_role hkr
  clear hkr
  induction hp with
  | @own r h => exact Bool.false_ne_true ((hswept.silent r hr hrole).symm.trans h)
  | @consumed r s p _ hrs _ ih => exact ih (hswept.closed r hr hrole s hrs) (wf.consumes_role hrs)

theorem Swept.append (hswept : c.Swept m found) (h : c.Explores [k] found first)
    (hnone : first.find? (c.declares · m) = none) : c.Swept m (found ++ first) where
  closed y hy hrole x hyx := by
    rcases List.mem_append.mp hy with hy | hy
    · exact List.mem_append_left first (hswept.closed y hy hrole x hyx)
    · exact h.closed y (List.mem_append_right [k] hy) x hyx
  silent y hy hrole := by
    rcases List.mem_append.mp hy with hy | hy
    · exact hswept.silent y hy hrole
    · simpa using List.find?_eq_none.mp hnone y hy

theorem ExploresEach.find?_cases {hs : List Handle} (h : c.ExploresEach hs found added)
    (wf : c.WellFormed) (hswept : c.Swept m found) :
    (∃ k x, IsFirst (c.IsOffered m) hs k ∧ c.Offers m k x ∧
        added.find? (c.declares · m) = some x) ∨
      (∀ k ∈ hs, ¬ c.IsOffered m k) ∧ added.find? (c.declares · m) = none := by
  induction h with
  | done found => exact .inr ⟨by simp, rfl⟩
  | @next h hs found first rest hfirst _ ih =>
    rw [List.find?_append]
    cases hhit : first.find? (c.declares · m) with
    | some x =>
      obtain ⟨p, hp, hoffers⟩ := hfirst.offers_of_find? hhit
      obtain rfl := List.mem_singleton.mp hp
      exact .inl ⟨p, x, .head ⟨x, hoffers⟩, hoffers, rfl⟩
    | none =>
      -- the searches that follow skip what has been found, which would not help them
      have hswept' := hswept.append hfirst hhit
      have hnot : ¬ c.IsOffered m h :=
        hswept'.not_isOffered wf fun x hx => hfirst.closed h List.mem_cons_self x hx
      rw [Option.none_or]
      rcases ih hswept' with ⟨k, x, hk, hoffers, hx⟩ | ⟨hnone, hrest⟩
      · exact .inl ⟨k, x, .tail hnot hk, hoffers, hx⟩
      · exact .inr ⟨List.forall_mem_cons.mpr ⟨hnot, hnone⟩, hrest⟩

/-! ## Lookup in a class -/

theorem WellFormed.swept_lineage (wf : c.WellFormed) (hk : c.isClass k) :
    c.Swept m (c.lineage k) where
  closed _ hy hrole := absurd (wf.isClass_of_mem_lineage hk hy) (not_isClass_of_isRole hrole)
  silent _ hy hrole := absurd (wf.isClass_of_mem_lineage hk hy) (not_isClass_of_isRole hrole)

theorem WellFormed.not_settles_of_mem_lineage (wf : c.WellFormed) {j : Handle}
    (hnone : ∀ x ∈ c.lineage k, c.declares x m = false) (hj : j ∈ c.lineage k) :
    ¬ c.settles j m := by
  intro hsettles
  obtain ⟨x, -, hjx, hx⟩ := wf.settles_iff.mp hsettles
  obtain ⟨hk, hkj⟩ := wf.mem_lineage.mp hj
  have hmem : x ∈ c.lineage k := wf.mem_lineage.mpr ⟨hk, hkj.trans hjx⟩
  exact Bool.false_ne_true ((hnone x hmem).symm.trans hx)

theorem WellFormed.inForce?_of_declares (wf : c.WellFormed) {j : Handle}
    (hj : IsFirst (c.declares · m = true) (c.lineage k) j) :
    c.inForce? k m = c.ownMember? j m := by
  rw [wf.inForce?_eq, hj.find?_eq]
  rfl

theorem WellFormed.inForce?_of_not_declares (wf : c.WellFormed)
    (hnone : ∀ x ∈ c.lineage k, c.declares x m = false) :
    c.inForce? k m =
      ((c.reachableRoles k).find? (c.declares · m)).bind (c.ownMember? · m) := by
  have hclasses : (c.lineage k).find? (c.declares · m) = none := by
    simpa using hnone
  rw [wf.inForce?_eq, hclasses, Option.none_or]

/-- Where no class declares the name, the member in force is that of the one role that is offered to
the nearest class to which any is. -/
theorem Settled.inForce?_of_isOffered (hc : c.Settled) (hclass : c.isClass k)
    (hnone : ∀ x ∈ c.lineage k, c.declares x m = false) {j : Handle}
    (hj : IsFirst (c.IsOffered m) (c.lineage k) j) :
    ∃ p, (∀ q, c.Offers m j q ↔ q = p) ∧ c.inForce? k m = c.ownMember? p m := by
  have wf := hc.wellFormed
  rw [wf.inForce?_of_not_declares hnone]
  rcases (wf.explores_reachableRoles k).find?_cases wf (wf.swept_lineage hclass) with
    ⟨i, p, hi, hp, hhit⟩ | ⟨hno, -⟩
  · obtain rfl := hi.unique hj
    refine ⟨p, fun q => ⟨fun hq => ?_, fun hq => hq ▸ hp⟩, by rw [hhit]; rfl⟩
    exact (hc.conflictFree i (wf.isClass_of_mem_lineage hclass hi.mem) m q p hq hp).resolve_right
      (wf.not_settles_of_mem_lineage hnone hi.mem)
  · have hoffered : c.IsOffered m j := hj.holds
    exact absurd hoffered (hno j hj.mem)

theorem WellFormed.inForce?_eq_none (wf : c.WellFormed) (hclass : c.isClass k)
    (hnone : ∀ x ∈ c.lineage k, c.declares x m = false)
    (hnot : ∀ x ∈ c.lineage k, ¬ c.IsOffered m x) : c.inForce? k m = none := by
  rw [wf.inForce?_of_not_declares hnone]
  rcases (wf.explores_reachableRoles k).find?_cases wf (wf.swept_lineage hclass) with
    ⟨i, p, hi, hp, -⟩ | ⟨-, hmiss⟩
  · exact absurd ⟨p, hp⟩ (hnot i hi.mem)
  · rw [hmiss]
    rfl

end ObjectSystem.Catalog
