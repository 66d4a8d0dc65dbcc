import ObjectSystem.Proofs.Graph.Basic

/-!
# Lineages

In a well-formed graph the lineage of a type is the type followed by the lineage of its parent
(`lineage_of_extends`): the bound on the climb is never felt. So the lineage holds exactly the types
that are reached over parents (`mem_lineage`), each once.
-/

namespace ObjectSystem.Catalog

open Relation

variable {c : Catalog}

theorem climb_succ {rank : Handle → Nat} (hrank : ∀ {a b}, c.Extends a b → rank b < rank a)
    {fuel : Nat} {h : Handle} (hfuel : rank h < fuel) : c.climb (fuel + 1) h = c.climb fuel h := by
  induction fuel generalizing h with
  | zero => exact absurd hfuel (Nat.not_lt_zero _)
  | succ fuel ih =>
    rw [climb, climb]
    cases ht : c.typeAt? h with
    | none => rfl
    | some t =>
      cases hp : t.parent with
      | none => simp only [hp]
      | some p =>
        have hlt := hrank (extends_iff.mpr ⟨t, ht, hp⟩)
        simp only [hp]
        rw [ih (by omega)]

theorem lineage_of_unknown {h : Handle} (hk : ¬ c.Known h) : c.lineage h = [] := by
  rw [lineage]
  cases c.size with
  | zero => rfl
  | succ n => rw [climb, typeAt?_eq_none hk]

theorem lineage_of_root {h : Handle} (hk : c.Known h) (hp : c.parent? h = none) :
    c.lineage h = [h] := by
  obtain ⟨t, ht⟩ := hk.exists_entry
  rw [parent?_of_entry ht] at hp
  rw [lineage]
  cases hsize : c.size with
  | zero => exact absurd hk (by simp [Known, hsize])
  | succ n => simp only [climb, ht, hp]

theorem WellFormed.lineage_of_extends (wf : c.WellFormed) {a b : Handle} (hab : c.Extends a b) :
    c.lineage a = a :: c.lineage b := by
  obtain ⟨rank, hrank, hbound⟩ := wf.exists_rank_extends
  obtain ⟨t, ht, hp⟩ := extends_iff.mp hab
  have ha := hbound hab.known_left
  have hb := hrank hab
  rw [lineage, lineage]
  cases hsize : c.size with
  | zero => omega
  | succ n =>
    rw [climb_succ hrank (show rank b < n by omega)]
    simp only [climb, ht, hp]

theorem WellFormed.lineage_of_isRole (wf : c.WellFormed) {h : Handle} (hr : c.isRole h) :
    c.lineage h = [h] := by
  apply lineage_of_root (known_of_isRole hr)
  cases hp : c.parent? h with
  | none => rfl
  | some p => exact absurd (wf.extends_class hp).1 (not_isClass_of_isRole hr)

/-- Going down the lineage of a type: the type has no parent, or what holds of its parent is carried
over. -/
theorem WellFormed.lineage_induction (wf : c.WellFormed) {motive : ∀ h, c.Known h → Prop}
    (root : ∀ h hk, c.parent? h = none → motive h hk)
    (child : ∀ a b (hab : c.Extends a b), motive b (wf.known_of_extends hab) →
      motive a hab.known_left) (h : Handle) (hk : c.Known h) : motive h hk := by
  induction h using wf.wellFounded_extends.induction with
  | _ h ih =>
    cases hp : c.parent? h with
    | none => exact root h hk hp
    | some p => exact child h p hp (ih p hp (wf.known_of_extends hp))

theorem WellFormed.mem_lineage (wf : c.WellFormed) {h x : Handle} :
    x ∈ c.lineage h ↔ c.Known h ∧ ReflTransGen c.Extends h x := by
  by_cases hk : c.Known h
  · simp only [hk, true_and]
    induction h, hk using wf.lineage_induction with
    | root h hk hp =>
      rw [lineage_of_root hk hp, List.mem_singleton]
      constructor
      · rintro rfl
        exact .refl
      · intro hreach
        rcases ReflTransGen.cases_head hreach with heq | ⟨y, hy, -⟩
        · exact heq.symm
        · exact absurd (hp.symm.trans hy) (by simp)
    | child a b hab ih =>
      rw [wf.lineage_of_extends hab, List.mem_cons, ih]
      constructor
      · rintro (rfl | hreach)
        · exact .refl
        · exact hreach.head hab
      · intro hreach
        rcases ReflTransGen.cases_head hreach with heq | ⟨y, hy, hrest⟩
        · exact .inl heq.symm
        · exact .inr (hab.unique hy ▸ hrest)
  · simp [lineage_of_unknown hk, hk]

theorem WellFormed.mem_lineage_self (wf : c.WellFormed) {h : Handle} (hk : c.Known h) :
    h ∈ c.lineage h :=
  wf.mem_lineage.mpr ⟨hk, .refl⟩

theorem WellFormed.isClass_of_extends_path (wf : c.WellFormed) {a b : Handle}
    (h : ReflTransGen c.Extends a b) : a = b ∨ c.isClass a ∧ c.isClass b := by
  induction h with
  | refl => exact .inl rfl
  | tail _ hedge ih =>
    obtain ⟨hstart, hend⟩ := wf.extends_class hedge
    rcases ih with rfl | ⟨ha, -⟩
    · exact .inr ⟨hstart, hend⟩
    · exact .inr ⟨ha, hend⟩

theorem WellFormed.known_of_mem_lineage (wf : c.WellFormed) {h x : Handle}
    (hx : x ∈ c.lineage h) : c.Known x := by
  obtain ⟨hk, hreach⟩ := wf.mem_lineage.mp hx
  rcases wf.isClass_of_extends_path hreach with rfl | ⟨-, hclass⟩
  · exact hk
  · exact known_of_isClass hclass

theorem WellFormed.isClass_of_mem_lineage (wf : c.WellFormed) {h x : Handle}
    (hclass : c.isClass h) (hx : x ∈ c.lineage h) : c.isClass x := by
  obtain ⟨-, hreach⟩ := wf.mem_lineage.mp hx
  rcases wf.isClass_of_extends_path hreach with rfl | ⟨-, hx⟩
  · exact hclass
  · exact hx

theorem WellFormed.nodup_lineage (wf : c.WellFormed) (h : Handle) : (c.lineage h).Nodup := by
  by_cases hk : c.Known h
  · induction h, hk using wf.lineage_induction with
    | root h hk hp =>
      rw [lineage_of_root hk hp]
      exact List.nodup_singleton h
    | child a b hab ih =>
      rw [wf.lineage_of_extends hab, List.nodup_cons]
      refine ⟨fun hmem => ?_, ih⟩
      obtain ⟨-, hback⟩ := wf.mem_lineage.mp hmem
      exact wf.extends_acyclic a (.head' hab hback)
  · rw [lineage_of_unknown hk]
    exact List.nodup_nil

/-- The list starts with the type, each next type is the parent of the one before, and the last one
has no parent. -/
structure FollowsParents (c : Catalog) (h : Handle) (l : List Handle) : Prop where
  head : l.head? = some h
  chain : l.IsChain c.Extends
  root : ∀ x, l.getLast? = some x → c.parent? x = none

theorem WellFormed.followsParents (wf : c.WellFormed) {h : Handle} (hk : c.Known h) :
    c.FollowsParents h (c.lineage h) := by
  induction h, hk using wf.lineage_induction with
  | root h hk hp =>
    rw [lineage_of_root hk hp]
    exact ⟨rfl, .singleton h, fun x hx => Option.some.inj hx ▸ hp⟩
  | child a b hab ih =>
    rw [wf.lineage_of_extends hab]
    obtain ⟨hhead, hchain, hroot⟩ := ih
    obtain ⟨rest, hrest⟩ := List.head?_eq_some_iff.mp hhead
    rw [hrest] at hchain hroot ⊢
    refine ⟨rfl, .cons_cons hab hchain, fun x hx => hroot x ?_⟩
    rwa [List.getLast?_cons_cons] at hx

end ObjectSystem.Catalog
