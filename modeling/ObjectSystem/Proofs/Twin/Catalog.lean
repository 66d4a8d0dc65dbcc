import ObjectSystem.Catalog.Sealing
import ObjectSystem.Proofs.Linearization.Agreement
import ObjectSystem.Proofs.Twin.Value

/-!
# Catalogs up to names

Two catalogs are alike under a relation of names when their types are equal one by one, but for the
names of types and members, which are related. Their graphs are the same then, and so is everything
that is read off the graph; and members of related names are found together, when the relation
relates each name to one name only.
-/

namespace ObjectSystem

open Relator

/-! ## Lists that are related element by element -/

section Lists

variable {α β γ δ : Type} {R : α → β → Prop} {S : γ → δ → Prop} {as : List α} {bs : List β}

theorem cases_rel {a : Option α} {b : Option β} (h : Option.Rel R a b) :
    a = none ∧ b = none ∨ ∃ x y, a = some x ∧ b = some y ∧ R x y := by
  cases h with
  | none => exact .inl ⟨rfl, rfl⟩
  | some h => exact .inr ⟨_, _, rfl, rfl, h⟩

theorem isSome_eq_of_rel {a : Option α} {b : Option β} (h : Option.Rel R a b) :
    a.isSome = b.isSome := by
  cases h <;> rfl

theorem map_eq_of_rel {a : Option α} {b : Option β} (h : Option.Rel R a b) {f : α → γ} {g : β → γ}
    (hfg : ∀ {a b}, R a b → f a = g b) : a.map f = b.map g := by
  cases h with
  | none => rfl
  | some h => exact congrArg some (hfg h)

theorem rel_of_map_eq {a : Option α} {b : Option β} {f : α → γ} {g : β → γ}
    (h : a.map f = b.map g) : Option.Rel (fun x y => f x = g y) a b := by
  cases a with
  | none =>
    rw [Option.map_none, eq_comm, Option.map_eq_none_iff] at h
    rw [h]
    exact .none
  | some x =>
    rw [Option.map_some, eq_comm] at h
    obtain ⟨y, rfl, hy⟩ := Option.map_eq_some_iff.mp h
    exact .some hy.symm

theorem rel_getElem? (h : List.Forall₂ R as bs) (i : Nat) : Option.Rel R as[i]? bs[i]? := by
  induction h generalizing i with
  | nil => exact .none
  | cons hab _ ih =>
    cases i with
    | zero => exact .some hab
    | succ i => exact ih i

theorem rel_head? (h : List.Forall₂ R as bs) : Option.Rel R as.head? bs.head? := by
  cases h with
  | nil => exact .none
  | cons hab _ => exact .some hab

theorem rel_find? (h : List.Forall₂ R as bs) {p : α → Bool} {q : β → Bool}
    (hpq : ∀ {a b}, R a b → p a = q b) : Option.Rel R (as.find? p) (bs.find? q) := by
  induction h with
  | nil => exact .none
  | @cons a b _ _ hab _ ih =>
    rw [List.find?_cons, List.find?_cons, ← hpq hab]
    cases p a
    · exact ih
    · exact .some hab

theorem rel_findSome? (keys : List α) {f : α → Option γ} {g : α → Option δ}
    (hfg : ∀ a, Option.Rel S (f a) (g a)) :
    Option.Rel S (keys.findSome? f) (keys.findSome? g) := by
  induction keys with
  | nil => exact .none
  | cons a as ih =>
    rw [List.findSome?_cons, List.findSome?_cons]
    rcases cases_rel (hfg a) with ⟨hf, hg⟩ | ⟨x, y, hf, hg, hxy⟩
    · rw [hf, hg]
      exact ih
    · rw [hf, hg]
      exact .some hxy

theorem rel_modify (h : List.Forall₂ R as bs) {f : α → α} {g : β → β}
    (hfg : ∀ {a b}, R a b → R (f a) (g b)) (i : Nat) :
    List.Forall₂ R (as.modify i f) (bs.modify i g) := by
  induction h generalizing i with
  | nil => simp
  | cons hab hrest ih =>
    cases i with
    | zero => exact .cons (hfg hab) hrest
    | succ i => exact .cons hab (ih i)

theorem list_map_eq_of_rel (h : List.Forall₂ R as bs) {f : α → γ} {g : β → γ}
    (hfg : ∀ {a b}, R a b → f a = g b) : as.map f = bs.map g := by
  induction h with
  | nil => rfl
  | cons hab _ ih => rw [List.map_cons, List.map_cons, hfg hab, ih]

theorem any_eq_of_rel (h : List.Forall₂ R as bs) {p : α → Bool} {q : β → Bool}
    (hpq : ∀ {a b}, R a b → p a = q b) : as.any p = bs.any q := by
  have hmap := congrArg (List.any · id) (list_map_eq_of_rel h hpq)
  simpa only [List.any_map, Function.id_comp] using hmap

theorem countP_eq_of_rel (h : List.Forall₂ R as bs) {p : α → Bool} {q : β → Bool}
    (hpq : ∀ {a b}, R a b → p a = q b) : as.countP p = bs.countP q := by
  have hmap := congrArg (List.countP id) (list_map_eq_of_rel h hpq)
  simpa only [List.countP_map, Function.id_comp] using hmap

end Lists

theorem beq_eq_of_rel {N : Name → Name → Prop} (hN : BiUnique N) {m m' n n' : Name} (hm : N m m')
    (hn : N n n') : (m == n) = (m' == n') := by
  rw [Bool.eq_iff_iff, beq_iff_eq, beq_iff_eq]
  exact rel_eq hN hm hn

structure TypeEntry.Alike (N : Name → Name → Prop) (t t' : TypeEntry) : Prop where
  handle_eq : t'.handle = t.handle
  name : N t.name t'.name
  isAnonymous_eq : t'.isAnonymous = t.isAnonymous
  form_eq : t'.form = t.form
  roles_eq : t'.roles = t.roles
  members : List.Forall₂ (Member.Alike N) t.members t'.members
  isSealed_eq : t'.isSealed = t.isSealed

namespace TypeEntry.Alike

variable {N : Name → Name → Prop} {t t' : TypeEntry} {n n' : Name}

theorem parent_eq (h : t.Alike N t') : t'.parent = t.parent := by
  rw [parent, parent, h.form_eq]

theorem isClass_eq (h : t.Alike N t') : t'.isClass = t.isClass := by
  rw [isClass, isClass, h.form_eq]

theorem isRole_eq (h : t.Alike N t') : t'.isRole = t.isRole := by
  rw [isRole, isRole, h.form_eq]

theorem isAbstract_eq (h : t.Alike N t') : t'.isAbstract = t.isAbstract := by
  rw [isAbstract, isAbstract, h.form_eq]

theorem declares_eq (h : t.Alike N t') (hN : BiUnique N) (hn : N n n') :
    t'.declares n' = t.declares n := by
  rw [declares_eq_any, declares_eq_any]
  exact (any_eq_of_rel h.members fun hm => beq_eq_of_rel hN hm.name hn).symm

theorem withParent (h : t.Alike N t') (parent : Handle) :
    (t.withParent parent).Alike N (t'.withParent parent) := by
  unfold TypeEntry.withParent
  rw [h.form_eq]
  split
  · exact { h with form_eq := rfl }
  · exact h

theorem withRole (h : t.Alike N t') (role : Handle) :
    (t.withRole role).Alike N (t'.withRole role) :=
  { h with roles_eq := congrArg (· ++ [role]) h.roles_eq }

theorem withMember (h : t.Alike N t') {m m' : Member} (hm : m.Alike N m') :
    (t.withMember m).Alike N (t'.withMember m') :=
  { h with members := List.rel_append h.members (.cons hm .nil) }

theorem asSealed (h : t.Alike N t') : t.asSealed.Alike N t'.asSealed :=
  { h with isSealed_eq := rfl }

theorem mono {M : Name → Name → Prop} (h : t.Alike N t') (hNM : ∀ {n n'}, N n n' → M n n') :
    t.Alike M t' :=
  { h with
    name := hNM h.name
    members := h.members.imp fun _ _ hm => hm.mono hNM }

end TypeEntry.Alike

namespace Catalog

structure Alike (N : Name → Name → Prop) (c c' : Catalog) : Prop where
  types : List.Forall₂ (TypeEntry.Alike N) c.types.toList c'.types.toList
  config_eq : c'.config = c.config
  anonymousCount_eq : c'.anonymousCount = c.anonymousCount

namespace Alike

variable {N : Name → Name → Prop} {c c' : Catalog} {n n' : Name}

theorem typeAt? (h : c.Alike N c') (k : Handle) :
    Option.Rel (TypeEntry.Alike N) (c.typeAt? k) (c'.typeAt? k) := by
  rw [Catalog.typeAt?_eq_getElem?, Catalog.typeAt?_eq_getElem?]
  exact rel_getElem? h.types k.index

theorem size_eq (h : c.Alike N c') : c'.size = c.size := by
  rw [size, size, ← Array.length_toList, ← Array.length_toList, h.types.length_eq]

/-- Alike catalogs look the same through each view that shows no names. -/
theorem agree {α : Type} {view : TypeEntry → α} (h : c.Alike N c')
    (hview : ∀ {t t'}, TypeEntry.Alike N t t' → view t' = view t) : Agree view c c' :=
  ⟨h.size_eq, fun k => (map_eq_of_rel (h.typeAt? k) fun ht => (hview ht).symm).symm⟩

theorem sameGraph (h : c.Alike N c') : SameGraph c c' where
  handle := h.agree TypeEntry.Alike.handle_eq
  kind := h.agree fun ht => congrArg Form.kind ht.form_eq
  parent := h.agree TypeEntry.Alike.parent_eq
  roles := h.agree TypeEntry.Alike.roles_eq

theorem isClass_eq (h : c.Alike N c') : c'.isClass = c.isClass :=
  funext h.sameGraph.kind.isClass_eq

theorem isRole_eq (h : c.Alike N c') : c'.isRole = c.isRole :=
  funext h.sameGraph.kind.isRole_eq

theorem isOpen_eq (h : c.Alike N c') : c'.isOpen = c.isOpen :=
  funext ((h.agree TypeEntry.Alike.isSealed_eq).any_eq not)

theorem lineage_eq (h : c.Alike N c') : c'.lineage = c.lineage :=
  funext h.sameGraph.parent.lineage_eq

theorem resolutionOrder_eq (h : c.Alike N c') : c'.resolutionOrder = c.resolutionOrder :=
  funext h.sameGraph.resolutionOrder_eq

theorem reachableRoles_eq (h : c.Alike N c') : c'.reachableRoles = c.reachableRoles :=
  funext h.sameGraph.reachableRoles_eq

theorem rolesOf_eq (h : c.Alike N c') : c'.rolesOf = c.rolesOf :=
  funext h.sameGraph.roles.rolesOf_eq

theorem nextHandle_eq (h : c.Alike N c') : c'.nextHandle = c.nextHandle :=
  congrArg Handle.mk h.size_eq

theorem openInOrder_eq (h : c.Alike N c') : c'.openInOrder = c.openInOrder := by
  funext type
  rw [openInOrder, openInOrder, h.resolutionOrder_eq, h.isOpen_eq]

theorem openCount_eq (h : c.Alike N c') : c'.openCount = c.openCount := by
  rw [openCount, openCount, ← Array.countP_toList, ← Array.countP_toList]
  exact (countP_eq_of_rel h.types fun ht => congrArg not ht.isSealed_eq.symm).symm

theorem declares_eq (h : c.Alike N c') (hN : BiUnique N) (hn : N n n') (k : Handle) :
    c'.declares k n' = c.declares k n := by
  rw [declares, declares]
  rcases cases_rel (h.typeAt? k) with ⟨ht, ht'⟩ | ⟨t, t', ht, ht', halike⟩
  · rw [ht, ht']
    rfl
  · rw [ht, ht']
    exact halike.declares_eq hN hn

/-! ## Changes -/

theorem modify (h : c.Alike N c') {f f' : TypeEntry → TypeEntry}
    (hf : ∀ {t t'}, TypeEntry.Alike N t t' → (f t).Alike N (f' t')) (k : Handle) :
    (c.modify k f).Alike N (c'.modify k f') := by
  refine { h with types := ?_ }
  simp only [Catalog.modify, Array.toList_modify]
  exact rel_modify h.types hf k.index

theorem addParent (h : c.Alike N c') (type parent : Handle) :
    (c.addParent type parent).Alike N (c'.addParent type parent) :=
  h.modify (fun ht => ht.withParent parent) type

theorem addRole (h : c.Alike N c') (type role : Handle) :
    (c.addRole type role).Alike N (c'.addRole type role) :=
  h.modify (fun ht => ht.withRole role) type

theorem addMember (h : c.Alike N c') (type : Handle) {m m' : Member} (hm : m.Alike N m') :
    (c.addMember type m).Alike N (c'.addMember type m') :=
  h.modify (fun ht => ht.withMember hm) type

theorem sealEach (h : c.Alike N c') (hs : List Handle) :
    (c.sealEach hs).Alike N (c'.sealEach hs) := by
  induction hs generalizing c c' with
  | nil => exact h
  | cons k hs ih => exact ih (h.modify TypeEntry.Alike.asSealed k)

theorem sealType (h : c.Alike N c') (type : Handle) :
    (c.sealType type).Alike N (c'.sealType type) := by
  rw [Catalog.sealType, Catalog.sealType, h.resolutionOrder_eq]
  exact h.sealEach _

theorem sealAll (h : c.Alike N c') : c.sealAll.Alike N c'.sealAll := by
  refine { h with types := ?_ }
  simp only [Catalog.sealAll, Array.toList_map]
  rw [List.forall₂_map_left_iff, List.forall₂_map_right_iff]
  exact h.types.imp fun _ _ ht => ht.asSealed

theorem append {d d' : Catalog} {t t' : TypeEntry} (h : c.Alike N c') (ht : t.Alike N t')
    (hd : d.types = c.types.push t) (hd' : d'.types = c'.types.push t')
    (hconfig : d'.config = d.config) (hcount : d'.anonymousCount = d.anonymousCount) :
    d.Alike N d' := by
  refine ⟨?_, hconfig, hcount⟩
  rw [hd, hd', Array.toList_push, Array.toList_push]
  exact List.rel_append h.types (.cons ht .nil)

theorem mono {M : Name → Name → Prop} (h : c.Alike N c') (hNM : ∀ {n n'}, N n n' → M n n') :
    c.Alike M c' :=
  { h with types := h.types.imp fun _ _ ht => ht.mono hNM }

end Alike

end Catalog

end ObjectSystem
