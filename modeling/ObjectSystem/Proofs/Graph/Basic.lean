import Mathlib.Data.Finset.Card
import Mathlib.Data.Finset.Image
import Mathlib.Logic.Relation
import ObjectSystem.Catalog.Sealing

/-!
# The type graph

A catalog is a graph with two kinds of edges: a class extends its parent, and a type consumes roles.
`WellFormed` says what holds of the graph of every catalog that edits can build. Since the graph is
finite, acyclic edges admit a rank that falls along them (`exists_rank`); the searches of the
catalog are measured by it.
-/

namespace ObjectSystem.Catalog

open Relation

def Extends (c : Catalog) (a b : Handle) : Prop := c.parent? a = some b

def Consumes (c : Catalog) (a b : Handle) : Prop := b ∈ c.rolesOf a

def Known (c : Catalog) (h : Handle) : Prop := h.index < c.size

/-- What holds of the graph of types whatever edits are made. -/
structure WellFormed (c : Catalog) : Prop where
  /-- A type carries the handle of its position. -/
  handle_eq : ∀ {h t}, c.typeAt? h = some t → t.handle = h
  extends_class : ∀ {a b}, c.Extends a b → c.isClass a ∧ c.isClass b
  /-- What a type consumes is a role. -/
  consumes_role : ∀ {a b}, c.Consumes a b → c.isRole b
  nodup_roles : ∀ a, (c.rolesOf a).Nodup
  /-- Following parents never leads back. -/
  extends_acyclic : ∀ a, ¬ TransGen c.Extends a a
  consumes_acyclic : ∀ a, ¬ TransGen c.Consumes a a

/-- What is consumed is declared, and following consumed roles never leads back. -/
structure Grounded (c : Catalog) : Prop where
  known_of_consumes : ∀ {a b}, c.Consumes a b → c.Known b
  consumes_acyclic : ∀ a, ¬ TransGen c.Consumes a a

/-! ## Positions of types -/

theorem typeAt?_eq_getElem? (c : Catalog) (h : Handle) :
    c.typeAt? h = c.types.toList[h.index]? := by
  rw [typeAt?, Array.getElem?_toList]

theorem exists_typeAt?_of_mem {c : Catalog} {t : TypeEntry} (ht : t ∈ c.types.toList) :
    ∃ h, c.typeAt? h = some t := by
  obtain ⟨i, hi⟩ := List.mem_iff_getElem?.mp ht
  exact ⟨⟨i⟩, by rw [typeAt?_eq_getElem?, hi]⟩

theorem WellFormed.mem_types_iff {c : Catalog} (wf : c.WellFormed) {t : TypeEntry} :
    t ∈ c.types.toList ↔ c.typeAt? t.handle = some t := by
  constructor
  · intro ht
    obtain ⟨h, hh⟩ := exists_typeAt?_of_mem ht
    rwa [wf.handle_eq hh]
  · intro ht
    rw [typeAt?_eq_getElem?] at ht
    exact List.mem_of_getElem? ht

/-! ## Known handles -/

theorem known_iff_isSome {c : Catalog} {h : Handle} : c.Known h ↔ (c.typeAt? h).isSome := by
  simp only [Known, typeAt?, size, isSome_getElem?]

theorem known_of_typeAt? {c : Catalog} {h : Handle} {t : TypeEntry}
    (ht : c.typeAt? h = some t) : c.Known h := by
  rw [known_iff_isSome, ht]
  rfl

theorem typeAt?_eq_none {c : Catalog} {h : Handle} (hk : ¬ c.Known h) : c.typeAt? h = none := by
  rw [known_iff_isSome] at hk
  exact Option.not_isSome_iff_eq_none.mp hk

theorem Known.exists_entry {c : Catalog} {h : Handle} (hk : c.Known h) :
    ∃ t, c.typeAt? h = some t :=
  Option.isSome_iff_exists.mp (known_iff_isSome.mp hk)

/-! ## Kinds of types -/

theorem isClass_iff {c : Catalog} {h : Handle} :
    c.isClass h ↔ ∃ t, c.typeAt? h = some t ∧ t.isClass := by
  simp only [isClass, Option.any_eq_true]

theorem isRole_iff {c : Catalog} {h : Handle} :
    c.isRole h ↔ ∃ t, c.typeAt? h = some t ∧ t.isRole := by
  simp only [isRole, Option.any_eq_true]

theorem isClass_of_entry {c : Catalog} {h : Handle} {t : TypeEntry}
    (ht : c.typeAt? h = some t) : c.isClass h = t.isClass := by
  simp [isClass, ht]

theorem isRole_of_entry {c : Catalog} {h : Handle} {t : TypeEntry}
    (ht : c.typeAt? h = some t) : c.isRole h = t.isRole := by
  simp [isRole, ht]

theorem known_of_isClass {c : Catalog} {h : Handle} (hc : c.isClass h) : c.Known h := by
  obtain ⟨t, ht, -⟩ := isClass_iff.mp hc
  exact known_of_typeAt? ht

theorem known_of_isRole {c : Catalog} {h : Handle} (hr : c.isRole h) : c.Known h := by
  obtain ⟨t, ht, -⟩ := isRole_iff.mp hr
  exact known_of_typeAt? ht

theorem known_of_isOpen {c : Catalog} {h : Handle} (ho : c.isOpen h) : c.Known h := by
  simp only [isOpen, Option.any_eq_true] at ho
  obtain ⟨t, ht, -⟩ := ho
  exact known_of_typeAt? ht

theorem known_of_declares {c : Catalog} {h : Handle} {name : Name} (hd : c.declares h name) :
    c.Known h := by
  simp only [declares, Option.any_eq_true] at hd
  obtain ⟨t, ht, -⟩ := hd
  exact known_of_typeAt? ht

theorem not_isClass_of_isRole {c : Catalog} {h : Handle} (hr : c.isRole h) : ¬ c.isClass h := by
  obtain ⟨t, ht, hr⟩ := isRole_iff.mp hr
  rw [isClass_of_entry ht]
  intro hclass
  rw [TypeEntry.isRole_eq_false hclass] at hr
  cases hr

theorem isRole_of_not_isClass {c : Catalog} {h : Handle} (hk : c.Known h)
    (hc : ¬ c.isClass h) : c.isRole h := by
  obtain ⟨t, ht⟩ := hk.exists_entry
  rw [isClass_of_entry ht] at hc
  rw [isRole_of_entry ht]
  simp only [TypeEntry.isRole, TypeEntry.isClass, decide_eq_true_eq] at hc ⊢
  cases hkind : t.form.kind with
  | cls => exact absurd hkind hc
  | role => rfl

/-! ## Edges -/

theorem extends_iff {c : Catalog} {a b : Handle} :
    c.Extends a b ↔ ∃ t, c.typeAt? a = some t ∧ t.parent = some b := by
  simp only [Extends, parent?, Option.bind_eq_some_iff]

theorem consumes_iff {c : Catalog} {a b : Handle} :
    c.Consumes a b ↔ ∃ t, c.typeAt? a = some t ∧ b ∈ t.roles := by
  cases ht : c.typeAt? a <;> simp [Consumes, rolesOf, ht]

theorem parent?_of_entry {c : Catalog} {h : Handle} {t : TypeEntry}
    (ht : c.typeAt? h = some t) : c.parent? h = t.parent := by
  simp [parent?, ht]

theorem rolesOf_of_entry {c : Catalog} {h : Handle} {t : TypeEntry}
    (ht : c.typeAt? h = some t) : c.rolesOf h = t.roles := by
  simp [rolesOf, ht]

theorem Consumes.known_left {c : Catalog} {a b : Handle} (h : c.Consumes a b) : c.Known a := by
  obtain ⟨t, ht, -⟩ := consumes_iff.mp h
  exact known_of_typeAt? ht

theorem Extends.known_left {c : Catalog} {a b : Handle} (h : c.Extends a b) : c.Known a := by
  obtain ⟨t, ht, -⟩ := extends_iff.mp h
  exact known_of_typeAt? ht

theorem Extends.unique {c : Catalog} {a b b' : Handle} (h : c.Extends a b) (h' : c.Extends a b') :
    b = b' :=
  Option.some.inj (h.symm.trans h')

variable {c : Catalog}

theorem WellFormed.known_of_consumes (wf : c.WellFormed) {a b : Handle} (h : c.Consumes a b) :
    c.Known b :=
  known_of_isRole (wf.consumes_role h)

theorem WellFormed.known_of_extends (wf : c.WellFormed) {a b : Handle} (h : c.Extends a b) :
    c.Known b :=
  known_of_isClass (wf.extends_class h).2

theorem WellFormed.grounded (wf : c.WellFormed) : c.Grounded :=
  ⟨wf.known_of_consumes, wf.consumes_acyclic⟩

theorem WellFormed.isRole_of_reaches (wf : c.WellFormed) {a b : Handle}
    (h : ReflTransGen c.Consumes a b) : a = b ∨ c.isRole b := by
  rcases ReflTransGen.cases_tail h with heq | ⟨_, -, hlast⟩
  · exact .inl heq.symm
  · exact .inr (wf.consumes_role hlast)

/-! ## The empty graph -/

theorem wellFormed_of_isEmpty (hempty : c.types = #[]) : c.WellFormed := by
  have hnone (h : Handle) : c.typeAt? h = none := by simp [typeAt?, hempty]
  have hextends {a b : Handle} : ¬ c.Extends a b := by simp [Extends, parent?, hnone]
  have hconsumes {a b : Handle} : ¬ c.Consumes a b := by simp [Consumes, rolesOf, hnone]
  exact {
    handle_eq := fun ht => absurd ht (by simp [hnone])
    extends_class := fun hab => absurd hab hextends
    consumes_role := fun hab => absurd hab hconsumes
    nodup_roles := fun a => by simp [rolesOf, hnone]
    extends_acyclic := fun a hcycle =>
      (TransGen.head'_iff.mp hcycle).elim fun _ h => hextends h.1
    consumes_acyclic := fun a hcycle =>
      (TransGen.head'_iff.mp hcycle).elim fun _ h => hconsumes h.1 }

/-! ## Ranks -/

def handles (c : Catalog) : Finset Handle := (Finset.range c.size).image Handle.mk

theorem mem_handles {h : Handle} : h ∈ c.handles ↔ c.Known h := by
  simp only [handles, Finset.mem_image, Finset.mem_range, Known]
  constructor
  · rintro ⟨i, hi, rfl⟩
    exact hi
  · exact fun hk => ⟨h.index, hk, rfl⟩

theorem card_handles : c.handles.card = c.size := by
  rw [handles, Finset.card_image_of_injective _ (fun i j hij => Handle.mk.inj hij),
    Finset.card_range]

theorem length_le_size {hs : List Handle} (hnodup : hs.Nodup) (hknown : ∀ h ∈ hs, c.Known h) :
    hs.length ≤ c.size := by
  rw [← List.toFinset_card_of_nodup hnodup, ← card_handles]
  apply Finset.card_le_card
  intro h hh
  exact mem_handles.mpr (hknown h (List.mem_toFinset.mp hh))

open Classical in
/-- Edges between known types that never lead back go down a rank below the number of types. The
rank of a type is the number of types that it leads to. -/
theorem exists_rank {E : Handle → Handle → Prop} (hknown : ∀ {a b}, E a b → c.Known b)
    (hacyclic : ∀ a, ¬ TransGen E a a) :
    ∃ rank : Handle → Nat,
      (∀ {a b}, E a b → rank b < rank a) ∧ ∀ {a}, c.Known a → rank a < c.size := by
  let below (a : Handle) : Finset Handle := c.handles.filter (TransGen E a)
  refine ⟨fun a => (below a).card, ?_, ?_⟩
  · intro a b hab
    -- `a` leads to `b` and to all that `b` leads to
    apply Finset.card_lt_card
    rw [Finset.ssubset_iff_of_subset]
    · refine ⟨b, ?_, ?_⟩
      · exact Finset.mem_filter.mpr ⟨mem_handles.mpr (hknown hab), .single hab⟩
      · exact fun hb => hacyclic b (Finset.mem_filter.mp hb).2
    · intro x hx
      obtain ⟨hx, hbx⟩ := Finset.mem_filter.mp hx
      exact Finset.mem_filter.mpr ⟨hx, .head hab hbx⟩
  · intro a ha
    -- a type does not lead to itself
    rw [← card_handles]
    apply Finset.card_lt_card
    rw [Finset.ssubset_iff_of_subset (Finset.filter_subset _ _)]
    exact ⟨a, mem_handles.mpr ha, fun h => hacyclic a (Finset.mem_filter.mp h).2⟩

theorem WellFormed.exists_rank_extends (wf : c.WellFormed) :
    ∃ rank : Handle → Nat,
      (∀ {a b}, c.Extends a b → rank b < rank a) ∧ ∀ {a}, c.Known a → rank a < c.size :=
  exists_rank wf.known_of_extends wf.extends_acyclic

theorem Grounded.exists_rank_consumes (hc : c.Grounded) :
    ∃ rank : Handle → Nat,
      (∀ {a b}, c.Consumes a b → rank b < rank a) ∧ ∀ {a}, c.Known a → rank a < c.size :=
  exists_rank hc.known_of_consumes hc.consumes_acyclic

theorem WellFormed.wellFounded_extends (wf : c.WellFormed) :
    WellFounded fun b a => c.Extends a b := by
  obtain ⟨rank, hrank, -⟩ := wf.exists_rank_extends
  exact Subrelation.wf hrank (measure rank).wf

theorem Grounded.wellFounded_consumes (hc : c.Grounded) :
    WellFounded fun b a => c.Consumes a b := by
  obtain ⟨rank, hrank, -⟩ := hc.exists_rank_consumes
  exact Subrelation.wf hrank (measure rank).wf

end ObjectSystem.Catalog
