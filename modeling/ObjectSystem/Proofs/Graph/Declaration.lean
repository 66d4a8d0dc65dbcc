import ObjectSystem.Proofs.Graph.Updates

/-!
# Types that are declared

A new type comes last. Nothing that was declared before changes or has an edge to it, so the graph
stays well-formed when the parent of the new type is a class.
-/

namespace ObjectSystem.Catalog

open Relation

/-- The second catalog has one more type, at the end. -/
def Appends (c : Catalog) (t : TypeEntry) (d : Catalog) : Prop := d.types = c.types.push t

theorem appends_push (c : Catalog) (t : TypeEntry) (symbols : SymbolTable) :
    c.Appends t (c.push t symbols) := rfl

theorem appends_pushAnonymous (c : Catalog) (t : TypeEntry) : c.Appends t (c.pushAnonymous t) := rfl

theorem not_known_nextHandle (c : Catalog) : ¬ c.Known c.nextHandle := by
  simp only [Known, nextHandle, size]
  exact Nat.lt_irrefl _

namespace Appends

variable {c d : Catalog} {t : TypeEntry}

theorem size_eq (hd : c.Appends t d) : d.size = c.size + 1 := by
  rw [size, hd, Array.size_push, size]

theorem typeAt?_eq (hd : c.Appends t d) (h : Handle) :
    d.typeAt? h = if h = c.nextHandle then some t else c.typeAt? h := by
  obtain ⟨i⟩ := h
  rw [typeAt?, hd]
  simp only [typeAt?, nextHandle, Array.getElem?_push, Handle.mk.injEq]

theorem typeAt?_new (hd : c.Appends t d) : d.typeAt? c.nextHandle = some t := by
  rw [hd.typeAt?_eq, if_pos rfl]

theorem typeAt?_old (hd : c.Appends t d) {h : Handle} (hk : c.Known h) :
    d.typeAt? h = c.typeAt? h := by
  rw [hd.typeAt?_eq, if_neg]
  rintro rfl
  exact not_known_nextHandle c hk

theorem known_iff (hd : c.Appends t d) {h : Handle} :
    d.Known h ↔ c.Known h ∨ h = c.nextHandle := by
  obtain ⟨i⟩ := h
  have hsize := hd.size_eq
  simp only [Known, nextHandle, size, Handle.mk.injEq] at hsize ⊢
  omega

theorem extends_iff (hd : c.Appends t d) {a b : Handle} :
    d.Extends a b ↔ c.Extends a b ∨ a = c.nextHandle ∧ t.parent = some b := by
  by_cases ha : a = c.nextHandle
  · subst ha
    have hold : ¬ c.Extends c.nextHandle b := fun h => not_known_nextHandle c h.known_left
    rw [Extends, parent?_of_entry hd.typeAt?_new]
    simp [hold]
  · rw [Extends, parent?, hd.typeAt?_eq, if_neg ha, ← parent?, ← Extends]
    simp [ha]

theorem consumes_iff (hd : c.Appends t d) {a b : Handle} :
    d.Consumes a b ↔ c.Consumes a b ∨ a = c.nextHandle ∧ b ∈ t.roles := by
  by_cases ha : a = c.nextHandle
  · subst ha
    have hold : ¬ c.Consumes c.nextHandle b := fun h => not_known_nextHandle c h.known_left
    rw [Consumes, rolesOf_of_entry hd.typeAt?_new]
    simp [hold]
  · rw [Consumes, rolesOf, hd.typeAt?_eq, if_neg ha, ← rolesOf, ← Consumes]
    simp [ha]

theorem isClass_of_isClass (hd : c.Appends t d) {h : Handle} (hc : c.isClass h) : d.isClass h := by
  rwa [isClass, hd.typeAt?_old (known_of_isClass hc)]

theorem isRole_of_isRole (hd : c.Appends t d) {h : Handle} (hr : c.isRole h) : d.isRole h := by
  rwa [isRole, hd.typeAt?_old (known_of_isRole hr)]

theorem declares_old (hd : c.Appends t d) {h : Handle} (hk : c.Known h) (name : Name) :
    d.declares h name = c.declares h name := by
  rw [declares, hd.typeAt?_old hk, declares]

theorem consumes_eq (hd : c.Appends t d) (hroles : t.roles = []) : d.Consumes = c.Consumes := by
  funext a b
  rw [hd.consumes_iff, hroles]
  simp

theorem extends_acyclic (hd : c.Appends t d) (wf : c.WellFormed)
    (hparent : ∀ p, t.parent = some p → c.isClass p) (a : Handle) : ¬ TransGen d.Extends a a := by
  cases hp : t.parent with
  | none =>
    have heq : d.Extends = c.Extends := by
      funext a b
      rw [hd.extends_iff, hp]
      simp
    rw [heq]
    exact wf.extends_acyclic a
  | some p =>
    have heq : d.Extends = fun a b => c.Extends a b ∨ a = c.nextHandle ∧ b = p := by
      funext a b
      rw [hd.extends_iff, hp]
      simp [eq_comm]
    rw [heq]
    apply not_transGen_insert wf.extends_acyclic
    intro hback
    -- nothing leads to a type that is yet to be declared
    rcases ReflTransGen.cases_tail hback with heq | ⟨_, -, hlast⟩
    · exact not_known_nextHandle c (heq ▸ known_of_isClass (hparent p hp))
    · exact not_known_nextHandle c (wf.known_of_extends hlast)

theorem wellFormed (hd : c.Appends t d) (wf : c.WellFormed) (hhandle : t.handle = c.nextHandle)
    (hroles : t.roles = []) (hclass : ∀ p, t.parent = some p → t.isClass)
    (hparent : ∀ p, t.parent = some p → c.isClass p) : d.WellFormed where
  handle_eq {h u} hu := by
    rw [hd.typeAt?_eq] at hu
    split at hu
    · cases hu
      rw [hhandle, ‹h = _›]
    · exact wf.handle_eq hu
  extends_class {a b} hab := by
    rcases hd.extends_iff.mp hab with hab | ⟨rfl, hp⟩
    · obtain ⟨ha, hb⟩ := wf.extends_class hab
      exact ⟨hd.isClass_of_isClass ha, hd.isClass_of_isClass hb⟩
    · rw [isClass_of_entry hd.typeAt?_new]
      exact ⟨hclass b hp, hd.isClass_of_isClass (hparent b hp)⟩
  consumes_role {a b} hab := by
    rw [hd.consumes_eq hroles] at hab
    exact hd.isRole_of_isRole (wf.consumes_role hab)
  nodup_roles a := by
    rw [rolesOf, hd.typeAt?_eq]
    split
    · simp [hroles]
    · exact wf.nodup_roles a
  extends_acyclic := hd.extends_acyclic wf hparent
  consumes_acyclic := by
    rw [hd.consumes_eq hroles]
    exact wf.consumes_acyclic

end Appends

end ObjectSystem.Catalog
