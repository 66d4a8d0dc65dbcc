import ObjectSystem.Proofs.Graph.Declaration
import ObjectSystem.Proofs.Linearization.Retention
import ObjectSystem.Proofs.Sealing.Seals

/-!
# Sealed types

An edit looks only at the seal of the type that it writes to. That a sealed type does not change
through the types it depends on rests on two facts: what a sealed type extends or consumes is sealed
(`SealClosed`), and sealed types are left as they are (`KeepsSealed`). Both together keep the
resolution order of a sealed type and everything that is read off along it.
-/

namespace ObjectSystem.Catalog

structure SealClosed (c : Catalog) : Prop where
  parent : ∀ {a b}, c.isSealed a → c.Extends a b → c.isSealed b
  role : ∀ {a b}, c.isSealed a → c.Consumes a b → c.isSealed b

/-- Sealed types are in the second catalog what they are in the first. -/
def KeepsSealed (c d : Catalog) : Prop :=
  ∀ h, c.isSealed h → d.typeAt? h = c.typeAt? h

variable {c d e : Catalog} {h k x type : Handle}

theorem isSealed_iff : c.isSealed h ↔ ∃ t, c.typeAt? h = some t ∧ t.isSealed := by
  simp only [isSealed, Option.any_eq_true]

theorem known_of_isSealed (hs : c.isSealed h) : c.Known h := by
  obtain ⟨t, ht, -⟩ := isSealed_iff.mp hs
  exact known_of_typeAt? ht

theorem not_isSealed_of_isOpen (ho : c.isOpen h) : ¬ c.isSealed h := by
  simp only [isOpen, isSealed, Option.any_eq_true] at ho ⊢
  rintro ⟨t, ht, hsealed⟩
  obtain ⟨u, hu, hopen⟩ := ho
  obtain rfl := Option.some.inj (ht.symm.trans hu)
  simp [hsealed] at hopen

theorem SealClosed.isSealed_of_mem_resolutionOrder (hc : c.SealClosed) (wf : c.WellFormed)
    (hh : c.isSealed h) (hx : x ∈ c.resolutionOrder h) : c.isSealed x :=
  wf.forall_mem_resolutionOrder (P := (c.isSealed ·)) hc.parent hc.role hh hx

/-! ## Keeping sealed types -/

namespace KeepsSealed

theorem isSealed (hcd : c.KeepsSealed d) (hh : c.isSealed h) : d.isSealed h := by
  rwa [Catalog.isSealed, hcd h hh]

theorem parent?_eq (hcd : c.KeepsSealed d) (hh : c.isSealed h) : d.parent? h = c.parent? h := by
  rw [parent?, hcd h hh, parent?]

theorem rolesOf_eq (hcd : c.KeepsSealed d) (hh : c.isSealed h) : d.rolesOf h = c.rolesOf h := by
  rw [rolesOf, hcd h hh, rolesOf]

theorem refl (c : Catalog) : c.KeepsSealed c := fun _ _ => rfl

theorem trans (hcd : c.KeepsSealed d) (hde : d.KeepsSealed e) : c.KeepsSealed e :=
  fun h hh => (hde h (hcd.isSealed hh)).trans (hcd h hh)

theorem modify {f : TypeEntry → TypeEntry} (hopen : c.isOpen type) :
    c.KeepsSealed (c.modify type f) := by
  intro h hh
  apply typeAt?_modify_of_ne
  rintro rfl
  exact not_isSealed_of_isOpen hopen hh

end KeepsSealed

theorem Appends.keepsSealed {t : TypeEntry} (hd : c.Appends t d) : c.KeepsSealed d :=
  fun _ hh => hd.typeAt?_old (known_of_isSealed hh)

theorem Seals.keepsSealed (hcd : Seals c d) : c.KeepsSealed d := by
  intro h hh
  obtain ⟨t, ht, hsealed⟩ := isSealed_iff.mp hh
  rcases hcd.typeAt?_eq h with heq | heq
  · exact heq
  · have hself : t.asSealed = t := by rw [TypeEntry.asSealed, ← hsealed]
    rw [heq, ht, Option.map_some, hself]

/-! ## Keeping the seals closed -/

namespace SealClosed

/-- Edges of sealed types are old ones if sealed types are kept and no type becomes sealed. -/
theorem of_keepsSealed (hc : c.SealClosed) (hcd : c.KeepsSealed d)
    (hold : ∀ {h}, d.isSealed h → c.isSealed h) : d.SealClosed where
  parent {a b} ha hab := by
    rw [Extends, hcd.parent?_eq (hold ha)] at hab
    exact hcd.isSealed (hc.parent (hold ha) hab)
  role {a b} ha hab := by
    rw [Consumes, hcd.rolesOf_eq (hold ha)] at hab
    exact hcd.isSealed (hc.role (hold ha) hab)

theorem modify {f : TypeEntry → TypeEntry} (hc : c.SealClosed) (hopen : c.isOpen type)
    (hf : ∀ t, (f t).isSealed = t.isSealed) : (c.modify type f).SealClosed := by
  apply hc.of_keepsSealed (KeepsSealed.modify hopen)
  intro h hh
  have hagree : Agree TypeEntry.isSealed c (c.modify type f) := .modify hf
  have heq : (c.modify type f).isSealed h = c.isSealed h := hagree.any_eq id h
  rwa [← heq]

theorem append {t : TypeEntry} (hc : c.SealClosed) (hd : c.Appends t d)
    (ht : t.isSealed = false) : d.SealClosed := by
  apply hc.of_keepsSealed hd.keepsSealed
  intro h hh
  rw [isSealed, hd.typeAt?_eq] at hh
  split at hh
  · simp [ht] at hh
  · exact hh

end SealClosed

theorem isSealed_sealType (c : Catalog) (type h : Handle) :
    (c.sealType type).isSealed h ↔ c.isSealed h ∨ c.Known h ∧ h ∈ c.resolutionOrder type := by
  rw [isSealed, sealType, typeAt?_sealEach, isSealed, known_iff_isSome]
  cases c.typeAt? h with
  | none => simp
  | some t => by_cases hmem : h ∈ c.resolutionOrder type <;> simp [hmem, TypeEntry.asSealed]

theorem SealClosed.sealType (hc : c.SealClosed) (wf : c.WellFormed) (type : Handle) :
    (c.sealType type).SealClosed where
  parent {a b} ha hab := by
    rw [(seals_sealType c type).sameGraph.extends_eq] at hab
    rw [isSealed_sealType] at ha ⊢
    rcases ha with ha | ⟨-, hmem⟩
    · exact .inl (hc.parent ha hab)
    · -- only classes extend, so the type stands in the lineage
      obtain ⟨k, hk, hka⟩ := wf.mem_resolutionOrder.mp hmem
      have hclass := (wf.extends_class hab).1
      obtain rfl : k = a := (wf.isRole_of_reaches hka).resolve_right fun hrole =>
        not_isClass_of_isRole hrole hclass
      obtain ⟨htype, hpath⟩ := wf.mem_lineage.mp hk
      have hb : b ∈ c.lineage type := wf.mem_lineage.mpr ⟨htype, hpath.tail hab⟩
      exact .inr ⟨wf.known_of_extends hab, wf.mem_resolutionOrder.mpr ⟨b, hb, .refl⟩⟩
  role {a b} ha hab := by
    rw [(seals_sealType c type).sameGraph.consumes_eq] at hab
    rw [isSealed_sealType] at ha ⊢
    rcases ha with ha | ⟨-, hmem⟩
    · exact .inl (hc.role ha hab)
    · exact .inr ⟨wf.known_of_consumes hab, wf.resolutionOrder_closed hmem hab⟩

theorem isSealed_sealAll (c : Catalog) (h : Handle) : c.sealAll.isSealed h ↔ c.Known h := by
  rw [isSealed, typeAt?_sealAll, known_iff_isSome]
  cases c.typeAt? h <;> simp [TypeEntry.asSealed]

theorem sealClosed_sealAll (wf : c.WellFormed) : c.sealAll.SealClosed where
  parent {a b} _ hab := by
    rw [(seals_sealAll c).sameGraph.extends_eq] at hab
    exact (isSealed_sealAll c b).mpr (wf.known_of_extends hab)
  role {a b} _ hab := by
    rw [(seals_sealAll c).sameGraph.consumes_eq] at hab
    exact (isSealed_sealAll c b).mpr (wf.known_of_consumes hab)

/-! ## What is read off a sealed type -/

/-- The second catalog is a later one in which sealed types are kept. -/
structure Later (c d : Catalog) : Prop where
  wellFormed : c.WellFormed
  sealClosed : c.SealClosed
  wellFormed' : d.WellFormed
  keepsSealed : c.KeepsSealed d

namespace Later

variable {m : Name}

theorem retains (hcd : c.Later d) : Retains (c.isSealed ·) c d where
  wellFormed := hcd.wellFormed
  wellFormed' := hcd.wellFormed'
  known := known_of_isSealed
  parent := hcd.sealClosed.parent
  role := hcd.sealClosed.role
  typeAt?_eq hh := hcd.keepsSealed _ hh

theorem lineage_eq (hcd : c.Later d) (hh : c.isSealed h) : d.lineage h = c.lineage h :=
  hcd.retains.lineage_eq hh

theorem resolutionOrder_eq (hcd : c.Later d) (hh : c.isSealed h) :
    d.resolutionOrder h = c.resolutionOrder h :=
  hcd.retains.resolutionOrder_eq hh

theorem membersInForce_eq (hcd : c.Later d) (hh : c.isSealed h) :
    d.membersInForce h = c.membersInForce h :=
  hcd.retains.membersInForce_eq hh

theorem inForce?_eq (hcd : c.Later d) (hh : c.isSealed h) : d.inForce? h m = c.inForce? h m :=
  hcd.retains.inForce?_eq hh

theorem isA_eq (hcd : c.Later d) (hh : c.isSealed h) (target : Handle) :
    d.isA h target = c.isA h target :=
  hcd.retains.isA_eq hh target

theorem does_eq (hcd : c.Later d) (hh : c.isSealed h) (target : Handle) :
    d.does h target = c.does h target :=
  hcd.retains.does_eq hh target

end Later

end ObjectSystem.Catalog
