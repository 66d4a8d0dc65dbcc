import ObjectSystem.Proofs.Interning.History
import ObjectSystem.Proofs.Run.Editing
import ObjectSystem.Proofs.Sealing.Seals

/-!
# Names along runs

Strings are only added to the interner of a registry, also by an edit that fails and by a scratch
copy that is dropped. The names of types come from it, so they go on standing for the strings that
they were given for. Those of members need not: they are whatever an edit was given.
-/

namespace ObjectSystem

namespace Registry

open Catalog

variable {r s : Registry}

structure Named (r : Registry) : Prop where
  empty : r.names.Issued .empty
  type : ∀ {h t}, r.typeAt? h = some t → r.names.Issued t.name

/-- The second registry has the settings of the first one and knows its strings. -/
structure Succeeds (r s : Registry) : Prop where
  config_eq : s.config = r.config
  grows : r.names.Grows s.names

namespace Succeeds

theorem refl (r : Registry) : Succeeds r r := ⟨rfl, .refl _⟩

theorem trans {t : Registry} (hrs : Succeeds r s) (hst : Succeeds s t) : Succeeds r t :=
  ⟨hst.config_eq.trans hrs.config_eq, hrs.grows.trans hst.grows⟩

theorem of_names_eq (hconfig : s.config = r.config) (hnames : s.names = r.names) : Succeeds r s :=
  ⟨hconfig, hnames ▸ .refl _⟩

end Succeeds

theorem Step.succeeds (h : Step r s) : Succeeds r s := by
  cases h with
  | intern t => exact ⟨rfl, r.names.grows_intern t⟩
  | declare _ _ _ _ hnext =>
    obtain ⟨hnames, hconfig, -⟩ := place_eq_ok hnext
    exact .of_names_eq hconfig hnames
  | extend => exact .of_names_eq rfl rfl
  | consume => exact .of_names_eq rfl rfl
  | addMember => exact .of_names_eq rfl rfl
  | sealType type => exact .of_names_eq (config_sealEach _ _) rfl
  | sealAll => exact .of_names_eq rfl rfl

theorem Step.sorted (h : Step r s) (hr : r.names.Sorted) : s.names.Sorted := by
  cases h with
  | intern t => exact hr.intern t
  | declare _ _ _ _ hnext => exact (place_eq_ok hnext).1 ▸ hr
  | _ => exact hr

theorem Evolves.succeeds (h : Evolves r s) : Succeeds r s :=
  h.respects .refl .trans Step.succeeds fun hrs => ⟨rfl, hrs.grows⟩

namespace Named

theorem grows (hr : r.Named) {names : Interner} (hgrows : r.names.Grows names) :
    Named { r with names } where
  empty := hgrows.issued hr.empty
  type ht := hgrows.issued (hr.type ht)

theorem of_agree {next : Catalog} (hr : r.Named) (hnames : Agree TypeEntry.name r.toCatalog next) :
    Named { r with toCatalog := next } where
  empty := hr.empty
  type ht := by
    obtain ⟨u, hu, heq⟩ := hnames.exists_entry ht
    exact heq ▸ hr.type hu

theorem append {t : TypeEntry} (hr : r.Named) (hs : r.Appends t s.toCatalog)
    (hnames : s.names = r.names) (htype : r.names.Issued t.name) : s.Named where
  empty := hnames ▸ hr.empty
  type hu := by
    rw [hs.typeAt?_eq] at hu
    rw [hnames]
    split at hu
    · cases hu
      exact htype
    · exact hr.type hu

end Named

theorem Step.named (h : Step r s) (hr : r.Named) : s.Named := by
  cases h with
  | intern t => exact hr.grows (r.names.grows_intern t)
  | declare hname _ _ _ hnext =>
    obtain ⟨hnames, -, happends⟩ := place_eq_ok hnext
    exact hr.append happends hnames (hname.issued hr.empty)
  | extend => exact hr.of_agree (agree_addParent fun t => TypeEntry.name_withParent t _)
  | consume => exact hr.of_agree (agree_addRole fun _ => rfl)
  | addMember => exact hr.of_agree (.modify fun _ => rfl)
  | sealType type => exact hr.of_agree ((seals_sealType r.toCatalog type).agree fun _ => rfl)
  | sealAll => exact hr.of_agree ((seals_sealAll r.toCatalog).agree fun _ => rfl)

theorem Evolves.named (h : Evolves r s) (hr : r.Named) : s.Named := by
  induction h with
  | refl => exact hr
  | tail _ hstep ih => exact hstep.named (ih hr)
  | rollBack _ hscratch ih _ => exact (ih hr).grows hscratch.succeeds.grows

theorem Reachable.sorted (h : Reachable r) : r.names.Sorted := by
  obtain ⟨config, strings, hrun⟩ := h
  have hsorted := hrun.evolves.respects (R := fun r s => r.names.Sorted → s.names.Sorted)
    (fun _ => id) (fun hrs hst hr => hst (hrs hr)) Step.sorted fun hrs => hrs
  exact hsorted (Interner.sorted_ofStrings strings)

theorem Reachable.named (h : Reachable r) : r.Named := by
  obtain ⟨config, strings, hrun⟩ := h
  apply hrun.evolves.named
  exact {
    empty := (Interner.grows_ofStrings_append [] strings).issued Interner.issued_empty
    type := fun ht => absurd ht (by simp [new, typeAt?]) }

end Registry

end ObjectSystem
