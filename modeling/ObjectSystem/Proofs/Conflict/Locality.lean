import ObjectSystem.Proofs.Conflict.Provider
import ObjectSystem.Proofs.Registry.Change
import ObjectSystem.Proofs.Sealing.Seals

/-!
# Where conflicts can arise

Whether a class has a conflict depends on the roles that it reaches and on what its lineage
declares. So it stays free of conflicts when what it reaches is left alone and its lineage loses no
declaration (`ConflictFree.transfer`), and an edit of one type can only bring a conflict to the
classes that the check after the edit goes through (`conflictFree_of_checked`).
-/

namespace ObjectSystem.Catalog

open Relation

variable {c d : Catalog} {m : Name} {r p k type : Handle}

/-- The graph is well-formed and no class has a conflict. -/
structure Settled (c : Catalog) : Prop where
  wellFormed : c.WellFormed
  conflictFree : ∀ k, c.isClass k → c.ConflictFree k

/-! ## Changes that a class does not notice -/

theorem Provides.transfer (h : d.Provides m r p)
    (hsame : ∀ x, ReflTransGen c.Consumes r x →
      d.rolesOf x = c.rolesOf x ∧ d.declares x m = c.declares x m) : c.Provides m r p := by
  induction h with
  | @own r hr =>
    rw [(hsame r .refl).2] at hr
    exact .own hr
  | @consumed r s p hr hrs _ ih =>
    obtain ⟨hroles, hdeclares⟩ := hsame r .refl
    rw [hdeclares] at hr
    have hedge : c.Consumes r s := by rwa [Consumes, ← hroles]
    exact .consumed hr hedge (ih fun x hx => hsame x (hx.head hedge))

theorem ConflictFree.transfer (hfree : c.ConflictFree k) (hroles : d.rolesOf k = c.rolesOf k)
    (hsame : ∀ x, TransGen c.Consumes k x →
      d.rolesOf x = c.rolesOf x ∧ ∀ m, d.declares x m = c.declares x m)
    (hsettles : ∀ m, c.settles k m → d.settles k m) : d.ConflictFree k := by
  intro m p q hp hq
  have hoffers : ∀ x, d.Offers m k x → c.Offers m k x := by
    rintro x ⟨r, hkr, hx⟩
    have hedge : c.Consumes k r := by rwa [Consumes, ← hroles]
    refine ⟨r, hedge, hx.transfer fun y hy => ?_⟩
    obtain ⟨hy_roles, hy_declares⟩ := hsame y (.head' hedge hy)
    exact ⟨hy_roles, hy_declares m⟩
  exact (hfree m p q (hoffers p hp) (hoffers q hq)).imp_right (hsettles m)

theorem WellFormed.settles_mono (wf : c.WellFormed) (wf' : d.WellFormed)
    (hextends : ∀ {a b}, c.Extends a b → d.Extends a b) (hknown : c.Known k → d.Known k)
    (hdeclares : ∀ h, c.declares h m → d.declares h m) (h : c.settles k m) : d.settles k m := by
  obtain ⟨j, hk, hkj, hj⟩ := wf.settles_iff.mp h
  exact wf'.settles_iff.mpr ⟨j, hknown hk, ReflTransGen.mono (fun _ _ => hextends) k j hkj,
    hdeclares j hj⟩

theorem Settled.of_agree (hc : c.Settled) (wf' : d.WellFormed) (hkind : Agree (·.form.kind) c d)
    (hroles : Agree TypeEntry.roles c d) (hmembers : Agree TypeEntry.members c d)
    (hextends : ∀ {a b}, c.Extends a b → d.Extends a b) : d.Settled := by
  refine ⟨wf', fun k hk => ?_⟩
  rw [hkind.isClass_eq] at hk
  refine (hc.conflictFree k hk).transfer (hroles.rolesOf_eq k)
    (fun x _ => ⟨hroles.rolesOf_eq x, hmembers.declares_eq x⟩) fun m => ?_
  refine hc.wellFormed.settles_mono wf' hextends hkind.known_iff.mpr fun h hdeclares => ?_
  rwa [hmembers.declares_eq]

theorem Appends.conflictFree {t : TypeEntry} (hd : c.Appends t d) (wf : c.WellFormed)
    (wf' : d.WellFormed) (hroles : t.roles = []) (hfree : c.isClass k → c.ConflictFree k)
    (hk : d.isClass k) : d.ConflictFree k := by
  rcases hd.known_iff.mp (known_of_isClass hk) with hold | rfl
  · have hclass : c.isClass k := by rwa [isClass, ← hd.typeAt?_old hold]
    refine (hfree hclass).transfer ?_ ?_ ?_
    · rw [rolesOf, hd.typeAt?_old hold, rolesOf]
    · intro x hx
      obtain ⟨_, -, hlast⟩ := TransGen.tail'_iff.mp hx
      have hx_known := wf.known_of_consumes hlast
      exact ⟨by rw [rolesOf, hd.typeAt?_old hx_known, rolesOf], hd.declares_old hx_known⟩
    · intro m
      refine wf.settles_mono wf' (fun hab => hd.extends_iff.mpr (.inl hab))
        (fun hk => hd.known_iff.mpr (.inl hk)) fun h hh => ?_
      rwa [hd.declares_old (known_of_declares hh)]
  · rintro m p q ⟨r, hr, -⟩
    rw [Consumes, rolesOf_of_entry hd.typeAt?_new, hroles] at hr
    cases hr

theorem settled_of_isEmpty (hempty : c.types = #[]) : c.Settled := by
  refine ⟨wellFormed_of_isEmpty hempty, fun k hk => ?_⟩
  simp [isClass, typeAt?, hempty] at hk

/-! ## The check after an edit -/

theorem WellFormed.mem_affectedClasses (wf : c.WellFormed) :
    k ∈ c.affectedClasses type ↔
      if c.isClass type then k = type else c.isClass k ∧ type ∈ c.reachableRoles k := by
  rw [affectedClasses]
  split
  · exact List.mem_singleton
  · simp only [List.mem_map, List.mem_filter, Bool.and_eq_true, decide_eq_true_eq]
    constructor
    · rintro ⟨t, ⟨ht, hclass, hreach⟩, rfl⟩
      exact ⟨isClass_iff.mpr ⟨t, wf.mem_types_iff.mp ht, hclass⟩, hreach⟩
    · rintro ⟨hclass, hreach⟩
      obtain ⟨t, ht, hentry⟩ := isClass_iff.mp hclass
      obtain rfl := wf.handle_eq ht
      exact ⟨t, ⟨wf.mem_types_iff.mpr ht, hentry, hreach⟩, rfl⟩

theorem conflicts_of_firstConflict?_eq_none (h : c.firstConflict? type = none)
    (hk : k ∈ c.affectedClasses type) : c.conflicts k = [] := by
  have hnone := List.findSome?_eq_none_iff.mp h k hk
  simpa using hnone

/-- If one type is changed, which consumes and declares no less than before, and the check after the
change finds no conflict, there is none. -/
theorem conflictFree_of_checked (wf : c.WellFormed) (wf' : d.WellFormed)
    (hkind : Agree (·.form.kind) c d) (hparent : Agree TypeEntry.parent c d)
    (hrest : ∀ h, h ≠ type → d.typeAt? h = c.typeAt? h)
    (hconsumes : ∀ {a b}, c.Consumes a b → d.Consumes a b)
    (hdeclares : ∀ h m, c.declares h m → d.declares h m) (hchecked : d.firstConflict? type = none)
    (hfree : ∀ k, c.isClass k → c.ConflictFree k) (hk : d.isClass k) : d.ConflictFree k := by
  by_cases haffected : k ∈ d.affectedClasses type
  · -- the check has looked at the class
    rw [← wf'.conflicts_eq_nil_iff hk]
    exact conflicts_of_firstConflict?_eq_none hchecked haffected
  · -- neither is the class the changed type, nor does it reach it
    rw [wf'.mem_affectedClasses] at haffected
    have hne : k ≠ type := by
      rintro rfl
      simp [hk] at haffected
    have hunreached : ∀ x, TransGen c.Consumes k x → x ≠ type := by
      rintro x hx rfl
      obtain ⟨_, -, hlast⟩ := TransGen.tail'_iff.mp hx
      have hrole : d.isRole x := by
        rw [hkind.isRole_eq]
        exact wf.consumes_role hlast
      have hreach : ReflTransGen d.Consumes k x :=
        ReflTransGen.mono (fun _ _ => hconsumes) k x hx.to_reflTransGen
      rw [if_neg (not_isClass_of_isRole hrole)] at haffected
      exact haffected ⟨hk, wf'.mem_reachableRoles_of_isClass hk hrole hreach⟩
    have hclass : c.isClass k := by rwa [← hkind.isClass_eq]
    refine (hfree k hclass).transfer ?_ ?_ ?_
    · rw [rolesOf, hrest k hne, rolesOf]
    · intro x hx
      have heq := hrest x (hunreached x hx)
      exact ⟨by rw [rolesOf, heq, rolesOf], fun m => by rw [declares, heq, declares]⟩
    · intro m
      refine wf.settles_mono wf' (fun hab => ?_) hkind.known_iff.mpr fun h => hdeclares h m
      rwa [Extends, hparent.parent?_eq]

/-! ## What edits leave settled -/

namespace Settled

theorem append {t : TypeEntry} (hc : c.Settled) (hd : c.Appends t d) (hroles : t.roles = [])
    (wf' : d.WellFormed) : d.Settled :=
  ⟨wf', fun k => hd.conflictFree hc.wellFormed wf' hroles (hc.conflictFree k)⟩

theorem addParent {parent : Handle} (hc : c.Settled) (h : c.MayExtend type parent) :
    (c.addParent type parent).Settled :=
  hc.of_agree (h.wellFormed hc.wellFormed)
    (agree_addParent fun t => TypeEntry.kind_withParent t parent)
    (agree_addParent fun t => TypeEntry.roles_withParent t parent)
    (agree_addParent fun t => TypeEntry.members_withParent t parent)
    fun hab => (extends_addParent h.isClass h.parent?_eq).mpr (.inl hab)

theorem addRole {role : Handle} (hc : c.Settled) (h : c.MayConsume type role)
    (hchecked : (c.addRole type role).firstConflict? type = none) :
    (c.addRole type role).Settled := by
  have wf' := h.wellFormed hc.wellFormed
  have hmembers : Agree TypeEntry.members c (c.addRole type role) := agree_addRole fun _ => rfl
  refine ⟨wf', fun k hk => conflictFree_of_checked hc.wellFormed wf' (agree_addRole fun _ => rfl)
    (agree_addRole fun _ => rfl) (fun h hne => typeAt?_modify_of_ne hne.symm) (fun hab => ?_)
    (fun h m hdeclares => ?_) hchecked hc.conflictFree hk⟩
  · exact (consumes_addRole (known_of_isOpen h.isOpen)).mpr (.inl hab)
  · rwa [hmembers.declares_eq]

theorem addMember {m : Member} (hc : c.Settled) (hopen : c.isOpen type)
    (hchecked : (c.addMember type m).firstConflict? type = none) :
    (c.addMember type m).Settled := by
  have hsame : SameGraph c (c.addMember type m) := sameGraph_addMember
  have wf' := hsame.wellFormed hc.wellFormed
  refine ⟨wf', fun k hk => conflictFree_of_checked hc.wellFormed wf' hsame.kind hsame.parent
    (fun h hne => typeAt?_modify_of_ne hne.symm) (fun hab => ?_) (fun h name hdeclares => ?_)
    hchecked hc.conflictFree hk⟩
  · rwa [hsame.consumes_eq]
  · rw [declares_addMember (known_of_isOpen hopen), hdeclares, Bool.true_or]

theorem of_seals (hc : c.Settled) (h : Seals c d) : d.Settled := by
  apply hc.of_agree (h.sameGraph.wellFormed hc.wellFormed) h.sameGraph.kind h.sameGraph.roles
    (h.agree fun _ => rfl)
  intro a b hab
  rwa [h.sameGraph.extends_eq]

end Settled

end ObjectSystem.Catalog
