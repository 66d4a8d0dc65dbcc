import ObjectSystem.Proofs.Conflict.Provision
import ObjectSystem.Proofs.Linearization.Lineage

/-!
# Providers

`Provides` says which role stands behind a name that another role provides, and `Offers` does so for
the roles that a type consumes itself. The provisions that the catalog computes list exactly these
(`assigns_provisions`, `assigns_consumedProvisions`), so that a class has no conflict when any two
roles that offer it the same name are one, or its lineage declares the name
(`conflicts_eq_nil_iff`).
-/

namespace ObjectSystem

open Provision

namespace Catalog

/-- The first role provides the name, by the member of the second one: what a role declares itself
hides what the roles it consumes provide. -/
inductive Provides (c : Catalog) (m : Name) : Handle → Handle → Prop
  | own {r : Handle} (h : c.declares r m) : Provides c m r r
  | consumed {r s p : Handle} (h : c.declares r m = false) (hrs : c.Consumes r s)
      (hp : Provides c m s p) : Provides c m r p

/-- A role that the type consumes itself provides the name, by the member of this role. -/
def Offers (c : Catalog) (m : Name) (type p : Handle) : Prop :=
  ∃ r, c.Consumes type r ∧ c.Provides m r p

/-- Any two roles that offer a name to the type are one, unless its lineage declares the name. -/
def ConflictFree (c : Catalog) (type : Handle) : Prop :=
  ∀ m p q, c.Offers m type p → c.Offers m type q → p = q ∨ c.settles type m

variable {c : Catalog} {m : Name} {r p : Handle}

theorem provides_iff :
    c.Provides m r p ↔ c.declares r m ∧ p = r ∨ c.declares r m = false ∧ c.Offers m r p := by
  constructor
  · intro h
    cases h with
    | own h => exact .inl ⟨h, rfl⟩
    | consumed h hrs hp => exact .inr ⟨h, _, hrs, hp⟩
  · rintro (⟨h, rfl⟩ | ⟨h, s, hrs, hp⟩)
    · exact .own h
    · exact .consumed h hrs hp

theorem Provides.declares (h : c.Provides m r p) : c.declares p m := by
  induction h with
  | own h => exact h
  | consumed _ _ _ ih => exact ih

theorem Offers.declares {type : Handle} (h : c.Offers m type p) : c.declares p m := by
  obtain ⟨r, -, hp⟩ := h
  exact hp.declares

/-! ## Uniting what several roles provide -/

variable {provided other : Handle → List Provision} {roles : List Handle}

theorem assigns_united :
    Assigns (united provided roles) m p ↔ ∃ r ∈ roles, Assigns (provided r) m p := by
  have hfrom : ∀ known, Assigns (roles.foldl (fun known r => merge known (provided r)) known) m p ↔
      Assigns known m p ∨ ∃ r ∈ roles, Assigns (provided r) m p := by
    induction roles with
    | nil => simp
    | cons r rest ih =>
      intro known
      rw [List.foldl_cons, ih, assigns_merge, or_assoc]
      simp only [List.mem_cons, exists_eq_or_imp]
  rw [united, hfrom []]
  simp only [assigns_nil, false_or]

theorem tidy_united (hprovided : ∀ r, ∀ e ∈ provided r, e.roles.Nodup) :
    Tidy (united provided roles) := by
  have hfrom : ∀ known, Tidy known →
      Tidy (roles.foldl (fun known r => merge known (provided r)) known) := by
    induction roles with
    | nil => exact fun known hknown => hknown
    | cons r rest ih => exact fun known hknown => ih _ (hknown.merge (hprovided r))
  exact hfrom [] .nil

theorem united_congr (h : ∀ r ∈ roles, provided r = other r) :
    united provided roles = united other roles := by
  apply List.foldl_ext
  intro known r hr
  rw [h r hr]

theorem assigns_provisionsFrom :
    Assigns (c.provisionsFrom provided r) m p ↔
      c.declares r m ∧ p = r ∨
        c.declares r m = false ∧ ∃ s, c.Consumes r s ∧ Assigns (provided s) m p := by
  cases ht : c.typeAt? r with
  | none => simp [provisionsFrom, Catalog.declares, Consumes, rolesOf, ht]
  | some t =>
    have hown : Assigns (t.members.map fun m => ⟨m.name, [r]⟩) m p ↔ t.declares m ∧ p = r := by
      simp only [Assigns, List.mem_map, TypeEntry.declares_eq_any, List.any_eq_true, beq_iff_eq]
      constructor
      · rintro ⟨_, ⟨x, hx, rfl⟩, hname, hp⟩
        exact ⟨⟨x, hx, hname⟩, List.mem_singleton.mp hp⟩
      · rintro ⟨⟨x, hx, hname⟩, rfl⟩
        exact ⟨_, ⟨x, hx, rfl⟩, hname, List.mem_singleton_self p⟩
    have hothers : Assigns ((united provided t.roles).filter fun e => !t.declares e.member) m p ↔
        t.declares m = false ∧ ∃ s ∈ t.roles, Assigns (provided s) m p := by
      rw [← assigns_united]
      simp only [Assigns, List.mem_filter, Bool.not_eq_true']
      constructor
      · rintro ⟨e, ⟨he, hhidden⟩, rfl, hp⟩
        exact ⟨hhidden, e, he, rfl, hp⟩
      · rintro ⟨hhidden, e, he, rfl, hp⟩
        exact ⟨e, ⟨he, hhidden⟩, rfl, hp⟩
    simp only [provisionsFrom, ht, assigns_append, hown, hothers, Catalog.declares,
      Consumes, rolesOf_of_entry ht]
    rfl

/-! ## The bound of the recursion -/

theorem provisionsFrom_congr (h : ∀ s, c.Consumes r s → provided s = other s) :
    c.provisionsFrom provided r = c.provisionsFrom other r := by
  cases ht : c.typeAt? r with
  | none => simp only [provisionsFrom, ht]
  | some t =>
    have hunited : united provided t.roles = united other t.roles := by
      apply united_congr
      intro s hs
      exact h s (consumes_iff.mpr ⟨t, ht, hs⟩)
    simp only [provisionsFrom, ht, hunited]

theorem provisionsWithin_succ {rank : Handle → Nat}
    (hrank : ∀ {a b}, c.Consumes a b → rank b < rank a) {fuel : Nat} (hfuel : rank r < fuel) :
    c.provisionsWithin (fuel + 1) r = c.provisionsWithin fuel r := by
  induction fuel generalizing r with
  | zero => exact absurd hfuel (Nat.not_lt_zero _)
  | succ fuel ih =>
    rw [provisionsWithin, provisionsWithin]
    apply provisionsFrom_congr
    intro s hrs
    have hlt := hrank hrs
    exact ih (by omega)

theorem provisionsWithin_of_unknown (hk : ¬ c.Known r) (fuel : Nat) :
    c.provisionsWithin fuel r = [] := by
  cases fuel with
  | zero => rfl
  | succ fuel => simp only [provisionsWithin, provisionsFrom, typeAt?_eq_none hk]

/-- The recursion ends by itself: from the number of types on, the bound does not matter. -/
theorem Grounded.provisionsWithin_eq (hc : c.Grounded) {fuel : Nat} (hfuel : c.size ≤ fuel)
    (r : Handle) : c.provisionsWithin fuel r = c.provisions r := by
  by_cases hk : c.Known r
  · obtain ⟨rank, hrank, hbound⟩ := hc.exists_rank_consumes
    have hr := hbound hk
    induction fuel, hfuel using Nat.le_induction with
    | base => rfl
    | succ fuel hfuel ih => rw [provisionsWithin_succ hrank (hr.trans_le hfuel), ih]
  · rw [provisions, provisionsWithin_of_unknown hk, provisionsWithin_of_unknown hk]

theorem Grounded.provisions_eq (hc : c.Grounded) (r : Handle) :
    c.provisions r = c.provisionsFrom c.provisions r := by
  rw [← hc.provisionsWithin_eq (Nat.le_succ c.size) r]
  rfl

/-! ## What the catalog computes -/

theorem Grounded.assigns_provisions (hc : c.Grounded) :
    Assigns (c.provisions r) m p ↔ c.Provides m r p := by
  induction r using hc.wellFounded_consumes.induction with
  | _ r ih =>
    rw [hc.provisions_eq, assigns_provisionsFrom, provides_iff]
    refine or_congr Iff.rfl (and_congr Iff.rfl ?_)
    exact exists_congr fun s => and_congr_right fun hrs => ih s hrs

theorem nodup_roles_provisionsWithin (fuel : Nat) (r : Handle) :
    ∀ e ∈ c.provisionsWithin fuel r, e.roles.Nodup := by
  induction fuel generalizing r with
  | zero => simp [provisionsWithin]
  | succ fuel ih =>
    intro e he
    rw [provisionsWithin, provisionsFrom] at he
    cases ht : c.typeAt? r with
    | none => simp [ht] at he
    | some t =>
      simp only [ht, List.mem_append, List.mem_map] at he
      rcases he with ⟨x, -, rfl⟩ | he
      · exact List.nodup_singleton r
      · exact (tidy_united ih).nodup_roles e (List.mem_of_mem_filter he)

theorem tidy_consumedProvisions (type : Handle) : Tidy (c.consumedProvisions type) :=
  tidy_united fun r => nodup_roles_provisionsWithin c.size r

theorem Grounded.assigns_consumedProvisions (hc : c.Grounded) {type : Handle} :
    Assigns (c.consumedProvisions type) m p ↔ c.Offers m type p := by
  rw [consumedProvisions, assigns_united]
  exact exists_congr fun r => and_congr_right fun _ => hc.assigns_provisions

theorem Grounded.mem_roles_iff (hc : c.Grounded) {type : Handle} {e : Provision}
    (he : e ∈ c.consumedProvisions type) : p ∈ e.roles ↔ c.Offers e.member type p := by
  rw [(tidy_consumedProvisions type).mem_roles_iff he, hc.assigns_consumedProvisions]

theorem conflicts_sublist (type : Handle) :
    (c.conflicts type).Sublist (c.consumedProvisions type) := by
  rw [conflicts]
  split
  · exact List.filter_sublist
  · exact List.nil_sublist _

theorem mem_conflicts_iff {type : Handle} (hclass : c.isClass type) {e : Provision} :
    e ∈ c.conflicts type ↔ e ∈ c.consumedProvisions type ∧
      (∃ p ∈ e.roles, ∃ q ∈ e.roles, p ≠ q) ∧ c.settles type e.member = false := by
  rw [conflicts, if_pos hclass, List.mem_filter, Bool.and_eq_true, decide_eq_true_eq,
    Bool.not_eq_true']
  refine and_congr_right fun he => and_congr_left fun _ => ?_
  exact one_lt_length_iff ((tidy_consumedProvisions type).nodup_roles e he)

/-- A class has no conflict exactly when every name is offered to it by one role or settled. -/
theorem WellFormed.conflicts_eq_nil_iff (wf : c.WellFormed) {type : Handle}
    (hclass : c.isClass type) : c.conflicts type = [] ↔ c.ConflictFree type := by
  have hroles {e : Provision} (he : e ∈ c.consumedProvisions type) {x : Handle} :
      x ∈ e.roles ↔ c.Offers e.member type x := wf.grounded.mem_roles_iff he
  rw [List.eq_nil_iff_forall_not_mem]
  constructor
  · intro hnone m p q hp hq
    obtain ⟨e, he, rfl, -⟩ := wf.grounded.assigns_consumedProvisions.mpr hp
    by_contra hboth
    obtain ⟨hne, hsettles⟩ := not_or.mp hboth
    have hmany : ∃ p ∈ e.roles, ∃ q ∈ e.roles, p ≠ q :=
      ⟨p, (hroles he).mpr hp, q, (hroles he).mpr hq, hne⟩
    have hopen := Bool.eq_false_of_not_eq_true hsettles
    exact hnone e ((mem_conflicts_iff hclass).mpr ⟨he, hmany, hopen⟩)
  · intro hfree e hconflict
    obtain ⟨he, ⟨p, hp, q, hq, hne⟩, hopen⟩ := (mem_conflicts_iff hclass).mp hconflict
    rcases hfree e.member p q ((hroles he).mp hp) ((hroles he).mp hq) with heq | hsettles
    · exact hne heq
    · exact Bool.false_ne_true (hopen.symm.trans hsettles)

theorem conflicts_of_not_isClass {type : Handle} (h : ¬ c.isClass type) :
    c.conflicts type = [] := by
  rw [conflicts, if_neg h]

theorem WellFormed.settles_iff (wf : c.WellFormed) {type : Handle} :
    c.settles type m ↔
      ∃ k, c.Known type ∧ Relation.ReflTransGen c.Extends type k ∧ c.declares k m := by
  simp only [settles, List.any_eq_true, wf.mem_lineage, and_assoc]

end Catalog

end ObjectSystem
