import ObjectSystem.Proofs.Conflict.Provider
import ObjectSystem.Proofs.Linearization.FirstOccurrences

/-!
# The order of providers

The roles behind a name are listed in the order of a depth-first search: each consumed role is
followed down to the roles that declare the name before the next one is looked at, and a role that
is met again is not listed again (`roles_eq_definersBelow`). The resolution order is breadth-first,
so the two may list the same roles in different orders.
-/

namespace ObjectSystem

open Provision

namespace Provision

def listed (l : List Provision) (m : Name) : List Handle :=
  (l.filter (·.member = m)).flatMap Provision.roles

variable {l l' : List Provision} {e : Provision} {m : Name}

theorem listed_cons :
    listed (e :: l) m = (if e.member = m then e.roles else []) ++ listed l m := by
  by_cases hm : e.member = m <;> simp [listed, hm]

theorem listed_append : listed (l ++ l') m = listed l m ++ listed l' m := by
  simp only [listed, List.filter_append, List.flatMap_append]

theorem listed_eq_nil (h : m ∉ l.map Provision.member) : listed l m = [] := by
  have hnone : l.filter (·.member = m) = [] := by
    simpa [List.filter_eq_nil_iff] using h
  rw [listed, hnone, List.flatMap_nil]

/-- In a tidy list the roles of a name are those of its one entry, in their order. -/
theorem Tidy.listed_eq (hl : Tidy l) (he : e ∈ l) : listed l e.member = e.roles := by
  have hnodup := hl.nodup_members
  clear hl
  induction l with
  | nil => cases he
  | cons x l ih =>
    obtain ⟨hx, hnodup⟩ := List.nodup_cons.mp hnodup
    rw [listed_cons]
    rcases List.mem_cons.mp he with rfl | he
    · rw [if_pos rfl, listed_eq_nil hx, List.append_nil]
    · have hne : x.member ≠ e.member := fun heq => hx (heq ▸ List.mem_map_of_mem he)
      rw [if_neg hne, List.nil_append, ih he hnodup]

/-! ## Merging keeps the order -/

theorem eraseDups_unite (known more : List Handle) :
    (unite known more).eraseDups = (known ++ more).eraseDups := by
  induction more generalizing known with
  | nil => rw [unite, List.foldl_nil, List.append_nil]
  | cons x more ih =>
    have hhead : (if x ∈ known then known else known ++ [x]).eraseDups =
        (known ++ [x]).eraseDups := by
      by_cases hx : x ∈ known <;> simp [eraseDups_concat, hx]
    rw [unite, List.foldl_cons, ← unite, ih, eraseDups_append_congr hhead rfl, List.append_assoc,
      List.singleton_append]

theorem listed_insert (hl : (l.map Provision.member).Nodup) :
    (listed (insert l e) m).eraseDups =
      (listed l m ++ if e.member = m then e.roles else []).eraseDups := by
  induction l with
  | nil => rw [insert, listed_cons, listed, List.filter_nil, List.flatMap_nil, List.append_nil,
      List.nil_append]
  | cons x l ih =>
    obtain ⟨hx, hl⟩ := List.nodup_cons.mp hl
    rw [insert]
    by_cases hsame : x.member = e.member
    · rw [if_pos hsame, listed_cons, listed_cons]
      by_cases hm : x.member = m
      · have hrest : listed l m = [] := listed_eq_nil (hm ▸ hx)
        simp only [hm, ← hsame, if_true, hrest, List.append_nil, eraseDups_unite]
      · simp only [hm, ← hsame, if_false, List.nil_append, List.append_nil]
    · rw [if_neg hsame, listed_cons, listed_cons, List.append_assoc]
      exact eraseDups_append_congr rfl (ih hl)

theorem listed_merge (hl : Tidy l) (hl' : ∀ e ∈ l', e.roles.Nodup) :
    (listed (merge l l') m).eraseDups = (listed l m ++ listed l' m).eraseDups := by
  induction l' generalizing l with
  | nil => simp only [merge, List.foldl_nil, listed, List.filter_nil, List.flatMap_nil,
      List.append_nil]
  | cons e l' ih =>
    simp only [List.mem_cons, forall_eq_or_imp] at hl'
    rw [merge, List.foldl_cons, ← merge, ih (hl.insert hl'.1) hl'.2, listed_cons,
      ← List.append_assoc]
    exact eraseDups_append_congr (listed_insert hl.nodup_members) rfl

end Provision

namespace Catalog

variable {c : Catalog} {m : Name} {r k : Handle} {provided : Handle → List Provision}
  {roles : List Handle}

/-- The roles that declare a name nearest to a role, depth first, through at most `fuel` levels:
the role itself if it declares the name, and otherwise those of each role that it consumes. -/
def definersWithin (c : Catalog) (m : Name) : Nat → Handle → List Handle
  | 0, _ => []
  | fuel + 1, r =>
    if c.declares r m then [r] else (c.rolesOf r).flatMap (c.definersWithin m fuel)

def definersFrom (c : Catalog) (m : Name) (r : Handle) : List Handle :=
  c.definersWithin m c.size r

def definersBelow (c : Catalog) (m : Name) (type : Handle) : List Handle :=
  ((c.rolesOf type).flatMap (c.definersFrom m)).eraseDups

theorem listed_united (hprovided : ∀ r, ∀ e ∈ provided r, e.roles.Nodup) :
    (listed (united provided roles) m).eraseDups =
      (roles.flatMap fun r => listed (provided r) m).eraseDups := by
  have hfrom : ∀ known, Tidy known →
      (listed (roles.foldl (fun known r => merge known (provided r)) known) m).eraseDups =
        (listed known m ++ roles.flatMap fun r => listed (provided r) m).eraseDups := by
    induction roles with
    | nil => exact fun known _ => by rw [List.foldl_nil, List.flatMap_nil, List.append_nil]
    | cons r rest ih =>
      intro known hknown
      rw [List.foldl_cons, ih _ (hknown.merge (hprovided r)), List.flatMap_cons,
        ← List.append_assoc]
      exact eraseDups_append_congr (listed_merge hknown (hprovided r)) rfl
  exact hfrom [] .nil

theorem listed_own (members : List Member) :
    (listed (members.map fun x => ⟨x.name, [r]⟩) m).eraseDups =
      if members.any (·.name == m) then [r] else [] := by
  induction members with
  | nil => rfl
  | cons x members ih =>
    rw [List.map_cons, listed_cons, List.any_cons]
    by_cases hx : x.name = m
    · have hrest : ∀ y ∈ listed (members.map fun x => ⟨x.name, [r]⟩) m, y = r := by
        simp only [listed, List.mem_flatMap, List.mem_filter, List.mem_map]
        rintro y ⟨_, ⟨⟨_, _, rfl⟩, -⟩, hy⟩
        exact List.mem_singleton.mp hy
      have hnone : (listed (members.map fun x => ⟨x.name, [r]⟩) m).filter (· ∉ [r]) = [] := by
        simpa [List.filter_eq_nil_iff] using hrest
      rw [if_pos hx, eraseDups_append_filter, hnone, eraseDups_of_nodup (List.nodup_singleton r)]
      simp [hx]
    · simp [hx, ih]

theorem listed_provisionsFrom (hprovided : ∀ r, ∀ e ∈ provided r, e.roles.Nodup) :
    (listed (c.provisionsFrom provided r) m).eraseDups =
      (if c.declares r m then [r] else
        (c.rolesOf r).flatMap fun s => listed (provided s) m).eraseDups := by
  cases ht : c.typeAt? r with
  | none => simp [provisionsFrom, Catalog.declares, rolesOf, ht, listed]
  | some t =>
    have hothers : listed ((united provided t.roles).filter fun p => !t.declares p.member) m =
        if t.declares m then [] else listed (united provided t.roles) m := by
      rw [listed, List.filter_filter]
      split
      · rename_i hdeclares
        have hnone : (united provided t.roles).filter
            (fun p => decide (p.member = m) && !t.declares p.member) = [] := by
          rw [List.filter_eq_nil_iff]
          rintro p - hp
          obtain ⟨rfl, hsilent⟩ := by simpa using hp
          simp [hdeclares] at hsilent
        rw [hnone, List.flatMap_nil]
      · rename_i hsilent
        congr 1
        refine List.filter_congr fun p _ => ?_
        by_cases hp : p.member = m
        · simp [hp, hsilent]
        · simp [hp]
    have hown : c.declares r m = t.members.any (·.name == m) := by
      simp only [Catalog.declares, ht, Option.any_some, TypeEntry.declares_eq_any]
    have hentry : c.declares r m = t.declares m := by
      simp only [Catalog.declares, ht, Option.any_some]
    rw [provisionsFrom, rolesOf_of_entry ht]
    simp only [ht]
    rw [listed_append, hothers, ← hentry]
    by_cases hd : c.declares r m
    · rw [if_pos hd, if_pos hd, List.append_nil, listed_own, ← hown, if_pos hd]
      rfl
    · have hnone : listed (t.members.map fun x => ⟨x.name, [r]⟩) m = [] := by
        apply listed_eq_nil
        simpa [hown, List.any_eq_true] using hd
      rw [if_neg hd, if_neg hd, hnone, List.nil_append, listed_united hprovided]

theorem listed_provisionsWithin (fuel : Nat) (r : Handle) :
    (listed (c.provisionsWithin fuel r) m).eraseDups =
      (c.definersWithin m fuel r).eraseDups := by
  induction fuel generalizing r with
  | zero => rfl
  | succ fuel ih =>
    rw [provisionsWithin, listed_provisionsFrom (nodup_roles_provisionsWithin fuel),
      definersWithin]
    split
    · rfl
    · exact eraseDups_flatMap_congr fun s _ => ih s

/-- The roles behind a name are listed depth first. -/
theorem roles_eq_definersBelow {e : Provision} (he : e ∈ c.consumedProvisions k) :
    e.roles = c.definersBelow e.member k := by
  have htidy : Tidy (c.consumedProvisions k) := tidy_consumedProvisions k
  have hprovided : ∀ r, ∀ p ∈ c.provisions r, p.roles.Nodup := nodup_roles_provisionsWithin c.size
  rw [← eraseDups_of_nodup (htidy.nodup_roles e he), ← htidy.listed_eq he, consumedProvisions,
    listed_united hprovided, definersBelow]
  exact eraseDups_flatMap_congr fun r _ => listed_provisionsWithin c.size r

/-! ## The bound of the search -/

theorem definersWithin_succ {rank : Handle → Nat}
    (hrank : ∀ {a b}, c.Consumes a b → rank b < rank a) {fuel : Nat} (hfuel : rank r < fuel) :
    c.definersWithin m (fuel + 1) r = c.definersWithin m fuel r := by
  induction fuel generalizing r with
  | zero => exact absurd hfuel (Nat.not_lt_zero _)
  | succ fuel ih =>
    rw [definersWithin, definersWithin]
    congr 1
    refine List.flatMap_congr fun s hs => ?_
    have hlt : rank s < rank r := hrank hs
    exact ih (by omega)

theorem Grounded.definersFrom_eq (hc : c.Grounded) (r : Handle) :
    c.definersFrom m r =
      if c.declares r m then [r] else (c.rolesOf r).flatMap (c.definersFrom m) := by
  by_cases hk : c.Known r
  · obtain ⟨rank, hrank, hbound⟩ := hc.exists_rank_consumes
    rw [definersFrom, ← definersWithin_succ hrank (hbound hk)]
    rfl
  · have hentry := typeAt?_eq_none hk
    have hdeclares : c.declares r m = false := by simp only [declares, hentry, Option.any_none]
    have hroles : c.rolesOf r = [] := by
      simp only [rolesOf, hentry, Option.map_none, Option.getD_none]
    rw [hdeclares, hroles, definersFrom]
    cases c.size with
    | zero => rfl
    | succ n =>
      rw [definersWithin, hdeclares, hroles]
      rfl

end Catalog

end ObjectSystem
