import Mathlib.Data.List.Nodup
import Mathlib.Tactic.Tauto
import ObjectSystem.Catalog.Conflict

/-!
# Lists of provisions

A list of provisions is read as a relation: it assigns roles to names (`Provision.Assigns`). Merging
unites the relations, and what is merged has one entry for each name and each role once in it.
-/

namespace ObjectSystem.Provision

def Assigns (l : List Provision) (m : Name) (p : Handle) : Prop :=
  ∃ e ∈ l, e.member = m ∧ p ∈ e.roles

/-- There is one entry for each name, and a role stands in it once. -/
structure Tidy (l : List Provision) : Prop where
  nodup_members : (l.map Provision.member).Nodup
  nodup_roles : ∀ e ∈ l, e.roles.Nodup

variable {l l' : List Provision} {e : Provision} {m : Name} {p q : Handle}

@[simp] theorem assigns_nil : ¬ Assigns [] m p := by
  rintro ⟨e, he, -⟩
  cases he

@[simp] theorem assigns_cons :
    Assigns (e :: l) m p ↔ e.member = m ∧ p ∈ e.roles ∨ Assigns l m p := by
  simp [Assigns]

@[simp] theorem assigns_append : Assigns (l ++ l') m p ↔ Assigns l m p ∨ Assigns l' m p := by
  simp only [Assigns, List.mem_append, or_and_right, exists_or]

/-! ## Merging -/

theorem mem_unite {known more : List Handle} : p ∈ unite known more ↔ p ∈ known ∨ p ∈ more := by
  induction more generalizing known with
  | nil => simp [unite]
  | cons x more ih =>
    rw [unite, List.foldl_cons, ← unite, ih, List.mem_cons]
    by_cases hx : x ∈ known
    · rw [if_pos hx]
      constructor
      · rintro (h | h)
        · exact .inl h
        · exact .inr (.inr h)
      · rintro (h | rfl | h)
        · exact .inl h
        · exact .inl hx
        · exact .inr h
    · rw [if_neg hx, List.mem_append, List.mem_singleton, or_assoc]

theorem nodup_unite {known : List Handle} (hknown : known.Nodup) (more : List Handle) :
    (unite known more).Nodup := by
  induction more generalizing known with
  | nil => exact hknown
  | cons x more ih =>
    rw [unite, List.foldl_cons, ← unite]
    apply ih
    split
    · exact hknown
    · rename_i hx
      exact List.nodup_append.mpr ⟨hknown, List.nodup_singleton x, fun a ha b hb hab =>
        hx (List.mem_singleton.mp hb ▸ hab ▸ ha)⟩

theorem assigns_insert :
    Assigns (insert l e) m p ↔ Assigns l m p ∨ e.member = m ∧ p ∈ e.roles := by
  induction l with
  | nil => simp [insert]
  | cons x l ih =>
    rw [insert]
    split
    · rename_i hx
      rw [assigns_cons, assigns_cons, mem_unite, hx]
      tauto
    · rw [assigns_cons, assigns_cons, ih, or_assoc]

theorem map_member_insert (l : List Provision) (e : Provision) :
    (insert l e).map Provision.member =
      if e.member ∈ l.map Provision.member then l.map Provision.member
      else l.map Provision.member ++ [e.member] := by
  induction l with
  | nil => rfl
  | cons x l ih =>
    rw [insert]
    by_cases hx : x.member = e.member
    · simp [hx]
    · have hx' : e.member ≠ x.member := Ne.symm hx
      rw [if_neg hx, List.map_cons, ih, List.map_cons]
      by_cases hmem : e.member ∈ l.map Provision.member
      · rw [if_pos hmem, if_pos (List.mem_cons_of_mem _ hmem)]
      · have hnew : e.member ∉ x.member :: l.map Provision.member :=
          List.not_mem_cons_of_ne_of_not_mem hx' hmem
        rw [if_neg hmem, if_neg hnew, List.cons_append]

theorem Tidy.nil : Tidy [] := ⟨List.nodup_nil, by simp⟩

theorem Tidy.insert (hl : Tidy l) (he : e.roles.Nodup) : Tidy (insert l e) where
  nodup_members := by
    rw [map_member_insert]
    split
    · exact hl.nodup_members
    · rename_i hnew
      exact List.nodup_append.mpr ⟨hl.nodup_members, List.nodup_singleton _, fun a ha b hb hab =>
        hnew (List.mem_singleton.mp hb ▸ hab ▸ ha)⟩
  nodup_roles := by
    have hroles := hl.nodup_roles
    clear hl
    induction l with
    | nil => simpa [Provision.insert] using he
    | cons x l ih =>
      simp only [List.mem_cons, forall_eq_or_imp] at hroles
      rw [Provision.insert]
      split
      · simp only [List.mem_cons, forall_eq_or_imp]
        exact ⟨nodup_unite hroles.1 _, hroles.2⟩
      · simp only [List.mem_cons, forall_eq_or_imp]
        exact ⟨hroles.1, ih hroles.2⟩

theorem assigns_merge : Assigns (merge l l') m p ↔ Assigns l m p ∨ Assigns l' m p := by
  induction l' generalizing l with
  | nil => simp [merge]
  | cons e l' ih =>
    rw [merge, List.foldl_cons, ← merge, ih, assigns_insert, assigns_cons, or_assoc]

theorem Tidy.merge (hl : Tidy l) (hl' : ∀ e ∈ l', e.roles.Nodup) : Tidy (merge l l') := by
  induction l' generalizing l with
  | nil => exact hl
  | cons e l' ih =>
    simp only [List.mem_cons, forall_eq_or_imp] at hl'
    exact ih (hl.insert hl'.1) hl'.2

/-! ## Several providers of one name -/

theorem Tidy.mem_roles_iff (hl : Tidy l) (he : e ∈ l) : p ∈ e.roles ↔ Assigns l e.member p := by
  constructor
  · exact fun hp => ⟨e, he, rfl, hp⟩
  · rintro ⟨e', he', hmember, hp⟩
    obtain rfl : e' = e := List.inj_on_of_nodup_map hl.nodup_members he' he hmember
    exact hp

theorem one_lt_length_iff {roles : List Handle} (hroles : roles.Nodup) :
    1 < roles.length ↔ ∃ p ∈ roles, ∃ q ∈ roles, p ≠ q := by
  cases roles with
  | nil => simp
  | cons p rest =>
    cases rest with
    | nil => simp
    | cons q rest =>
      simp only [List.nodup_cons, List.mem_cons, not_or] at hroles
      simp only [List.length_cons, Nat.lt_add_left_iff_pos, Nat.zero_lt_succ, true_iff]
      exact ⟨p, by simp, q, by simp, hroles.1.1⟩

end ObjectSystem.Provision
