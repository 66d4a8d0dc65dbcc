import ObjectSystem.Proofs.Graph.Basic

/-!
# The search for roles

`Explores` describes the breadth-first search along consumed roles without a bound: it relates the
types whose roles are still to be visited and the types found so far to the roles that the search
adds. The bounded search of the catalog follows it to the end (`exploreFrom_eq`), because the roles
it adds are different known types.
-/

namespace ObjectSystem.Catalog

open Relation

def freshRoles (c : Catalog) (found : List Handle) (h : Handle) : List Handle :=
  (c.rolesOf h).filter (· ∉ found)

/-- The search that starts with these types pending and these found adds these roles. -/
inductive Explores (c : Catalog) : List Handle → List Handle → List Handle → Prop
  | done (found : List Handle) : Explores c [] found []
  | visit {h : Handle} {pending found added : List Handle}
      (rest : Explores c (pending ++ c.freshRoles found h) (found ++ c.freshRoles found h) added) :
      Explores c (h :: pending) found (c.freshRoles found h ++ added)

inductive ExploresEach (c : Catalog) : List Handle → List Handle → List Handle → Prop
  | done (found : List Handle) : ExploresEach c [] found []
  | next {h : Handle} {hs found first rest : List Handle} (hfirst : Explores c [h] found first)
      (hrest : ExploresEach c hs (found ++ first) rest) :
      ExploresEach c (h :: hs) found (first ++ rest)

variable {c : Catalog} {pending found added : List Handle}

theorem mem_freshRoles {h x : Handle} :
    x ∈ c.freshRoles found h ↔ c.Consumes h x ∧ x ∉ found := by
  simp only [freshRoles, List.mem_filter, Consumes, decide_eq_true_eq]

theorem WellFormed.nodup_freshRoles (wf : c.WellFormed) (found : List Handle) (h : Handle) :
    (c.freshRoles found h).Nodup :=
  (wf.nodup_roles h).filter _

/-! ## The bounded search -/

/-- A bound that admits every visit is not felt. -/
theorem Explores.explore_eq (h : c.Explores pending found added) {fuel : Nat}
    (hfuel : pending.length + added.length ≤ fuel) :
    c.explore fuel pending found = found ++ added := by
  induction h generalizing fuel with
  | done found => cases fuel <;> simp [explore]
  | @visit h pending found added _ ih =>
    simp only [List.length_cons, List.length_append] at hfuel ih
    cases fuel with
    | zero => omega
    | succ fuel =>
      rw [explore, ← freshRoles, ih (by omega), List.append_assoc]

theorem Explores.closed (h : c.Explores pending found added) :
    ∀ y ∈ pending ++ added, ∀ x, c.Consumes y x → x ∈ found ++ added := by
  induction h with
  | done found => simp
  | @visit h pending found added _ ih =>
    intro y hy x hx
    rw [← List.append_assoc]
    rcases List.mem_cons.mp hy with rfl | hy
    · by_cases hfound : x ∈ found
      · exact List.mem_append_left _ (List.mem_append_left _ hfound)
      · exact List.mem_append_left _ (List.mem_append_right _ (mem_freshRoles.mpr ⟨hx, hfound⟩))
    · exact ih y (by rwa [List.append_assoc]) x hx

theorem Explores.reached (h : c.Explores pending found added) :
    ∀ x ∈ added, ∃ p ∈ pending, TransGen c.Consumes p x := by
  induction h with
  | done found => simp
  | @visit h pending found added _ ih =>
    intro x hx
    rcases List.mem_append.mp hx with hx | hx
    · exact ⟨h, List.mem_cons_self, .single (mem_freshRoles.mp hx).1⟩
    · obtain ⟨p, hp, hreach⟩ := ih x hx
      rcases List.mem_append.mp hp with hp | hp
      · exact ⟨p, List.mem_cons_of_mem h hp, hreach⟩
      · exact ⟨h, List.mem_cons_self, .head (mem_freshRoles.mp hp).1 hreach⟩

theorem Explores.nodup (h : c.Explores pending found added) (wf : c.WellFormed) :
    added.Nodup ∧ ∀ x ∈ added, x ∉ found := by
  induction h with
  | done found => simp
  | @visit h pending found added _ ih =>
    obtain ⟨hnodup, hfresh⟩ := ih
    constructor
    · refine List.nodup_append.mpr ⟨wf.nodup_freshRoles found h, hnodup, ?_⟩
      rintro x hx y hy rfl
      exact hfresh x hy (List.mem_append_right found hx)
    · intro x hx
      rcases List.mem_append.mp hx with hx | hx
      · exact (mem_freshRoles.mp hx).2
      · exact fun hfound => hfresh x hx (List.mem_append_left _ hfound)

theorem Explores.known (h : c.Explores pending found added) (wf : c.WellFormed) :
    ∀ x ∈ added, c.Known x := by
  intro x hx
  obtain ⟨p, -, hreach⟩ := h.reached x hx
  obtain ⟨_, -, hlast⟩ := TransGen.tail'_iff.mp hreach
  exact wf.known_of_consumes hlast

def unfound (c : Catalog) (found : List Handle) : Finset Handle := c.handles \ found.toFinset

theorem WellFormed.card_unfound (wf : c.WellFormed) (found : List Handle) (h : Handle) :
    (c.unfound (found ++ c.freshRoles found h)).card + (c.freshRoles found h).length =
      (c.unfound found).card := by
  have hsub : (c.freshRoles found h).toFinset ⊆ c.unfound found := by
    intro x hx
    obtain ⟨hx, hfound⟩ := mem_freshRoles.mp (List.mem_toFinset.mp hx)
    exact Finset.mem_sdiff.mpr ⟨mem_handles.mpr (wf.known_of_consumes hx), by simpa using hfound⟩
  have hsplit : c.unfound (found ++ c.freshRoles found h) =
      c.unfound found \ (c.freshRoles found h).toFinset := by
    rw [unfound, unfound, List.toFinset_append, sdiff_sdiff_left]
    rfl
  rw [hsplit, ← List.toFinset_card_of_nodup (wf.nodup_freshRoles found h)]
  exact Finset.card_sdiff_add_card_eq_card hsub

/-- Every search comes to an end: a visit takes away a pending type, and it adds only as many as it
finds. -/
theorem WellFormed.exists_explores (wf : c.WellFormed) (pending found : List Handle) :
    ∃ added, c.Explores pending found added := by
  -- on the number of visits that are still possible
  induction hn : pending.length + (c.unfound found).card using Nat.strong_induction_on
    generalizing pending found with
  | _ n ih =>
    cases pending with
    | nil => exact ⟨[], .done found⟩
    | cons h pending =>
      have hcard := wf.card_unfound found h
      obtain ⟨added, hrest⟩ := ih _ (by
        simp only [List.length_cons] at hn
        rw [← hn, List.length_append]
        omega) (pending ++ c.freshRoles found h) (found ++ c.freshRoles found h) rfl
      exact ⟨_, .visit hrest⟩

theorem WellFormed.exploreFrom_eq (wf : c.WellFormed) (found : List Handle) (cls : Handle) :
    ∃ added, c.Explores [cls] found added ∧ c.exploreFrom found cls = found ++ added := by
  obtain ⟨added, h⟩ := wf.exists_explores [cls] found
  refine ⟨added, h, h.explore_eq ?_⟩
  have hlength := length_le_size (h.nodup wf).1 (h.known wf)
  simp only [List.length_singleton]
  omega

/-! ## Searches in sequence -/

theorem WellFormed.foldl_exploreFrom_eq (wf : c.WellFormed) (hs found : List Handle) :
    ∃ added, c.ExploresEach hs found added ∧ hs.foldl c.exploreFrom found = found ++ added := by
  induction hs generalizing found with
  | nil => exact ⟨[], .done found, by simp⟩
  | cons h hs ih =>
    obtain ⟨first, hfirst, hfirst_eq⟩ := wf.exploreFrom_eq found h
    obtain ⟨rest, hrest, hrest_eq⟩ := ih (found ++ first)
    refine ⟨first ++ rest, .next hfirst hrest, ?_⟩
    rw [List.foldl_cons, hfirst_eq, hrest_eq, List.append_assoc]

variable {hs : List Handle}

theorem ExploresEach.closed (h : c.ExploresEach hs found added) :
    ∀ y ∈ hs ++ added, ∀ x, c.Consumes y x → x ∈ found ++ added := by
  induction h with
  | done found => simp
  | @next h hs found first rest hfirst _ ih =>
    intro y hy x hx
    rw [← List.append_assoc]
    have hold : y ∈ [h] ++ first → x ∈ found ++ first ++ rest := fun hy =>
      List.mem_append_left rest (hfirst.closed y hy x hx)
    have hnew : y ∈ hs ++ rest → x ∈ found ++ first ++ rest := fun hy => ih y hy x hx
    simp only [List.mem_append, List.mem_cons, List.not_mem_nil, or_false] at hy hold hnew ⊢
    tauto

theorem ExploresEach.reached (h : c.ExploresEach hs found added) :
    ∀ x ∈ added, ∃ k ∈ hs, TransGen c.Consumes k x := by
  induction h with
  | done found => simp
  | @next h hs found first rest hfirst _ ih =>
    intro x hx
    rcases List.mem_append.mp hx with hx | hx
    · obtain ⟨p, hp, hreach⟩ := hfirst.reached x hx
      exact ⟨h, List.mem_cons_self, List.mem_singleton.mp hp ▸ hreach⟩
    · obtain ⟨k, hk, hreach⟩ := ih x hx
      exact ⟨k, List.mem_cons_of_mem h hk, hreach⟩

theorem ExploresEach.nodup (h : c.ExploresEach hs found added) (wf : c.WellFormed) :
    added.Nodup ∧ ∀ x ∈ added, x ∉ found := by
  induction h with
  | done found => simp
  | @next h hs found first rest hfirst _ ih =>
    obtain ⟨hnodup_first, hfresh_first⟩ := hfirst.nodup wf
    obtain ⟨hnodup_rest, hfresh_rest⟩ := ih
    constructor
    · refine List.nodup_append.mpr ⟨hnodup_first, hnodup_rest, ?_⟩
      rintro x hx y hy rfl
      exact hfresh_rest x hy (List.mem_append_right found hx)
    · intro x hx
      rcases List.mem_append.mp hx with hx | hx
      · exact hfresh_first x hx
      · exact fun hfound => hfresh_rest x hx (List.mem_append_left first hfound)

/-! ## Searches in two catalogs -/

variable {d : Catalog}

/-- A search takes the same course where the types it visits consume the same roles. -/
theorem Explores.transport (h : c.Explores pending found added)
    (hroles : ∀ y ∈ pending ++ added, d.rolesOf y = c.rolesOf y) :
    d.Explores pending found added := by
  induction h with
  | done found => exact .done found
  | @visit h pending found added _ ih =>
    have hfresh : c.freshRoles found h = d.freshRoles found h := by
      rw [freshRoles, freshRoles, hroles h (by simp)]
    rw [hfresh] at ih hroles ⊢
    apply Explores.visit
    apply ih
    intro y hy
    apply hroles
    simp only [List.mem_append, List.mem_cons] at hy ⊢
    tauto

theorem ExploresEach.transport (h : c.ExploresEach hs found added)
    (hroles : ∀ y ∈ hs ++ added, d.rolesOf y = c.rolesOf y) : d.ExploresEach hs found added := by
  induction h with
  | done found => exact .done found
  | @next h hs found first rest hfirst _ ih =>
    refine .next (hfirst.transport fun y hy => hroles y ?_) (ih fun y hy => hroles y ?_)
    all_goals
      simp only [List.mem_append, List.mem_cons, List.not_mem_nil, or_false] at hy ⊢
      tauto

theorem Explores.unique {added' : List Handle} (h : c.Explores pending found added)
    (h' : c.Explores pending found added') : added = added' := by
  have heq := h.explore_eq (Nat.le_max_left _ (pending.length + added'.length))
  rw [h'.explore_eq (Nat.le_max_right _ _)] at heq
  exact (List.append_cancel_left heq).symm

theorem ExploresEach.unique {added' : List Handle} (h : c.ExploresEach hs found added)
    (h' : c.ExploresEach hs found added') : added = added' := by
  induction h generalizing added' with
  | done => cases h' with | done => rfl
  | next hfirst _ ih =>
    cases h' with
    | next hfirst' hrest' =>
      obtain rfl := hfirst.unique hfirst'
      rw [ih hrest']

end ObjectSystem.Catalog
