import ObjectSystem.Proofs.Linearization.FirstOccurrences
import ObjectSystem.Proofs.Linearization.Order

/-!
# Levels

The roles that a type reaches can be listed level by level: those it consumes, those that these
consume, and so on, each where it occurs first (`breadthFirst`). The resolution order is the lineage
followed by such a listing for each type of it, less what has been listed for an earlier one
(`WellFormed.resolutionOrder_eq_listEach`). Its searches have one queue and pass over everything
that any of them has found; since the roles found are closed under consumption, what they pass over
leads to nothing new.
-/

namespace ObjectSystem.Catalog

open Relation

/-- A level and those that follow on it, up to a number of levels, one after another: each next one
is made of the roles that those of the level before consume. -/
def levels (c : Catalog) : Nat → List Handle → List Handle
  | 0, _ => []
  | depth + 1, level => level ++ c.levels depth (level.flatMap c.rolesOf)

/-- The roles that a type reaches, level by level, each at its first occurrence. There are not more
levels than types. -/
def breadthFirst (c : Catalog) (h : Handle) : List Handle :=
  (c.levels c.size (c.rolesOf h)).eraseDups

/-- For one type after another, the roles that it reaches and that have not been listed. -/
def listEach (c : Catalog) : List Handle → List Handle → List Handle
  | _, [] => []
  | listed, k :: ks =>
    let new := (c.breadthFirst k).filter (· ∉ listed)
    new ++ c.listEach (listed ++ new) ks

variable {c : Catalog} {rank : Handle → Nat} {level pending found added : List Handle}

/-! ## The end of the levels -/

theorem levels_nil (c : Catalog) (depth : Nat) : c.levels depth [] = [] := by
  induction depth with
  | zero => rfl
  | succ depth ih => rw [levels, List.flatMap_nil, ih, List.append_nil]

theorem rank_lt_of_mem_nextLevel (hrank : ∀ {a b}, c.Consumes a b → rank b < rank a) {depth : Nat}
    (hlevel : ∀ x ∈ level, rank x < depth + 1) : ∀ x ∈ level.flatMap c.rolesOf, rank x < depth := by
  intro x hx
  obtain ⟨y, hy, hyx⟩ := List.mem_flatMap.mp hx
  have hlt := hrank hyx
  have hbound := hlevel y hy
  omega

theorem eq_nil_of_rank_lt_zero (hlevel : ∀ x ∈ level, rank x < 0) : level = [] :=
  List.eq_nil_iff_forall_not_mem.mpr fun x hx => absurd (hlevel x hx) (Nat.not_lt_zero _)

theorem levels_eq_of_le (hrank : ∀ {a b}, c.Consumes a b → rank b < rank a) {depth more : Nat}
    (hlevel : ∀ x ∈ level, rank x < depth) (hle : depth ≤ more) :
    c.levels more level = c.levels depth level := by
  induction depth generalizing level more with
  | zero => rw [eq_nil_of_rank_lt_zero hlevel, levels_nil, levels_nil]
  | succ depth ih =>
    obtain ⟨more, rfl⟩ : ∃ n, more = n + 1 := ⟨more - 1, by omega⟩
    rw [levels, levels, ih (rank_lt_of_mem_nextLevel hrank hlevel) (Nat.le_of_succ_le_succ hle)]

theorem WellFormed.rank_lt_size (wf : c.WellFormed) {h : Handle}
    (hbound : ∀ {a}, c.Known a → rank a < c.size) : ∀ x ∈ c.rolesOf h, rank x < c.size :=
  fun _ hx => hbound (wf.known_of_consumes hx)

theorem WellFormed.levels_eq (wf : c.WellFormed) {depth : Nat} (hdepth : c.size ≤ depth)
    (h : Handle) : c.levels depth (c.rolesOf h) = c.levels c.size (c.rolesOf h) := by
  obtain ⟨rank, hrank, hbound⟩ := wf.grounded.exists_rank_consumes
  exact levels_eq_of_le hrank (wf.rank_lt_size hbound) hdepth

/-! ## A search goes level by level -/

/-- What is consumed on a level and has not been found, each role at its first occurrence. -/
def freshLevel (c : Catalog) (found level : List Handle) : List Handle :=
  ((level.flatMap c.rolesOf).filter (· ∉ found)).eraseDups

theorem WellFormed.freshLevel_cons (wf : c.WellFormed) (found : List Handle) (h : Handle)
    (level : List Handle) :
    c.freshLevel found (h :: level) =
      c.freshRoles found h ++ c.freshLevel (found ++ c.freshRoles found h) level := by
  have hfresh : (c.rolesOf h).filter (· ∉ found) = c.freshRoles found h := rfl
  rw [freshLevel, List.flatMap_cons, List.filter_append, eraseDups_append_filter, hfresh,
    eraseDups_of_nodup (wf.nodup_freshRoles found h), List.filter_filter, freshLevel]
  simp only [List.mem_append, not_or, Bool.decide_and, Bool.and_comm]

theorem Explores.visitLevel (wf : c.WellFormed)
    (h : c.Explores (level ++ pending) found added) :
    ∃ rest, added = c.freshLevel found level ++ rest ∧
      c.Explores (pending ++ c.freshLevel found level) (found ++ c.freshLevel found level)
        rest := by
  induction level generalizing pending found added with
  | nil => exact ⟨added, rfl, by simpa [freshLevel] using h⟩
  | cons k level ih =>
    rw [List.cons_append] at h
    cases h with
    | @visit _ _ _ added hrest =>
      rw [List.append_assoc] at hrest
      obtain ⟨rest, rfl, hexplores⟩ := ih hrest
      refine ⟨rest, ?_, ?_⟩
      · rw [wf.freshLevel_cons, List.append_assoc]
      · rwa [wf.freshLevel_cons, ← List.append_assoc, ← List.append_assoc]

/-- A level may be thinned out before the next one is made of it: what has been found leads to what
has been found, and what is repeated leads to the same again. -/
theorem freshLevel_eraseDups_filter {later : List Handle}
    (hclosed : ∀ y ∈ level, y ∈ found → ∀ x, c.Consumes y x → x ∈ later) :
    c.freshLevel later ((level.filter (· ∉ found)).eraseDups) = c.freshLevel later level := by
  let lead (y : Handle) : List Handle := (c.rolesOf y).filter (· ∉ later)
  have hlead (l : List Handle) : c.freshLevel later l = (l.flatMap lead).eraseDups := by
    rw [freshLevel, List.filter_flatMap]
  rw [hlead, hlead, eraseDups_flatMap_eraseDups]
  congr 1
  induction level with
  | nil => rfl
  | cons y level ih =>
    have hrest := ih fun z hz => hclosed z (List.mem_cons_of_mem y hz)
    by_cases hy : y ∈ found
    · have hnone : lead y = [] := by
        rw [List.filter_eq_nil_iff]
        intro x hx
        simpa using hclosed y List.mem_cons_self hy x hx
      rw [List.filter_cons_of_neg (by simpa using hy), hrest, List.flatMap_cons, hnone,
        List.nil_append]
    · rw [List.filter_cons_of_pos (by simpa using hy), List.flatMap_cons, hrest, List.flatMap_cons]

/-- The search from a level lists what is new of the levels. It starts with what is new of the level
itself; roles found before lead to roles that are found. -/
theorem Explores.eq_levels (wf : c.WellFormed) (hrank : ∀ {a b}, c.Consumes a b → rank b < rank a)
    {depth : Nat} (hlevel : ∀ x ∈ level, c.isRole x ∧ rank x < depth)
    (hclosed : ∀ y ∈ found, c.isRole y → ∀ x, c.Consumes y x → x ∈ found ∨ x ∈ level)
    (h : c.Explores ((level.filter (· ∉ found)).eraseDups)
      (found ++ (level.filter (· ∉ found)).eraseDups) added) :
    (level.filter (· ∉ found)).eraseDups ++ added =
      ((c.levels depth level).filter (· ∉ found)).eraseDups := by
  -- on the levels that are left
  induction depth generalizing level found added with
  | zero =>
    obtain rfl := eq_nil_of_rank_lt_zero fun x hx => (hlevel x hx).2
    cases h with
    | done => rfl
  | succ depth ih =>
    generalize hfresh : (level.filter (· ∉ found)).eraseDups = fresh at h ⊢
    have hmem_fresh (x : Handle) : x ∈ fresh ↔ x ∈ level ∧ x ∉ found := by
      rw [← hfresh, List.mem_eraseDups, List.mem_filter, decide_eq_true_eq]
    have hclosed' : ∀ y ∈ level, y ∈ found → ∀ x, c.Consumes y x → x ∈ found ++ fresh := by
      intro y hy hfound x hx
      rw [List.mem_append, hmem_fresh]
      have hx' := hclosed y hfound (hlevel y hy).1 x hx
      tauto
    have hthin : c.freshLevel (found ++ fresh) fresh = c.freshLevel (found ++ fresh) level := by
      rw [← hfresh]
      exact freshLevel_eraseDups_filter (hfresh ▸ hclosed')
    rw [← List.append_nil fresh] at h
    obtain ⟨rest, rfl, hrest⟩ := h.visitLevel wf
    rw [List.append_nil, List.nil_append, hthin] at hrest
    have hranks := rank_lt_of_mem_nextLevel hrank fun y hy => (hlevel y hy).2
    have hnext := ih (fun x hx => ⟨?_, hranks x hx⟩) (fun y hy hrole x hx => ?_) hrest
    · rw [List.append_nil, hthin, freshLevel, hnext, levels, List.filter_append,
        eraseDups_append_filter, hfresh, List.filter_filter]
      congr 2
      refine List.filter_congr fun x _ => ?_
      rw [Bool.eq_iff_iff]
      simp only [List.mem_append, List.mem_filter, hmem_fresh, decide_eq_true_eq, Bool.and_eq_true]
      tauto
    · obtain ⟨y, -, hyx⟩ := List.mem_flatMap.mp hx
      exact wf.consumes_role hyx
    · rcases List.mem_append.mp hy with hy | hy
      · have hx' := hclosed y hy hrole x hx
        rw [List.mem_append, hmem_fresh]
        tauto
      · exact .inr (List.mem_flatMap.mpr ⟨y, ((hmem_fresh y).mp hy).1, hx⟩)

theorem Explores.eq_breadthFirst (wf : c.WellFormed) {k : Handle}
    (hclosed : ∀ y ∈ found, c.isRole y → y = k ∨ ∀ x, c.Consumes y x → x ∈ found)
    (h : c.Explores [k] found added) : added = (c.breadthFirst k).filter (· ∉ found) := by
  obtain ⟨rank, hrank, hbound⟩ := wf.grounded.exists_rank_consumes
  have hfresh : c.freshRoles found k = ((c.rolesOf k).filter (· ∉ found)).eraseDups :=
    (eraseDups_of_nodup (wf.nodup_freshRoles found k)).symm
  cases h with
  | @visit _ _ _ added hrest =>
    rw [List.nil_append, hfresh] at hrest
    rw [hfresh, breadthFirst, filter_eraseDups]
    refine hrest.eq_levels wf hrank (fun x hx => ⟨wf.consumes_role hx, wf.rank_lt_size hbound x hx⟩)
      fun y hy hrole x hx => ?_
    rcases hclosed y hy hrole with rfl | hclosed
    · exact .inr hx
    · exact .inl (hclosed x hx)

/-! ## Searches in sequence -/

theorem WellFormed.isRole_of_mem_levels (wf : c.WellFormed) {depth : Nat} {x : Handle}
    (hlevel : ∀ x ∈ level, c.isRole x) (hx : x ∈ c.levels depth level) : c.isRole x := by
  induction depth generalizing level with
  | zero => cases hx
  | succ depth ih =>
    rcases List.mem_append.mp hx with hx | hx
    · exact hlevel x hx
    · refine ih (fun y hy => ?_) hx
      obtain ⟨z, -, hzy⟩ := List.mem_flatMap.mp hy
      exact wf.consumes_role hzy

theorem WellFormed.isRole_of_mem_breadthFirst (wf : c.WellFormed) {h x : Handle}
    (hx : x ∈ c.breadthFirst h) : c.isRole x :=
  wf.isRole_of_mem_levels (fun _ => wf.consumes_role) (List.mem_eraseDups.mp hx)

theorem ExploresEach.eq_listEach (wf : c.WellFormed) {ks listed : List Handle}
    (hclosed : ∀ y ∈ found, c.isRole y → ks.head? = some y ∨ ∀ x, c.Consumes y x → x ∈ found)
    (hlisted : ∀ x, c.isRole x → (x ∈ found ↔ x ∈ listed)) (h : c.ExploresEach ks found added) :
    added = c.listEach listed ks := by
  induction h generalizing listed with
  | done => rfl
  | @next k ks found first rest hfirst _ ih =>
    have hnew : first = (c.breadthFirst k).filter (· ∉ listed) := by
      rw [hfirst.eq_breadthFirst wf fun y hy hrole =>
        (hclosed y hy hrole).imp_left fun heq => (Option.some.inj heq).symm]
      refine List.filter_congr fun x hx => ?_
      simp only [hlisted x (wf.isRole_of_mem_breadthFirst hx)]
    have hlisted' (x : Handle) (hrole : c.isRole x) : x ∈ found ++ first ↔ x ∈ listed ++ first := by
      rw [List.mem_append, List.mem_append, hlisted x hrole]
    rw [listEach, ← hnew, ← ih (fun y hy hrole => .inr fun x hx => ?_) hlisted']
    -- what the search has visited leads to what is found by now
    rcases List.mem_append.mp hy with hold | hnew
    · rcases hclosed y hold hrole with hhead | hclosed
      · exact hfirst.closed y (by simpa using .inl (Option.some.inj hhead).symm) x hx
      · exact List.mem_append_left _ (hclosed x hx)
    · exact hfirst.closed y (List.mem_append_right _ hnew) x hx

theorem WellFormed.resolutionOrder_eq_listEach (wf : c.WellFormed) (h : Handle) :
    c.resolutionOrder h = c.lineage h ++ c.listEach [h] (c.lineage h) := by
  have hself {x : Handle} (hx : x ∈ c.lineage h) (hrole : c.isRole x) : h = x :=
    (wf.isClass_of_extends_path (wf.mem_lineage.mp hx).2).resolve_right fun ⟨_, hclass⟩ =>
      not_isClass_of_isRole hrole hclass
  rw [wf.resolutionOrder_eq]
  congr 1
  refine (wf.explores_reachableRoles h).eq_listEach wf (fun y hy hrole => .inl ?_)
    fun x hrole => ⟨fun hx => ?_, fun hx => ?_⟩
  · obtain rfl := hself hy hrole
    rw [wf.lineage_of_isRole hrole, List.head?_cons]
  · rw [hself hx hrole, List.mem_singleton]
  · obtain rfl := List.mem_singleton.mp hx
    exact wf.mem_lineage_self (known_of_isRole hrole)

end ObjectSystem.Catalog
