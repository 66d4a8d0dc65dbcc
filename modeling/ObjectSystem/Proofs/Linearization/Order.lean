import ObjectSystem.Proofs.Linearization.Lineage
import ObjectSystem.Proofs.Linearization.Search

/-!
# Resolution orders

The resolution order of a type is its lineage followed by what the searches from the types of the
lineage add. It holds exactly what is reached over parents and then over consumed roles
(`mem_resolutionOrder`), each type once.
-/

namespace ObjectSystem.Catalog

open Relation

variable {c : Catalog}

theorem WellFormed.exists_searches (wf : c.WellFormed) (h : Handle) :
    c.ExploresEach (c.lineage h) (c.lineage h) (c.reachableRoles h) ∧
      c.resolutionOrder h = c.lineage h ++ c.reachableRoles h := by
  obtain ⟨added, hsearch, heq⟩ := wf.foldl_exploreFrom_eq (c.lineage h) (c.lineage h)
  have hreach : c.reachableRoles h = added := by
    rw [reachableRoles, resolutionOrder, heq, List.drop_left]
  rw [hreach]
  exact ⟨hsearch, heq⟩

theorem WellFormed.explores_reachableRoles (wf : c.WellFormed) (h : Handle) :
    c.ExploresEach (c.lineage h) (c.lineage h) (c.reachableRoles h) :=
  (wf.exists_searches h).1

theorem WellFormed.resolutionOrder_eq (wf : c.WellFormed) (h : Handle) :
    c.resolutionOrder h = c.lineage h ++ c.reachableRoles h :=
  (wf.exists_searches h).2

theorem WellFormed.resolutionOrder_closed (wf : c.WellFormed) {h y x : Handle}
    (hy : y ∈ c.resolutionOrder h) (hyx : c.Consumes y x) : x ∈ c.resolutionOrder h := by
  rw [wf.resolutionOrder_eq] at hy ⊢
  exact (wf.explores_reachableRoles h).closed y hy x hyx

theorem WellFormed.mem_resolutionOrder (wf : c.WellFormed) {h x : Handle} :
    x ∈ c.resolutionOrder h ↔ ∃ k ∈ c.lineage h, ReflTransGen c.Consumes k x := by
  constructor
  · intro hx
    rw [wf.resolutionOrder_eq] at hx
    rcases List.mem_append.mp hx with hx | hx
    · exact ⟨x, hx, .refl⟩
    · obtain ⟨k, hk, hreach⟩ := (wf.explores_reachableRoles h).reached x hx
      exact ⟨k, hk, hreach.to_reflTransGen⟩
  · rintro ⟨k, hk, hreach⟩
    induction hreach with
    | refl =>
      rw [wf.resolutionOrder_eq]
      exact List.mem_append_left _ hk
    | tail _ hedge ih => exact wf.resolutionOrder_closed ih hedge

theorem WellFormed.nodup_resolutionOrder (wf : c.WellFormed) (h : Handle) :
    (c.resolutionOrder h).Nodup := by
  obtain ⟨hnodup, hfresh⟩ := (wf.explores_reachableRoles h).nodup wf
  rw [wf.resolutionOrder_eq]
  refine List.nodup_append.mpr ⟨wf.nodup_lineage h, hnodup, ?_⟩
  rintro x hx y hy rfl
  exact hfresh x hy hx

theorem WellFormed.mem_reachableRoles (wf : c.WellFormed) {h x : Handle} :
    x ∈ c.reachableRoles h ↔ x ∉ c.lineage h ∧ ∃ k ∈ c.lineage h, ReflTransGen c.Consumes k x := by
  rw [← wf.mem_resolutionOrder, wf.resolutionOrder_eq, List.mem_append]
  have hfresh := ((wf.explores_reachableRoles h).nodup wf).2 x
  tauto

theorem WellFormed.mem_reachableRoles_of_isRole (wf : c.WellFormed) {r x : Handle}
    (hr : c.isRole r) (hreach : ReflTransGen c.Consumes r x) : x = r ∨ x ∈ c.reachableRoles r := by
  rw [wf.mem_reachableRoles, wf.lineage_of_isRole hr]
  simp only [List.mem_singleton, exists_eq_left]
  by_cases hx : x = r
  · exact .inl hx
  · exact .inr ⟨hx, hreach⟩

theorem WellFormed.mem_reachableRoles_of_isClass (wf : c.WellFormed) {k x : Handle}
    (hk : c.isClass k) (hx : c.isRole x) (hreach : ReflTransGen c.Consumes k x) :
    x ∈ c.reachableRoles k := by
  rw [wf.mem_reachableRoles]
  refine ⟨fun hmem => ?_, k, wf.mem_lineage_self (known_of_isClass hk), hreach⟩
  exact not_isClass_of_isRole hx (wf.isClass_of_mem_lineage hk hmem)

/-- What passes along all edges from the type holds throughout its resolution order. -/
theorem WellFormed.forall_mem_resolutionOrder (wf : c.WellFormed) {P : Handle → Prop}
    (hparent : ∀ {a b}, P a → c.Extends a b → P b) (hrole : ∀ {a b}, P a → c.Consumes a b → P b)
    {h x : Handle} (hh : P h) (hx : x ∈ c.resolutionOrder h) : P x := by
  obtain ⟨k, hk, hkx⟩ := wf.mem_resolutionOrder.mp hx
  obtain ⟨-, hhk⟩ := wf.mem_lineage.mp hk
  clear hk hx
  induction hkx with
  | refl =>
    induction hhk with
    | refl => exact hh
    | tail _ hedge ih => exact hparent ih hedge
  | tail _ hedge ih => exact hrole ih hedge

theorem WellFormed.mem_resolutionOrder_iff_reaches (wf : c.WellFormed) {h x : Handle}
    (hk : c.Known h) :
    x ∈ c.resolutionOrder h ↔ ReflTransGen (fun a b => c.Extends a b ∨ c.Consumes a b) h x := by
  constructor
  · exact wf.forall_mem_resolutionOrder (fun ha hab => ha.tail (.inl hab))
      (fun ha hab => ha.tail (.inr hab)) .refl
  · intro hpath
    induction hpath with
    | refl =>
      rw [wf.resolutionOrder_eq]
      exact List.mem_append_left _ (wf.mem_lineage_self hk)
    | tail _ hedge ih =>
      rcases hedge with hparent | hrole
      · -- only classes have parents, and those of the order make up the lineage
        obtain ⟨k, hk, hreach⟩ := wf.mem_resolutionOrder.mp ih
        have hclass := (wf.extends_class hparent).1
        rcases wf.isRole_of_reaches hreach with rfl | hrole
        · obtain ⟨hknown, hclimb⟩ := wf.mem_lineage.mp hk
          rw [wf.resolutionOrder_eq]
          exact List.mem_append_left _ (wf.mem_lineage.mpr ⟨hknown, hclimb.tail hparent⟩)
        · exact absurd hclass (not_isClass_of_isRole hrole)
      · exact wf.resolutionOrder_closed ih hrole

theorem WellFormed.reachableRoles_eq_filter (wf : c.WellFormed) (h : Handle) :
    c.reachableRoles h = (c.resolutionOrder h).filter fun x => c.isRole x && decide (x ≠ h) := by
  have hlineage : (c.lineage h).filter (fun x => c.isRole x && decide (x ≠ h)) = [] := by
    rw [List.filter_eq_nil_iff]
    intro x hx hkept
    rw [Bool.and_eq_true, decide_eq_true_eq] at hkept
    rcases wf.isClass_of_extends_path (wf.mem_lineage.mp hx).2 with rfl | ⟨-, hclass⟩
    · exact hkept.2 rfl
    · exact not_isClass_of_isRole hkept.1 hclass
  have hroles : (c.reachableRoles h).filter (fun x => c.isRole x && decide (x ≠ h)) =
      c.reachableRoles h := by
    rw [List.filter_eq_self]
    intro x hx
    obtain ⟨hout, k, hk, hreach⟩ := wf.mem_reachableRoles.mp hx
    have hne : k ≠ x := fun heq => hout (heq ▸ hk)
    have hself : x ≠ h := by
      rintro rfl
      exact hout (wf.mem_lineage_self (wf.mem_lineage.mp hk).1)
    rw [(wf.isRole_of_reaches hreach).resolve_left hne, decide_eq_true hself, Bool.and_self]
  rw [wf.resolutionOrder_eq, List.filter_append, hlineage, hroles, List.nil_append]

theorem WellFormed.does_iff (wf : c.WellFormed) {subject target : Handle} :
    c.does subject target ↔ c.isRole target ∧ target ∈ c.resolutionOrder subject := by
  simp only [does, Bool.and_eq_true, Bool.or_eq_true, beq_iff_eq, decide_eq_true_eq,
    wf.resolutionOrder_eq, List.mem_append]
  refine and_congr_right fun hrole => or_congr_left ?_
  constructor
  · rintro rfl
    exact wf.mem_lineage_self (known_of_isRole hrole)
  · -- what a type inherits from is a class
    intro hmem
    obtain ⟨-, hpath⟩ := wf.mem_lineage.mp hmem
    exact (wf.isClass_of_extends_path hpath).resolve_right fun ⟨_, hclass⟩ =>
      not_isClass_of_isRole hrole hclass

end ObjectSystem.Catalog
