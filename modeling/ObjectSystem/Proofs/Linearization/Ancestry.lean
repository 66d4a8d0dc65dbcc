import ObjectSystem.Proofs.Linearization.Order

/-!
# Being and doing

Two questions are asked of types: whether one is another one, and whether it does a role. Both are
computed from lists. Here they are told as relations: a type is what it reaches over parents, and
does what it acquires over parents and then consumed roles (`WellFormed.isA_iff`,
`WellFormed.does_iff_acquires`). That both are orders is because edges never lead back.
-/

namespace ObjectSystem.Catalog

open Relation

/-- The type reaches the role over parents and then over consumed roles, of which there is one at
least. -/
def Acquires (c : Catalog) (type role : Handle) : Prop :=
  ∃ k, ReflTransGen c.Extends type k ∧ TransGen c.Consumes k role

variable {c : Catalog} {x y a b role q : Handle}

/-! ## Being -/

theorem WellFormed.isA_iff (wf : c.WellFormed) :
    c.isA a b ↔ c.Known a ∧ ReflTransGen c.Extends a b := by
  rw [isA, decide_eq_true_eq, wf.mem_lineage]

theorem WellFormed.known_of_isA (wf : c.WellFormed) (h : c.isA a b) : c.Known a ∧ c.Known b :=
  ⟨(wf.isA_iff.mp h).1, wf.known_of_mem_lineage (of_decide_eq_true h)⟩

theorem WellFormed.isA_antisymm (wf : c.WellFormed) (hab : c.isA a b) (hba : c.isA b a) :
    a = b := by
  obtain ⟨-, hab⟩ := wf.isA_iff.mp hab
  obtain ⟨-, hba⟩ := wf.isA_iff.mp hba
  rcases ReflTransGen.cases_head hab with heq | ⟨p, hp, hpb⟩
  · exact heq
  · exact absurd (.head' hp (hpb.trans hba)) (wf.extends_acyclic a)

/-- What a type is lies on one chain, since no class has two parents. -/
theorem WellFormed.isA_or_isA (wf : c.WellFormed) (ha : c.isA x a) (hb : c.isA x b) :
    c.isA a b ∨ c.isA b a := by
  have hunique : Relator.RightUnique c.Extends := fun _ _ _ h h' => h.unique h'
  obtain ⟨-, hxa⟩ := wf.isA_iff.mp ha
  obtain ⟨-, hxb⟩ := wf.isA_iff.mp hb
  rcases ReflTransGen.total_of_right_unique hunique hxa hxb with hab | hba
  · exact .inl (wf.isA_iff.mpr ⟨(wf.known_of_isA ha).2, hab⟩)
  · exact .inr (wf.isA_iff.mpr ⟨(wf.known_of_isA hb).2, hba⟩)

theorem WellFormed.eq_of_isA_of_isRole (wf : c.WellFormed) (hrole : c.isRole role)
    (h : c.isA x role) : x = role := by
  obtain ⟨-, hpath⟩ := wf.isA_iff.mp h
  exact (wf.isClass_of_extends_path hpath).resolve_right fun ⟨_, hclass⟩ =>
    not_isClass_of_isRole hrole hclass

/-! ## Doing -/

theorem Acquires.known_left (h : c.Acquires x role) : c.Known x := by
  obtain ⟨k, hxk, hkr⟩ := h
  rcases ReflTransGen.cases_head hxk with rfl | ⟨p, hp, -⟩
  · obtain ⟨_, hedge, -⟩ := TransGen.head'_iff.mp hkr
    exact hedge.known_left
  · exact hp.known_left

theorem WellFormed.transGen_of_acquires (wf : c.WellFormed) (hrole : c.isRole role)
    (h : c.Acquires role q) : TransGen c.Consumes role q := by
  obtain ⟨k, hk, hreach⟩ := h
  rcases wf.isClass_of_extends_path hk with rfl | ⟨hclass, -⟩
  · exact hreach
  · exact absurd hclass (not_isClass_of_isRole hrole)

theorem WellFormed.does_iff_acquires (wf : c.WellFormed) :
    c.does x role ↔ c.isRole role ∧ (x = role ∨ c.Acquires x role) := by
  rw [wf.does_iff, wf.mem_resolutionOrder]
  refine and_congr_right fun hrole => ⟨?_, ?_⟩
  · rintro ⟨k, hk, hreach⟩
    rcases reflTransGen_iff_eq_or_transGen.mp hreach with rfl | hreach
    · exact .inl (wf.eq_of_isA_of_isRole hrole (decide_eq_true hk))
    · exact .inr ⟨k, (wf.mem_lineage.mp hk).2, hreach⟩
  · rintro (rfl | hacquires)
    · exact ⟨x, wf.mem_lineage_self (known_of_isRole hrole), .refl⟩
    · have hknown := hacquires.known_left
      obtain ⟨k, hk, hreach⟩ := hacquires
      exact ⟨k, wf.mem_lineage.mpr ⟨hknown, hk⟩, hreach.to_reflTransGen⟩

theorem WellFormed.known_of_does (wf : c.WellFormed) (h : c.does x role) :
    c.Known x ∧ c.Known role := by
  obtain ⟨hrole, rfl | hacquires⟩ := wf.does_iff_acquires.mp h
  · exact ⟨known_of_isRole hrole, known_of_isRole hrole⟩
  · exact ⟨hacquires.known_left, known_of_isRole hrole⟩

theorem WellFormed.does_trans (wf : c.WellFormed) (hx : c.does x role) (hrole : c.does role q) :
    c.does x q := by
  obtain ⟨hisRole, hx⟩ := wf.does_iff_acquires.mp hx
  obtain ⟨hq, rfl | hreach⟩ := wf.does_iff_acquires.mp hrole
  · exact wf.does_iff_acquires.mpr ⟨hisRole, hx⟩
  · have hconsumes := wf.transGen_of_acquires hisRole hreach
    rcases hx with rfl | ⟨k, hk, hkr⟩
    · exact hrole
    · exact wf.does_iff_acquires.mpr ⟨hq, .inr ⟨k, hk, hkr.trans hconsumes⟩⟩

theorem WellFormed.does_antisymm (wf : c.WellFormed) (h : c.does role q) (h' : c.does q role) :
    role = q := by
  obtain ⟨hq, heq | hacquires⟩ := wf.does_iff_acquires.mp h
  · exact heq
  obtain ⟨hrole, heq | hacquires'⟩ := wf.does_iff_acquires.mp h'
  · exact heq.symm
  have hthere := wf.transGen_of_acquires hrole hacquires
  have hback := wf.transGen_of_acquires hq hacquires'
  exact absurd (hthere.trans hback) (wf.consumes_acyclic role)

theorem WellFormed.does_of_isA (wf : c.WellFormed) (hxy : c.isA x y) (hy : c.does y role) :
    c.does x role := by
  obtain ⟨hrole, rfl | ⟨k, hk, hreach⟩⟩ := wf.does_iff_acquires.mp hy
  · rwa [wf.eq_of_isA_of_isRole hrole hxy]
  · obtain ⟨-, hpath⟩ := wf.isA_iff.mp hxy
    exact wf.does_iff_acquires.mpr ⟨hrole, .inr ⟨k, hpath.trans hk, hreach⟩⟩

theorem not_does_of_isClass (hclass : c.isClass y) : ¬ c.does x y := by
  intro h
  rw [does, Bool.and_eq_true] at h
  exact not_isClass_of_isRole h.1 hclass

end ObjectSystem.Catalog
