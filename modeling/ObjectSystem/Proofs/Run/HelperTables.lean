import ObjectSystem.Proofs.Run.Graph
import ObjectSystem.Proofs.Run.Naming
import ObjectSystem.Proofs.TypeTest.Bearers

/-!
# Tables of helpers along runs

The table that is built of a reachable registry serves the helpers that are those of one named type
each and no others (`reachable_helperTable`). How many types share a helper that is left out, and in
which order they have been declared, does not matter, nor whether the table is built in one pass.
-/

namespace ObjectSystem.Registry

open Catalog HelperTable

variable {r : Registry} {t : HelperTable}

/-- The table has a test under each helper that is the helper of one type only. It is the test that
fits the type, and runs the query that it stands for. -/
structure Serves (t : HelperTable) (r : Registry) : Prop where
  isSome_get?_iff : ∀ helper,
    (t.get? helper).isSome ↔ ∃ k, ∀ j, r.HasHelper j helper ↔ j = k
  get?_eq : ∀ helper k, (∀ j, r.HasHelper j helper ↔ j = k) →
    t.get? helper = some (if r.isRole k then .does k else .isA k) ∧
    t.get? helper = r.test? k ∧
    ∃ q, r.typeName? k = some q ∧ t.get? helper = r.testNamed? q
  check?_eq : ∀ helper k, (∀ j, r.HasHelper j helper ↔ j = k) → ∀ subject,
    t.check? r.toCatalog helper subject =
      some (if r.isRole k then r.does subject k else r.isA subject k)
  pairwise_names : t.names.Pairwise (· < ·)
  mem_names_iff : ∀ helper, helper ∈ t.names ↔ ∃ k, ∀ j, r.HasHelper j helper ↔ j = k
  size_eq : t.size = t.names.length

theorem test?_of_known {c : Catalog} {k : Handle} (hk : c.Known k) :
    c.test? k = some (if c.isRole k then .does k else .isA k) := by
  obtain ⟨u, hu⟩ := hk.exists_entry
  rw [test?, hu, Option.map_some, TypeEntry.test, isRole_of_entry hu]

theorem get?_of_contains (wf : r.WellFormed) (ht : t.Contains r.helpers) {helper : String}
    {k : Handle} (honly : ∀ j, r.HasHelper j helper ↔ j = k) :
    t.get? helper = some (if r.isRole k then .does k else .isA k) := by
  obtain ⟨u, hu, -⟩ := hasHelper_iff.mp ((honly k).mpr rfl)
  rw [ht helper, alone?_helpers_iff wf]
  exact ⟨k, honly, test?_of_known (known_of_typeAt? hu)⟩

theorem isSome_get?_of_contains_iff (wf : r.WellFormed) (ht : t.Contains r.helpers)
    {helper : String} :
    (t.get? helper).isSome ↔ ∃ k, ∀ j, r.HasHelper j helper ↔ j = k := by
  constructor
  · intro hsome
    obtain ⟨test, htest⟩ := Option.isSome_iff_exists.mp hsome
    rw [ht helper, alone?_helpers_iff wf] at htest
    obtain ⟨k, honly, -⟩ := htest
    exact ⟨k, honly⟩
  · rintro ⟨k, honly⟩
    rw [get?_of_contains wf ht honly, Option.isSome_some]

theorem serves_of_contains (hr : Reachable r) (ht : t.Contains r.helpers) : Serves t r where
  isSome_get?_iff _ := isSome_get?_of_contains_iff hr.wellFormed ht
  get?_eq helper k honly := by
    have hget := get?_of_contains hr.wellFormed ht honly
    obtain ⟨hnamed, q, hq, -⟩ := (honly k).mpr rfl
    obtain ⟨u, hu, -⟩ := Option.map_eq_some_iff.mp hq
    have htest := test?_of_known (known_of_typeAt? hu)
    refine ⟨hget, hget.trans htest.symm, q, hq, ?_⟩
    rw [testNamed?, hr.labelled.resolve?_iff.mpr ⟨hnamed, hq⟩, Option.bind_some, hget, htest]
  check?_eq helper k honly subject := by
    rw [check?, get?_of_contains hr.wellFormed ht honly, Option.map_some]
    split <;> rfl
  pairwise_names := t.pairwise_names
  mem_names_iff _ := HelperTable.mem_names_iff.trans (isSome_get?_of_contains_iff hr.wellFormed ht)
  size_eq := t.size_eq_length_names

/-- The table that is built of a reachable registry serves it: a helper is in it if there is just
one named type whose helper it is, and runs the test of that type. One pass builds such a table,
too, although it notices that a helper is shared only when it comes again. -/
theorem reachable_helperTable (hr : Reachable r) : Serves (build r) r ∧ Serves (sweep r) r :=
  ⟨serves_of_contains hr (build_contains r), serves_of_contains hr (sweep_contains r)⟩

/-- A fair with cows from three places, of which those from the farm are of a breed of their own and
have a calf without a name; those from the zoo are for show. -/
def fair : Registry :=
  [.edit (.declareClass (some "Zoo::Cow") none false []),
    .edit (.declareClass (some "Farm::Cow") none false []),
    .edit (.declareRole (some "Breed::Cow") []),
    .edit (.declareClass (some "Barn:::Cow") (some ⟨1⟩) false []),
    .edit (.declareClass none (some ⟨1⟩) false []),
    .edit (.consume ⟨1⟩ ⟨2⟩),
    .edit (.tag ⟨0⟩ "Show::")].foldl Operation.after (.new {} .empty)

theorem reachable_fair : Reachable fair := (reachable_new {}).run (run_foldl _ _)

/-- There is no helper for cows, since three classes would share it, but there is one for the breed,
which the calf has. The tag for show has an empty last segment, so that nothing but its kind is left
of its helper. -/
theorem fair_helperTable : (build fair).get? "is_Cow" = none ∧
    (sweep fair).get? "does_Cow" = some (.does ⟨2⟩) ∧ "does_Cow" ∈ (build fair).names ∧
    (build fair).check? fair.toCatalog "does_Cow" ⟨4⟩ = some true ∧
    (sweep fair).check? fair.toCatalog "does_" ⟨1⟩ = some false := by
  obtain ⟨hbuild, hsweep⟩ := reachable_helperTable reachable_fair
  have wf := reachable_fair.wellFormed
  have hcows : fair.bearers "is_Cow" = [⟨0⟩, ⟨1⟩, ⟨3⟩] := by decide +kernel
  have hbreed : ∀ j, fair.HasHelper j "does_Cow" ↔ j = ⟨2⟩ :=
    (bearers_eq_singleton_iff wf).mp (by decide +kernel)
  have hshow : ∀ j, fair.HasHelper j "does_" ↔ j = ⟨5⟩ :=
    (bearers_eq_singleton_iff wf).mp (by decide +kernel)
  refine ⟨?_, ?_, (hbuild.mem_names_iff _).mpr ⟨_, hbreed⟩, ?_, ?_⟩
  · rw [← Option.not_isSome_iff_eq_none, hbuild.isSome_get?_iff]
    rintro ⟨k, honly⟩
    rw [← bearers_eq_singleton_iff wf, hcows] at honly
    cases honly
  · rw [(hsweep.get?_eq _ _ hbreed).1]
    decide +kernel
  · rw [hbuild.check?_eq _ _ hbreed]
    decide +kernel
  · rw [hsweep.check?_eq _ _ hshow]
    decide +kernel

end ObjectSystem.Registry
