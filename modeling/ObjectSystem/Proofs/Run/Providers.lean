import Mathlib.Data.Set.Subsingleton
import ObjectSystem.Proofs.Conflict.Indexed
import ObjectSystem.Proofs.Run.Validity

/-!
# Conflicts and nearest definers

Behind a name that a class is offered stand the roles that declare it nearest to the class, along
each path of consumed roles (`nearestDefiners`). The conflicts that are computed are the names
behind which several such roles stand and which no class of the lineage declares
(`Grounded.listsConflicts`).
-/

namespace ObjectSystem

open Relation Provision

namespace Catalog

variable {c : Catalog} {m : Name} {k r p : Handle}

/-- An edge on which a name is looked for further: the role does not declare the name itself. -/
def Passes (c : Catalog) (m : Name) (a b : Handle) : Prop :=
  c.declares a m = false ∧ c.Consumes a b

/-- The roles that declare the name and to which a path of consumed roles leads from the type on
which no earlier role declares it. -/
def nearestDefiners (c : Catalog) (m : Name) (type : Handle) : Set Handle :=
  {p | c.declares p m ∧ ∃ r, c.Consumes type r ∧ ReflTransGen (c.Passes m) r p}

theorem provides_iff_path :
    c.Provides m r p ↔ c.declares p m ∧ ReflTransGen (c.Passes m) r p := by
  constructor
  · intro h
    refine ⟨h.declares, ?_⟩
    induction h with
    | own => exact .refl
    | consumed hsilent hrs _ ih => exact ih.head ⟨hsilent, hrs⟩
  · rintro ⟨hp, hpath⟩
    induction hpath using ReflTransGen.head_induction_on with
    | refl => exact .own hp
    | head hedge _ ih => exact .consumed hedge.1 hedge.2 ih

theorem offers_iff_mem_nearestDefiners : c.Offers m k p ↔ p ∈ c.nearestDefiners m k := by
  simp only [Offers, nearestDefiners, Set.mem_ofPred_eq, provides_iff_path]
  constructor
  · rintro ⟨r, hkr, hp, hpath⟩
    exact ⟨hp, r, hkr, hpath⟩
  · rintro ⟨hp, r, hkr, hpath⟩
    exact ⟨r, hkr, hp, hpath⟩

/-- The list holds the conflicts of the class: each name with several nearest definers that no class
of the lineage declares, once, with these definers, each once. -/
structure ListsConflicts (c : Catalog) (k : Handle) (l : List Provision) : Prop where
  listed_iff : ∀ m, (∃ e ∈ l, e.member = m) ↔
    (c.nearestDefiners m k).Nontrivial ∧ ∀ j ∈ c.lineage k, c.declares j m = false
  nodup_members : (l.map Provision.member).Nodup
  nodup_roles : ∀ e ∈ l, e.roles.Nodup
  mem_roles_iff : ∀ e ∈ l, ∀ p, p ∈ e.roles ↔ p ∈ c.nearestDefiners e.member k

theorem not_settles_iff :
    c.settles k m = false ↔ ∀ j ∈ c.lineage k, c.declares j m = false := by
  simp only [settles, List.any_eq_false, Bool.not_eq_true]

theorem Grounded.listsConflicts (hc : c.Grounded) (hclass : c.isClass k) :
    c.ListsConflicts k (c.conflicts k) := by
  have htidy : Tidy (c.consumedProvisions k) := tidy_consumedProvisions k
  have hsub := c.conflicts_sublist k
  have hroles : ∀ e ∈ c.consumedProvisions k, ∀ p,
      p ∈ e.roles ↔ p ∈ c.nearestDefiners e.member k := fun e he p => by
    rw [hc.mem_roles_iff he, offers_iff_mem_nearestDefiners]
  refine ⟨fun m => ⟨?_, ?_⟩, htidy.nodup_members.sublist (hsub.map _),
    fun e he => htidy.nodup_roles e (hsub.subset he), fun e he => hroles e (hsub.subset he)⟩
  · rintro ⟨e, he, rfl⟩
    obtain ⟨he, ⟨p, hp, q, hq, hne⟩, hopen⟩ := (mem_conflicts_iff hclass).mp he
    exact ⟨⟨p, (hroles e he p).mp hp, q, (hroles e he q).mp hq, hne⟩, not_settles_iff.mp hopen⟩
  · rintro ⟨⟨p, hp, q, hq, hne⟩, hsilent⟩
    obtain ⟨e, he, rfl, -⟩ := hc.assigns_consumedProvisions.mpr
      (offers_iff_mem_nearestDefiners.mpr hp)
    have hmany : ∃ p ∈ e.roles, ∃ q ∈ e.roles, p ≠ q :=
      ⟨p, (hroles e he p).mpr hp, q, (hroles e he q).mpr hq, hne⟩
    exact ⟨e, (mem_conflicts_iff hclass).mpr ⟨he, hmany, not_settles_iff.mpr hsilent⟩, rfl⟩

end Catalog

namespace Registry

open Catalog

/-- Where consumed roles are declared and never lead back, the conflicts of a class are the names of
several nearest definers that its lineage does not settle, and a role has none; gathering provisions
with an index does not change this. The graph of every reachable registry is such a graph, and so is
every graph that is examined before a change is granted. -/
theorem grounded_conflicts :
    (∀ c : Catalog, c.Grounded →
      (∀ k, c.isClass k → c.ListsConflicts k (c.conflicts k)) ∧
      (∀ k, c.isRole k → c.conflicts k = []) ∧
      ∀ k, c.gatheredConflicts k = c.conflicts k) ∧
    ∀ r, Reachable r → r.Grounded ∧ ∀ next, Examines r next → next.Grounded := by
  refine ⟨fun c hc => ⟨fun k => hc.listsConflicts, fun k hrole => ?_, c.gatheredConflicts_eq⟩,
    fun r hr => ⟨hr.wellFormed.grounded, fun next hnext =>
      (hnext.wellFormed hr.wellFormed).grounded⟩⟩
  exact conflicts_of_not_isClass (not_isClass_of_isRole hrole)

/-- If swimmers had legs of their own, these and those of walkers would be a conflict in the duck,
and only there. -/
theorem leggedFarm_conflicts : Examines farm leggedFarm ∧ leggedFarm.conflicts ⟨1⟩ = [] ∧
    ∃ e ∈ leggedFarm.conflicts ⟨3⟩, e.member = farmName "legs" ∧ ⟨0⟩ ∈ e.roles ∧
      ⟨1⟩ ∈ e.roles := by
  obtain ⟨hlists, hgraphs⟩ := grounded_conflicts
  have hproposal : farm.proposeMember ⟨1⟩ ⟨farmName "legs", .stored {}⟩ = .ok leggedFarm := by rfl
  have hexamines : Examines farm leggedFarm := .member (.refl farm) hproposal
  obtain ⟨hclasses, hroles, -⟩ := hlists leggedFarm ((hgraphs farm reachable_farm).2 _ hexamines)
  have hclass : leggedFarm.isClass ⟨3⟩ := by decide +kernel
  have hrole : leggedFarm.isRole ⟨1⟩ := by decide +kernel
  have hdefiners : ∀ x ∈ [⟨0⟩, ⟨1⟩],
      x ∈ leggedFarm.nearestDefiners (farmName "legs") ⟨3⟩ := fun x hx => by
    have hdeclares : [⟨0⟩, ⟨1⟩].all fun x => leggedFarm.declares x (farmName "legs") &&
        decide (x ∈ leggedFarm.rolesOf ⟨3⟩) := by decide +kernel
    simp only [List.all_eq_true, Bool.and_eq_true, decide_eq_true_eq] at hdeclares
    obtain ⟨hx, hedge⟩ := hdeclares x hx
    exact ⟨hx, x, hedge, .refl⟩
  have hsilent : ∀ j ∈ leggedFarm.lineage ⟨3⟩, leggedFarm.declares j (farmName "legs") = false := by
    decide +kernel
  have hlist := hclasses ⟨3⟩ hclass
  have hwalker := hdefiners ⟨0⟩ (by simp)
  have hswimmer := hdefiners ⟨1⟩ (by simp)
  obtain ⟨e, he, hmember⟩ := (hlist.listed_iff (farmName "legs")).mpr
    ⟨⟨_, hwalker, _, hswimmer, by decide⟩, hsilent⟩
  refine ⟨hexamines, hroles ⟨1⟩ hrole, e, he, hmember, ?_⟩
  rw [hlist.mem_roles_iff e he, hlist.mem_roles_iff e he, hmember]
  exact ⟨hwalker, hswimmer⟩

end Registry

end ObjectSystem
