import ObjectSystem.Proofs.Block.Trees
import ObjectSystem.Proofs.Naming.Segments
import ObjectSystem.Proofs.TypeTest.Bearers

/-!
# Last segments along runs

The type that a written name means in a scope is called by the qualified form of the name, whose
last segment is that of the written one in every scope. So the helper of the type depends on its
kind and on how it is written (`Refers.goesBy`), and that of a declared block on the block alone
(`reachable_lastSegment`).
-/

namespace ObjectSystem

namespace Registry

open Catalog Editing

variable {r s : Registry} {scope : Scope} {b : Block} {h k : Handle} {t : TypeEntry}
  {q written segment : String}

/-- The type has the helper that is made of the kind and the segment. A type for whose name there
was no room is called by the empty string instead. -/
def GoesBy (r : Registry) (k : Handle) (kind : Kind) (segment : String) : Prop :=
  r.HasHelper k ((if kind = .role then "does_" else "is_") ++ segment) ∨
    ¬ r.names.HasRoom ∧ r.typeName? k = some ""

theorem hasHelper_of_entry (ht : r.typeAt? k = some t) (hnamed : t.isAnonymous = false)
    (hq : r.typeName? k = some q) :
    r.HasHelper k ((if t.form.kind = .role then "does_" else "is_") ++ lastSegment q) := by
  refine ⟨by simp [isNamed, ht, hnamed], q, hq, ?_⟩
  rw [isRole_of_entry ht, TypeEntry.isRole]
  simp only [decide_eq_true_eq]

theorem Means.goesBy (hr : r.Labelled) (hmeans : r.Means q k) :
    ∃ t, r.typeAt? k = some t ∧ r.GoesBy k t.form.kind (lastSegment q) := by
  obtain ⟨name, hheld, hsymbol⟩ := hmeans
  obtain ⟨t, ht, hnamed, rfl⟩ := hr.bound.resolve?_iff.mp hsymbol
  refine ⟨t, ht, ?_⟩
  rcases Interner.holds_iff.mp hheld with hget | ⟨-, hfull, hempty⟩
  · refine .inl (hasHelper_of_entry ht hnamed ?_)
    rw [typeName?_of_entry ht, Interner.lookup_of_get? hget]
  · refine .inr ⟨fun hroom => Nat.not_le_of_lt (hroom _) hfull, ?_⟩
    rw [typeName?_of_entry ht, hempty, Interner.lookup_of_get? hr.empty]

theorem Refers.goesBy (hr : r.Labelled) (hbody : (unmarked written).toList.head? ≠ some ':')
    (hrefers : r.Refers scope written k) :
    ∃ t, r.typeAt? k = some t ∧ r.GoesBy k t.form.kind (lastSegment (unmarked written)) := by
  obtain ⟨q, hq, hmeans⟩ := hrefers
  rw [← (lastSegment_of_qualify hbody hq).2]
  exact hmeans.goesBy hr

theorem isHead_of_declare (hr : r.Labelled) (wf : r.WellFormed)
    (hdeclared : (declare scope b).outcome r = (.ok h, s)) :
    ∃ t, s.typeAt? h = some t ∧ s.IsHead scope b h t := by
  have hbuilt := outcome_of_atomically_eq_ok hdeclared
  obtain ⟨rfl, -⟩ := declaresNext_build scope b _ _ _ hbuilt
  cases realizes_build scope b hr wf hbuilt with
  | cons entry head => exact ⟨_, entry, head⟩

theorem goesBy_of_declare (hr : r.Labelled) (wf : r.WellFormed)
    (hbody : (unmarked written).toList.head? ≠ some ':') (hname : b.name = some written)
    (hdeclared : (declare scope b).outcome r = (.ok h, s)) :
    s.GoesBy h b.kind (lastSegment (unmarked written)) := by
  have hs := ((evolving_declare scope b).evolves hdeclared).labelled hr
  obtain ⟨t, ht, hhead⟩ := isHead_of_declare hr wf hdeclared
  obtain ⟨u, hu, hgoes⟩ := (hhead.named written hname).2.goesBy hs hbody
  obtain rfl := Option.some.inj (ht.symm.trans hu)
  rwa [← hhead.kind_eq]

/-- A written name that does not begin with a colon, its mark apart, keeps its last segment in every
scope in which it is qualified, whatever colons the scope brings along. So does the name of the type
that is declared under it or that it means, be it the type of a nested block or a tag. The helper of
the type therefore does not depend on the scope. -/
theorem reachable_lastSegment (hbody : (unmarked written).toList.head? ≠ some ':') :
    (∀ scope q, Scope.qualify scope written = .ok q →
      q ≠ "" ∧ lastSegment q = lastSegment (unmarked written)) ∧
    (∀ name segment, IsLastSegment name segment ↔ segment = lastSegment name) ∧
    (∀ name, ¬ HasSeparator (lastSegment name)) ∧
    (∀ r s scope b h, Reachable r → (declare scope b).outcome r = (.ok h, s) →
      b.name = some written → s.GoesBy h b.kind (lastSegment (unmarked written))) ∧
    ∀ r scope k, Reachable r → r.Refers scope written k →
      ∃ t, r.typeAt? k = some t ∧ r.GoesBy k t.form.kind (lastSegment (unmarked written)) := by
  refine ⟨fun scope q hq => lastSegment_of_qualify hbody hq, fun name segment => isLastSegment_iff,
    not_hasSeparator_lastSegment, ?_, ?_⟩
  · intro r s scope b h hr hdeclared hname
    exact goesBy_of_declare hr.labelled hr.wellFormed hbody hname hdeclared
  · intro r scope k hr hrefers
    exact hrefers.goesBy hr.labelled hbody

def stall : Scope := { package := "Farm:", enclosingClass := some "Farm::Cow:" }

def calf : Block := { kind := .cls, name := some "+Calf" }

/-- Three colons come before the calf in the stall, the first of which is a part of the name of the
class. The calf has the helper that it has in any other class. -/
theorem farm_lastSegment : stall.qualify "+Calf" = .ok "Farm::Cow:::Calf" ∧
    IsLastSegment "Farm::Cow:::Calf" "Calf" ∧
    ∀ scope ∈ [stall, Scope.root.within "Zoo"],
      ((declare scope calf).outcome farm).2.HasHelper ⟨4⟩ "is_Calf" := by
  have hbody : (unmarked "+Calf").toList.head? ≠ some ':' := by decide +kernel
  obtain ⟨hqualify, hlast, -, hdeclare, -⟩ := reachable_lastSegment hbody
  have hcalf : lastSegment (unmarked "+Calf") = "Calf" := by decide +kernel
  have hstall : stall.qualify "+Calf" = .ok "Farm::Cow:::Calf" := by decide +kernel
  have hjoined := (hqualify _ _ hstall).2.trans hcalf
  refine ⟨hstall, (hlast _ _).mpr hjoined.symm, fun scope hscope => ?_⟩
  have hdone : ((declare scope calf).outcome farm).1 = .ok ⟨4⟩ ∧
      ((declare scope calf).outcome farm).2.names.HasRoom := by
    revert scope
    decide +kernel
  rcases hdeclare farm _ scope calf ⟨4⟩ reachable_farm (Prod.ext hdone.1 rfl) rfl with
    hhelper | ⟨hfull, -⟩
  · rwa [hcalf] at hhelper
  · exact absurd hdone.2 hfull

end Registry

end ObjectSystem
