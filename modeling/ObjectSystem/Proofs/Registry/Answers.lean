import ObjectSystem.Proofs.Registry.Calling
import ObjectSystem.TypeTest

/-!
# Answers that stay

A registry whose catalog stays goes on giving the same answers, although its interner may grow: the
names in the catalog stand for the same strings, and a string that is new stands for none of those
that were issued.
-/

namespace ObjectSystem.Registry

open Catalog

/-- The second registry answers every question as the first one does. Where members are asked for by
string, what the string calls has to be settled, and where instances are made, no attribute may have
a name that was issued in between. -/
structure KeepsAnswers (r s : Registry) : Prop where
  toCatalog_eq : s.toCatalog = r.toCatalog
  typeName?_eq : ∀ h, s.typeName? h = r.typeName? h
  resolve?_eq : ∀ q, s.resolve? q = r.resolve? q
  memberCalled?_eq : ∀ type label, r.CallSettled s type label →
    s.memberCalled? type label = r.memberCalled? type label
  helpers_eq : s.helpers = r.helpers
  instantiate_eq : ∀ type, r.AttributesIssuedBefore s type → ∀ fields,
    (s.instantiate type fields).map Prod.fst = (r.instantiate type fields).map Prod.fst
  call_eq : ∀ (object : Instance) label, r.CallSettled s object.type label → ∀ args,
    s.call object label args = r.call object label args

variable {r : Registry} {names : Interner}

/-! ## When the interner grows -/

section

variable (hr : r.Labelled) (hgrows : r.names.Grows names)

include hr hgrows

theorem Labelled.typeName?_grows (h : Handle) :
    ({ r with names } : Registry).typeName? h = r.typeName? h := by
  simp only [typeName?]
  cases ht : r.typeAt? h with
  | none => rfl
  | some t => rw [Option.map_some, Option.map_some, hgrows.lookup_eq (hr.named.type ht)]

theorem Labelled.helpers_grows : ({ r with names } : Registry).helpers = r.helpers := by
  refine List.map_congr_left fun t ht => ?_
  obtain ⟨h, hh⟩ := exists_typeAt?_of_mem (List.mem_of_mem_filter ht)
  simp only [helper, hgrows.lookup_eq (hr.named.type hh)]

theorem Labelled.resolve?_grows (q : String) :
    ({ r with names } : Registry).resolve? q = r.resolve? q := by
  ext h
  rw [(hr.grows hgrows).resolve?_iff, hr.resolve?_iff, hr.typeName?_grows hgrows]

theorem Labelled.keepsAnswers : KeepsAnswers r { r with names } where
  toCatalog_eq := rfl
  typeName?_eq := hr.typeName?_grows hgrows
  resolve?_eq := hr.resolve?_grows hgrows
  memberCalled?_eq _ _ hsettled := hsettled.memberCalled?_eq hgrows rfl
  helpers_eq := hr.helpers_grows hgrows
  instantiate_eq type hbefore fields := by
    have hgrown : Succeeds r { r with names } := ⟨rfl, hgrows⟩
    rw [map_fst_instantiate, map_fst_instantiate]
    exact hgrown.construct_eq hr.named hbefore rfl rfl fields
  call_eq object label hsettled args := by
    have hcalled : ({ r with names } : Registry).memberCalled? object.type label =
        r.memberCalled? object.type label := hsettled.memberCalled?_eq hgrows rfl
    rw [call, call, hcalled, display, hr.typeName?_grows hgrows, display]

end

end ObjectSystem.Registry
