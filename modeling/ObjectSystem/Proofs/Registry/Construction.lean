import ObjectSystem.Proofs.Linearization.Members
import ObjectSystem.Proofs.Run.Names
import ObjectSystem.Proofs.Sealing.Frozen
import ObjectSystem.Registry.Construction

/-!
# Making instances of sealed classes

What comes out when an instance is made of a sealed class does not change any more: the attributes
in force are those of before, and the keys that stand for them are the same strings, unless one of
their names was issued in between (`AttributesIssuedBefore`). Before that it was the name of no
string.
-/

namespace ObjectSystem

namespace Registry

open Catalog

variable {r s : Registry} {type : Handle}

/-- Of the members in force for the type none has a name that was issued between the two states. -/
def MembersIssuedBefore (r s : Registry) (type : Handle) : Prop :=
  ∀ m ∈ r.membersInForce type, r.names.IssuedBefore s.names m.member.name

/-- The same of the attributes in force. -/
def AttributesIssuedBefore (r s : Registry) (type : Handle) : Prop :=
  ∀ a ∈ r.attributesInForce type, r.names.IssuedBefore s.names a.1

instance (r s : Registry) (type : Handle) : Decidable (r.MembersIssuedBefore s type) :=
  inferInstanceAs (Decidable (∀ m ∈ _, _))

instance (r s : Registry) (type : Handle) : Decidable (r.AttributesIssuedBefore s type) :=
  inferInstanceAs (Decidable (∀ a ∈ _, _))

namespace Succeeds

variable {attributes : List (Name × Attribute)} {name : Name}

theorem stands_eq (hrs : Succeeds r s) (hname : r.names.IssuedBefore s.names name) (key : String) :
    (s.names.get? key == some name) = (r.names.get? key == some name) := by
  rw [Bool.eq_iff_iff, beq_iff_eq, beq_iff_eq]
  exact hrs.grows.get?_iff_of_issuedBefore hname

theorem initial?_eq (hrs : Succeeds r s) (hname : r.names.IssuedBefore s.names name)
    (fields : List (String × Value)) (rules : Attribute) :
    s.initial? fields name rules = r.initial? fields name rules := by
  have hsupplied : s.supplied? fields name = r.supplied? fields name := by
    rw [supplied?, supplied?, List.find?_congr fun field _ => hrs.stands_eq hname field.1]
  rw [initial?, hsupplied, initial?]

theorem unknownKeys_eq (hrs : Succeeds r s)
    (hbefore : ∀ a ∈ attributes, r.names.IssuedBefore s.names a.1)
    (fields : List (String × Value)) :
    s.unknownKeys attributes fields = r.unknownKeys attributes fields := by
  have hany (key : String) : (attributes.any fun a => s.names.get? key == some a.1) =
      attributes.any fun a => r.names.get? key == some a.1 := by
    rw [Bool.eq_iff_iff, List.any_eq_true, List.any_eq_true]
    exact exists_congr fun a => and_congr_right fun ha => by rw [hrs.stands_eq (hbefore a ha)]
  exact List.filter_congr fun key _ => congrArg not (hany key)

theorem missingAttributes_eq (hrs : Succeeds r s)
    (hbefore : ∀ a ∈ attributes, r.names.IssuedBefore s.names a.1)
    (fields : List (String × Value)) :
    s.missingAttributes attributes fields = r.missingAttributes attributes fields := by
  have hfilter : (attributes.filter fun a =>
      a.2.required && (s.initial? fields a.1 a.2).isNone) =
      attributes.filter fun a => a.2.required && (r.initial? fields a.1 a.2).isNone := by
    apply List.filter_congr
    intro a ha
    rw [hrs.initial?_eq (hbefore a ha)]
  refine (congrArg _ hfilter).trans (List.map_congr_left fun a ha => ?_)
  exact hrs.grows.lookup_eq_of_issuedBefore (hbefore a (List.mem_of_mem_filter ha))

theorem initialFields_eq (hrs : Succeeds r s)
    (hbefore : ∀ a ∈ attributes, r.names.IssuedBefore s.names a.1)
    (fields : List (String × Value)) :
    s.initialFields attributes fields = r.initialFields attributes fields := by
  apply List.filterMap_congr
  intro a ha
  dsimp only
  rw [hrs.initial?_eq (hbefore a ha), hrs.grows.lookup_eq_of_issuedBefore (hbefore a ha)]

end Succeeds

theorem map_fst_instantiate (r : Registry) (type : Handle) (fields : List (String × Value)) :
    (r.instantiate type fields).map Prod.fst = r.construct type fields := by
  rw [instantiate]
  cases r.construct type fields <;> rfl

/-- With the same entry and attributes, what is made does not depend on strings interned since. -/
theorem Succeeds.construct_eq (hrs : Succeeds r s) (hr : r.Named)
    (hbefore : r.AttributesIssuedBefore s type) (hentry : s.typeAt? type = r.typeAt? type)
    (hattributes : s.attributesInForce type = r.attributesInForce type)
    (fields : List (String × Value)) : s.construct type fields = r.construct type fields := by
  have hdisplay : s.display type = r.display type := by
    rw [display, typeName?, hentry, display, typeName?]
    cases ht : r.typeAt? type with
    | none => rfl
    | some t => rw [Option.map_some, Option.map_some, hrs.grows.lookup_eq (hr.type ht)]
  simp only [construct, hentry, hdisplay, hattributes, hrs.config_eq, hrs.unknownKeys_eq hbefore,
    hrs.missingAttributes_eq hbefore, hrs.initialFields_eq hbefore]

theorem construct_eq_of_isSealed (hrs : Succeeds r s) (hr : r.Named)
    (hbefore : r.AttributesIssuedBefore s type) (hlater : r.Later s.toCatalog)
    (hsealed : r.isSealed type) (fields : List (String × Value)) :
    s.construct type fields = r.construct type fields := by
  have hattributes : s.attributesInForce type = r.attributesInForce type := by
    rw [attributesInForce, hlater.membersInForce_eq hsealed, attributesInForce]
  exact hrs.construct_eq hr hbefore (hlater.keepsSealed type hsealed) hattributes fields

end Registry

end ObjectSystem
