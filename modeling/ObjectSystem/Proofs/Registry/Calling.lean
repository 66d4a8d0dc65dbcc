import ObjectSystem.Proofs.Registry.Construction
import ObjectSystem.Proofs.Run.Naming

/-!
# What an instance stores

An instance is given a field for each attribute in force that has a value: the last one supplied for
it, or its default. The fields have different names, so each is found by its own
(`field?_of_construct`). Looked up by string, a member is the one in force that has the name of the
string (`memberCalled?_eq_some_iff`).
-/

namespace ObjectSystem

/-- The last of the values that are supplied under a label. -/
def lastSupplied? (fields : List (String × Value)) (label : String) : Option Value :=
  (fields.filter (·.1 == label)).getLast?.map Prod.snd

namespace Registry

open Catalog

variable {r : Registry} {type : Handle} {fields : List (String × Value)} {object : Instance}
  {name : Name} {label : String} {m : OwnedMember}

theorem Labelled.named (hr : r.Labelled) : r.Named where
  empty := Interner.issued_of_get? hr.empty
  type ht := by
    obtain ⟨label, hlabel, -⟩ := hr.type ht
    exact hlabel.issued (Interner.issued_of_get? hr.empty)

/-! ## Members by string -/

theorem memberCalled?_eq_some_iff :
    r.memberCalled? type label = some m ↔
      m ∈ r.membersInForce type ∧ r.names.get? label = some m.member.name := by
  rw [memberCalled?, Option.bind_eq_some_iff]
  constructor
  · rintro ⟨name, hget, hforce⟩
    have hname : m.member.name = name := by
      rw [inForce?_eq_find?_membersInForce] at hforce
      simpa using List.find?_some hforce
    subst hname
    exact ⟨mem_membersInForce.mpr hforce, hget⟩
  · rintro ⟨hm, hget⟩
    exact ⟨m.member.name, hget, mem_membersInForce.mp hm⟩

/-- What the string calls is settled: it had a name in the earlier state, or none of the members in
force has a name that was issued since. -/
def CallSettled (r s : Registry) (type : Handle) (label : String) : Prop :=
  (r.names.get? label).isSome ∨ r.MembersIssuedBefore s type

instance (r s : Registry) (type : Handle) (label : String) :
    Decidable (r.CallSettled s type label) :=
  inferInstanceAs (Decidable (_ ∨ _))

section

variable {s : Registry} (hgrows : r.names.Grows s.names)

include hgrows

theorem CallSettled.get?_iff (hsettled : r.CallSettled s type label)
    (hm : m ∈ r.membersInForce type) :
    s.names.get? label = some m.member.name ↔ r.names.get? label = some m.member.name := by
  rcases hsettled with hsome | hbefore
  · obtain ⟨name, hget⟩ := Option.isSome_iff_exists.mp hsome
    rw [hget, hgrows.get?_eq_some hget]
  · exact hgrows.get?_iff_of_issuedBefore (hbefore m hm)

theorem CallSettled.memberCalled?_eq (hsettled : r.CallSettled s type label)
    (hmembers : s.membersInForce type = r.membersInForce type) :
    s.memberCalled? type label = r.memberCalled? type label := by
  ext m
  rw [memberCalled?_eq_some_iff, memberCalled?_eq_some_iff, hmembers]
  exact and_congr_right fun hm => hsettled.get?_iff hgrows hm

end

/-! ## Fields -/

theorem supplied?_eq (fields : List (String × Value)) (hname : r.names.get? label = some name) :
    r.supplied? fields name = lastSupplied? fields label := by
  have hkey (field : String × Value) :
      (r.names.get? field.1 == some name) = (field.1 == label) := by
    rw [Bool.eq_iff_iff, beq_iff_eq, beq_iff_eq]
    constructor
    · exact fun h => Interner.get?_injective h hname
    · rintro rfl
      exact hname
  rw [supplied?, lastSupplied?, List.getLast?_eq_head?_reverse, ← List.filter_reverse,
    List.head?_filter, List.find?_congr fun field _ => hkey field]

/-- The last value supplied under the string, if it has a name: else it stands for no attribute. -/
def suppliedUnder? (r : Registry) (fields : List (String × Value)) (label : String) :
    Option Value :=
  if (r.names.get? label).isSome then lastSupplied? fields label else none

/-- Under a string that gets its name later, nothing counts as supplied. -/
theorem supplied?_eq_suppliedUnder? {names : Interner} (hgrows : r.names.Grows names)
    (hname : names.get? label = some name) (fields : List (String × Value)) :
    r.supplied? fields name = r.suppliedUnder? fields label := by
  cases hlabel : r.names.get? label with
  | some other =>
    obtain rfl := Option.some.inj ((hgrows.get?_eq_some hlabel).symm.trans hname)
    rw [suppliedUnder?, hlabel, supplied?_eq fields hlabel]
    rfl
  | none =>
    rw [suppliedUnder?, hlabel, supplied?, Option.map_eq_none_iff.mpr]
    · rfl
    rw [List.find?_eq_none]
    intro field _ hkey
    have hget := beq_iff_eq.mp hkey
    obtain rfl := Interner.get?_injective (hgrows.get?_eq_some hget) hname
    rw [hlabel] at hget
    cases hget

theorem construct_eq_ok (h : r.construct type fields = .ok object) :
    (∃ t, r.typeAt? type = some t ∧ t.isClass ∧ t.isAbstract = false) ∧
      object = ⟨type, r.initialFields (r.attributesInForce type) fields⟩ := by
  simp only [construct, bind, Except.bind, pure, Except.pure, throw, throwThe,
    MonadExceptOf.throw] at h
  split at h <;> try cases h
  rename_i t ht
  split at h <;> try cases h
  rename_i hclass
  split at h <;> try cases h
  rename_i hconcrete
  split at h <;> try cases h
  split at h <;> cases h
  have hclass' := isClass_of_not_isRole ht hclass
  rw [isClass_of_entry ht] at hclass'
  exact ⟨⟨t, ht, hclass', by simpa using hconcrete⟩, rfl⟩

theorem pairwise_initialFields {attributes : List (Name × Attribute)}
    (h : attributes.Pairwise (·.1 ≠ ·.1)) (fields : List (String × Value)) :
    (r.initialFields attributes fields).Pairwise (·.name ≠ ·.name) := by
  refine List.pairwise_filterMap.mpr (h.imp fun {a b} hne f hf g hg => ?_)
  obtain ⟨_, -, rfl⟩ := Option.map_eq_some_iff.mp hf
  obtain ⟨_, -, rfl⟩ := Option.map_eq_some_iff.mp hg
  exact hne

theorem field?_of_construct {rules : Attribute} (h : r.construct type fields = .ok object)
    (ha : (name, rules) ∈ r.attributesInForce type) :
    object.field? name = r.initial? fields name rules := by
  obtain ⟨-, rfl⟩ := construct_eq_ok h
  have hattributes := r.pairwise_attributesInForce type
  rw [Record.field?]
  cases hvalue : r.initial? fields name rules with
  | some value =>
    have hmem : (⟨name, r.names.lookup name, value⟩ : Field Value) ∈
        r.initialFields (r.attributesInForce type) fields :=
      List.mem_filterMap.mpr ⟨_, ha, by simp only [hvalue, Option.map_some]⟩
    rw [find?_of_pairwise (pairwise_initialFields hattributes fields) hmem, Option.map_some]
  | none =>
    -- a field of that name would belong to the same attribute
    have hnone : (r.initialFields (r.attributesInForce type) fields).find? (·.name == name) =
        none := by
      rw [List.find?_eq_none]
      intro f hf hname
      obtain ⟨⟨other, rules'⟩, hother, hf⟩ := List.mem_filterMap.mp hf
      obtain ⟨value, hvalue', rfl⟩ := Option.map_eq_some_iff.mp hf
      obtain rfl : other = name := beq_iff_eq.mp hname
      have hfound := find?_of_pairwise hattributes ha
      have hfound' := find?_of_pairwise hattributes hother
      cases hfound'.symm.trans hfound
      rw [hvalue] at hvalue'
      cases hvalue'
    rw [hnone, Option.map_none]

/-- The value that an attribute got is the last one supplied under its string, or its default. -/
theorem field?_of_stored {rules : Attribute} {names : Interner}
    (h : r.construct type fields = .ok object) (hm : m ∈ r.membersInForce type)
    (hkind : m.member.kind = .stored rules) (hgrows : r.names.Grows names)
    (hname : names.get? label = some m.member.name) :
    object.field? m.member.name = (r.suppliedUnder? fields label).or rules.default := by
  rw [field?_of_construct h (mem_attributesInForce_of_mem hm hkind), initial?,
    supplied?_eq_suppliedUnder? hgrows hname]

/-! ## Calls -/

theorem call_stored {rules : Attribute} (hcalled : r.memberCalled? object.type label = some m)
    (hkind : m.member.kind = .stored rules) (args : List Value) :
    r.call object label args =
      if args.isEmpty then .ok ((object.field? m.member.name).getD .nil)
      else .error (.attributeWithArguments label) := by
  simp only [call, hcalled, hkind]

theorem call_method {body : MethodBody} (hcalled : r.memberCalled? object.type label = some m)
    (hkind : m.member.kind = .method body) (args : List Value) :
    r.call object label args = body object args := by
  simp only [call, hcalled, hkind]

theorem call_of_memberCalled?_eq_none (hcalled : r.memberCalled? object.type label = none)
    (args : List Value) :
    r.call object label args = .error (.noMember (r.display object.type) label) := by
  simp only [call, hcalled]

end Registry

end ObjectSystem
