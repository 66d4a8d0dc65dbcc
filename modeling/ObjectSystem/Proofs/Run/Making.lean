import ObjectSystem.Proofs.Run.Instances

/-!
# What making an instance does

The attributes of a type are read with the strings that call them (`attributesCalled`), and of the
pairs that are supplied only the strings count: which of them call no attribute (`strayKeys`), which
required attributes they leave without a value (`unmet`), and what is stored (`stored`). From these
follows in each case what comes of making an instance (`Makes`, `reachable_makes`).
-/

namespace ObjectSystem

/-- An attribute with the string that calls it. No string calls one under a name that no string has.
-/
structure CalledAttribute where
  name : Name
  label? : Option String
  rules : Attribute

section

variable (attributes : List CalledAttribute) (fields : List (String × Value))

/-- The keys that are the string of none of the attributes, each as often as it is supplied. -/
def strayKeys : List String :=
  (fields.map Prod.fst).filter fun key => some key ∉ attributes.map CalledAttribute.label?

/-- The required attributes without a default for which nothing is supplied. -/
def unmet : List CalledAttribute :=
  attributes.filter fun a => a.rules.required && a.rules.default.isNone &&
    decide (∀ key ∈ fields.map Prod.fst, a.label? ≠ some key)

/-- What is stored: of each attribute the last value supplied for it, or else its default. -/
def stored : List (Name × Value) :=
  attributes.filterMap fun a =>
    ((a.label?.bind (lastSupplied? fields)).or a.rules.default).map (a.name, ·)

end

theorem isNone_lastSupplied? {fields : List (String × Value)} (label? : Option String) :
    (label?.bind (lastSupplied? fields)).isNone =
      decide (∀ key ∈ fields.map Prod.fst, label? ≠ some key) := by
  cases label? with
  | none => simp
  | some label =>
    rw [Bool.eq_iff_iff, decide_eq_true_eq, Option.bind_some, lastSupplied?, Option.isNone_map,
      Option.isNone_iff_eq_none, List.getLast?_eq_none_iff, List.filter_eq_nil_iff]
    simp only [beq_iff_eq, List.forall_mem_map, ne_eq, Option.some.injEq, eq_comm (a := label)]

namespace Registry

open Catalog

variable {r after : Registry} {type : Handle} {fields : List (String × Value)}
  {object : Instance} {m : OwnedMember} {label : String} {rules : Attribute}

def attributesCalled (r : Registry) (type : Handle) : List CalledAttribute :=
  (r.attributesInForce type).map fun (name, rules) => ⟨name, r.names.string? name, rules⟩

/-- The list has the members of the type that are attributes, in the order of the members. A string
calls an attribute of the list if the member that it calls is that attribute, and no attribute
otherwise: a method that hides an attribute leaves none. -/
structure ListsAttributes (r : Registry) (type : Handle) (l : List CalledAttribute) : Prop where
  eq_members : l = (r.membersInForce type).filterMap fun m =>
    m.member.kind.attribute?.map (⟨m.member.name, r.names.string? m.member.name, ·⟩)
  mem_iff : ∀ label rules, (∃ a ∈ l, a.label? = some label ∧ a.rules = rules) ↔
    ∃ m, r.memberCalled? type label = some m ∧ m.member.kind = .stored rules
  nodup_names : (l.map CalledAttribute.name).Nodup
  nodup_labels : (l.filterMap CalledAttribute.label?).Nodup

structure SealsOrder (r : Registry) (type : Handle) (after : Registry) : Prop where
  names_eq : after.names = r.names
  symbols_eq : after.symbols = r.symbols
  config_eq : after.config = r.config
  anonymousCount_eq : after.anonymousCount = r.anonymousCount
  typeAt?_eq : ∀ h, after.typeAt? h = if h ∈ r.resolutionOrder type then
    (r.typeAt? h).map fun t => { t with isSealed := true } else r.typeAt? h

/-- What comes of making an instance of a type from keys and values. The cases exclude each other,
and each says what it is refused for, or else what is made and sealed. -/
inductive Makes (r : Registry) (type : Handle) (fields : List (String × Value)) :
    Except ConstructionError (Instance × Registry) → Prop
  | unknown (h : r.typeAt? type = none) : Makes r type fields (.error (.unknownHandle type))
  | role (h : r.isRole type) : Makes r type fields (.error (.roleInstance (r.display type)))
  | isAbstract {t : TypeEntry} (ht : r.typeAt? type = some t) (hclass : t.isClass)
      (h : t.isAbstract) : Makes r type fields (.error (.abstractClass (r.display type)))
  | stray {t : TypeEntry} (ht : r.typeAt? type = some t) (hclass : t.isClass)
      (hconcrete : t.isAbstract = false) (hstrict : r.config.rejectsUnknownKeys)
      (h : strayKeys (r.attributesCalled type) fields ≠ []) :
      Makes r type fields (.error (.unknownAttributes (r.display type)
        (strayKeys (r.attributesCalled type) fields)))
  | missing {t : TypeEntry} (ht : r.typeAt? type = some t) (hclass : t.isClass)
      (hconcrete : t.isAbstract = false)
      (hkeys : r.config.rejectsUnknownKeys → strayKeys (r.attributesCalled type) fields = [])
      (h : unmet (r.attributesCalled type) fields ≠ []) :
      Makes r type fields (.error (.missingAttributes (r.display type)
        ((unmet (r.attributesCalled type) fields).map (·.label?.getD ""))))
  | made {t : TypeEntry} (ht : r.typeAt? type = some t) (hclass : t.isClass)
      (hconcrete : t.isAbstract = false)
      (hkeys : r.config.rejectsUnknownKeys → strayKeys (r.attributesCalled type) fields = [])
      (hmet : unmet (r.attributesCalled type) fields = [])
      {object : Instance} {after : Registry} (htype : object.type = type)
      (hstored : object.fields.map (fun f => (f.name, f.value)) =
        stored (r.attributesCalled type) fields)
      (hlabels : ∀ f ∈ object.fields, f.label = (r.names.string? f.name).getD "")
      (hseals : r.SealsOrder type after) : Makes r type fields (.ok (object, after))

/-! ## Attributes by string -/

theorem attributesCalled_eq (r : Registry) (type : Handle) :
    r.attributesCalled type = (r.membersInForce type).filterMap fun m =>
      m.member.kind.attribute?.map (⟨m.member.name, r.names.string? m.member.name, ·⟩) := by
  rw [attributesCalled, attributesInForce, List.map_filterMap]
  simp only [Option.map_map, Function.comp_def]

theorem nodup_names_attributesCalled (r : Registry) (type : Handle) :
    ((r.attributesCalled type).map CalledAttribute.name).Nodup := by
  rw [attributesCalled, List.map_map, List.Nodup, List.pairwise_map]
  exact r.pairwise_attributesInForce type

theorem nodup_labels_attributesCalled (r : Registry) (type : Handle) :
    ((r.attributesCalled type).filterMap CalledAttribute.label?).Nodup := by
  rw [attributesCalled, List.filterMap_map, List.Nodup, List.pairwise_filterMap]
  refine (r.pairwise_attributesInForce type).imp fun {a b} hne s hs t ht heq => hne ?_
  have hs' : r.names.string? a.1 = some s := hs
  have ht' : r.names.string? b.1 = some t := ht
  subst heq
  exact Option.some.inj
    ((Interner.string?_eq_some_iff.mp hs').symm.trans (Interner.string?_eq_some_iff.mp ht'))

theorem listsAttributes (r : Registry) (type : Handle) :
    r.ListsAttributes type (r.attributesCalled type) where
  eq_members := r.attributesCalled_eq type
  mem_iff label rules := by
    simp only [memberCalled?_eq_some_iff, attributesCalled_eq, List.mem_filterMap,
      Option.map_eq_some_iff]
    constructor
    · rintro ⟨_, ⟨m, hm, rules', hkind, rfl⟩, hlabel, rfl⟩
      refine ⟨m, ⟨hm, Interner.string?_eq_some_iff.mp hlabel⟩, ?_⟩
      cases hstored : m.member.kind with
      | stored rules =>
        rw [hstored] at hkind
        rw [Option.some.inj hkind]
      | method body =>
        rw [hstored] at hkind
        cases hkind
    · rintro ⟨m, ⟨hm, hget⟩, hkind⟩
      exact ⟨_, ⟨m, hm, rules, by rw [hkind]; rfl, rfl⟩, Interner.string?_eq_some_iff.mpr hget, rfl⟩
  nodup_names := r.nodup_names_attributesCalled type
  nodup_labels := r.nodup_labels_attributesCalled type

theorem unknownKeys_eq_strayKeys (r : Registry) (type : Handle) (fields : List (String × Value)) :
    r.unknownKeys (r.attributesInForce type) fields =
      strayKeys (r.attributesCalled type) fields := by
  refine List.filter_congr fun key _ => ?_
  have hcalls : ((r.attributesInForce type).any fun a => r.names.get? key == some a.1) =
      decide (some key ∈ (r.attributesCalled type).map CalledAttribute.label?) := by
    rw [Bool.eq_iff_iff, List.any_eq_true, decide_eq_true_eq, attributesCalled, List.map_map,
      List.mem_map]
    refine exists_congr fun a => and_congr_right fun _ => ?_
    rw [beq_iff_eq]
    exact Interner.string?_eq_some_iff.symm
  rw [hcalls, decide_not]

theorem supplied?_eq_bind (r : Registry) (fields : List (String × Value)) (name : Name) :
    r.supplied? fields name = (r.names.string? name).bind (lastSupplied? fields) := by
  cases hlabel : r.names.string? name with
  | some label =>
    rw [Option.bind_some]
    exact supplied?_eq fields (Interner.string?_eq_some_iff.mp hlabel)
  | none =>
    rw [Option.bind_none, supplied?, Option.map_eq_none_iff, List.find?_eq_none]
    intro field _ hname
    rw [Interner.string?_eq_some_iff.mpr (beq_iff_eq.mp hname)] at hlabel
    cases hlabel

theorem missingAttributes_eq_unmet (hsorted : r.names.Sorted) (type : Handle)
    (fields : List (String × Value)) :
    r.missingAttributes (r.attributesInForce type) fields =
      (unmet (r.attributesCalled type) fields).map (·.label?.getD "") := by
  rw [missingAttributes, unmet, attributesCalled, List.filter_map, List.map_map]
  have hfilter : (r.attributesInForce type).filter (fun a =>
      a.2.required && (r.initial? fields a.1 a.2).isNone) =
      (r.attributesInForce type).filter ((fun a : CalledAttribute =>
        a.rules.required && a.rules.default.isNone &&
          decide (∀ key ∈ fields.map Prod.fst, a.label? ≠ some key)) ∘
        fun a => ⟨a.1, r.names.string? a.1, a.2⟩) := by
    refine List.filter_congr fun a _ => ?_
    rw [initial?, supplied?_eq_bind, Option.isNone_or, isNone_lastSupplied?, Function.comp_apply,
      Bool.and_assoc, Bool.and_comm a.2.default.isNone]
  refine (congrArg _ hfilter).trans (List.map_congr_left fun a _ => ?_)
  exact (hsorted.getD_string? a.1).symm

theorem initialFields_eq_stored (r : Registry) (type : Handle) (fields : List (String × Value)) :
    (r.initialFields (r.attributesInForce type) fields).map (fun f => (f.name, f.value)) =
      stored (r.attributesCalled type) fields := by
  rw [initialFields, stored, attributesCalled, List.map_filterMap, List.filterMap_map]
  refine List.filterMap_congr fun a _ => ?_
  dsimp only
  rw [initial?, supplied?_eq_bind, Option.map_map]
  rfl

theorem label_of_mem_initialFields (hsorted : r.names.Sorted) {f : Field Value}
    (hf : f ∈ r.initialFields (r.attributesInForce type) fields) :
    f.label = (r.names.string? f.name).getD "" := by
  obtain ⟨a, -, hf⟩ := List.mem_filterMap.mp hf
  obtain ⟨value, -, rfl⟩ := Option.map_eq_some_iff.mp hf
  exact (hsorted.getD_string? a.1).symm

/-! ## What comes of it -/

theorem sealsOrder_sealType (r : Registry) (type : Handle) :
    r.SealsOrder type { r with toCatalog := r.sealType type } where
  names_eq := rfl
  symbols_eq := symbols_sealEach _ _
  config_eq := config_sealEach _ _
  anonymousCount_eq := anonymousCount_sealEach _ _
  typeAt?_eq h := typeAt?_sealEach _ _ h

theorem instantiate_of_concrete (hsorted : r.names.Sorted) {t : TypeEntry}
    (ht : r.typeAt? type = some t) (hclass : t.isClass) (hconcrete : t.isAbstract = false)
    (fields : List (String × Value)) :
    r.instantiate type fields =
      if r.config.rejectsUnknownKeys = true ∧ strayKeys (r.attributesCalled type) fields ≠ [] then
        .error (.unknownAttributes (r.display type) (strayKeys (r.attributesCalled type) fields))
      else if unmet (r.attributesCalled type) fields ≠ [] then
        .error (.missingAttributes (r.display type)
          ((unmet (r.attributesCalled type) fields).map (·.label?.getD "")))
      else .ok (⟨type, r.initialFields (r.attributesInForce type) fields⟩,
        { r with toCatalog := r.sealType type }) := by
  have hrole := TypeEntry.isRole_eq_false hclass
  simp only [instantiate, construct, ht, hrole, hconcrete, unknownKeys_eq_strayKeys,
    missingAttributes_eq_unmet hsorted, List.isEmpty_map, Bool.false_eq_true, if_false, ite_not,
    Bool.and_eq_true, Bool.not_eq_true', List.isEmpty_eq_false_iff, ne_eq]
  by_cases hkeys : r.config.rejectsUnknownKeys = true ∧
      strayKeys (r.attributesCalled type) fields ≠ []
  · rw [if_pos hkeys, if_pos hkeys]
    rfl
  · rw [if_neg hkeys, if_neg hkeys]
    by_cases hmet : unmet (r.attributesCalled type) fields = []
    · rw [if_pos hmet, if_pos hmet]
      rfl
    · rw [if_neg hmet, if_neg hmet]
      rfl

theorem makes (hsorted : r.names.Sorted) (type : Handle) (fields : List (String × Value)) :
    r.Makes type fields (r.instantiate type fields) := by
  cases ht : r.typeAt? type with
  | none =>
    have hmade : r.instantiate type fields = .error (.unknownHandle type) := by
      simp only [instantiate, construct, ht]
      rfl
    exact hmade ▸ .unknown ht
  | some t =>
    by_cases hrole : t.isRole
    · have hmade : r.instantiate type fields = .error (.roleInstance (r.display type)) := by
        simp only [instantiate, construct, ht, hrole]
        rfl
      exact hmade ▸ .role (by rwa [isRole_of_entry ht])
    have hclass : t.isClass := by
      have hclass := isClass_of_not_isRole ht hrole
      rwa [isClass_of_entry ht] at hclass
    by_cases habstract : t.isAbstract
    · have hmade : r.instantiate type fields = .error (.abstractClass (r.display type)) := by
        simp only [instantiate, construct, ht, hrole, habstract]
        rfl
      exact hmade ▸ .isAbstract ht hclass habstract
    have hconcrete : t.isAbstract = false := Bool.eq_false_of_not_eq_true habstract
    rw [instantiate_of_concrete hsorted ht hclass hconcrete]
    split
    · rename_i hstray
      exact .stray ht hclass hconcrete hstray.1 hstray.2
    · rename_i hkeys
      have hkeys' : r.config.rejectsUnknownKeys →
          strayKeys (r.attributesCalled type) fields = [] := by
        simpa using hkeys
      split
      · rename_i hmissing
        exact .missing ht hclass hconcrete hkeys' hmissing
      · rename_i hmet
        have hmet' := not_not.mp hmet
        exact .made ht hclass hconcrete hkeys' hmet' rfl (r.initialFields_eq_stored type fields)
          (fun f hf => label_of_mem_initialFields hsorted hf) (sealsOrder_sealType r type)

/-- Making an instance in a reachable registry. The attributes that count are the members in force
that are attributes. Refused are, in this order, an unknown handle, a role, an abstract class, in a
strict registry the keys that name no attribute, and required attributes that get no value; each
refusal tells all that it is for, and leaves the registry as it was. Otherwise the instance stores
the values supplied last and the defaults of the others, and the types in the resolution order of
its class are sealed. -/
theorem reachable_makes (hr : Reachable r) (type : Handle) (fields : List (String × Value)) :
    r.ListsAttributes type (r.attributesCalled type) ∧
    r.Makes type fields (r.instantiate type fields) ∧
    (∀ e, r.instantiate type fields = .error e →
      (Operation.instantiate type fields).after r = r) ∧
    ∀ object after, r.instantiate type fields = .ok (object, after) →
      (Operation.instantiate type fields).after r = after := by
  refine ⟨r.listsAttributes type, makes hr.sorted type fields, fun e he => ?_,
    fun object after hmade => ?_⟩
  · rw [Operation.after, he]
  · rw [Operation.after, hmade]

/-- A strict farm where birds have an age. Ducks fly; they have wings by a method of their own, not
by the attribute of those who fly. -/
def hatchery : Registry :=
  [.edit (.declareRole (some "Flyer")
      [WrittenMember.required "wings", WrittenMember.withDefault "speed" (.int 3)]),
    .edit (.declareClass (some "Bird") none true
      [WrittenMember.required "age", WrittenMember.optional "note"]),
    .edit (.declareClass (some "Duck") (some ⟨1⟩) false
      [WrittenMember.method "wings" fun _ _ => .ok (.int 2)]),
    .edit (.consume ⟨2⟩ ⟨0⟩)].foldl Operation.after (.new .strict .empty)

theorem reachable_hatchery : Reachable hatchery := (reachable_new .strict).run (run_foldl _ _)

/-- Of two ages the second one counts, the speed is that of flyers, and nothing is stored for the
note that is not written. Wings would be a key that names no attribute. Those who fly are sealed
with the duck. -/
theorem hatchery_makes : ∃ object after,
    hatchery.instantiate ⟨2⟩ [("age", .int 1), ("age", .int 2)] = .ok (object, after) ∧
    object.fields.map (fun f => (f.label, f.value.int?)) = [("age", some 2), ("speed", some 3)] ∧
    (hatchery.attributesCalled ⟨2⟩).map (·.label?) = [some "age", some "note", some "speed"] ∧
    hatchery.isSealed ⟨0⟩ = false ∧ after.isSealed ⟨0⟩ := by
  have hok : (hatchery.instantiate ⟨2⟩ [("age", .int 1), ("age", .int 2)]).isOk := by
    decide +kernel
  obtain ⟨object, after, hmade⟩ := exists_instantiate_eq_ok hok
  obtain ⟨-, hmakes, -⟩ :=
    reachable_makes reachable_hatchery ⟨2⟩ [("age", .int 1), ("age", .int 2)]
  rw [hmade] at hmakes
  cases hmakes with
  | made _ _ _ _ _ _ hstored hlabels hseals =>
    refine ⟨object, after, hmade, ?_, by decide +kernel, by decide +kernel, ?_⟩
    · have hvalues := congrArg
        (List.map fun p => ((hatchery.names.string? p.1).getD "", p.2.int?)) hstored
      rw [List.map_map] at hvalues
      have hfields : object.fields.map (fun f => (f.label, f.value.int?)) =
          object.fields.map fun f => ((hatchery.names.string? f.name).getD "", f.value.int?) :=
        List.map_congr_left fun f hf => by rw [hlabels f hf]
      refine (hfields.trans hvalues).trans ?_
      decide +kernel
    · have horder : ⟨0⟩ ∈ hatchery.resolutionOrder ⟨2⟩ := by decide +kernel
      have hknown : (hatchery.typeAt? ⟨0⟩).isSome := by decide +kernel
      obtain ⟨t, ht⟩ := Option.isSome_iff_exists.mp hknown
      rw [isSealed, hseals.typeAt?_eq, if_pos horder, ht]
      rfl

end Registry

end ObjectSystem
