import ObjectSystem.Proofs.Registry.Calling
import ObjectSystem.Proofs.Twin.Change

/-!
# Instances of twins

Registries that are akin make instances that are alike, of the same class and fields, and calls of
their members come out alike. An attribute is read off an instance by its name, so there the
instance has to carry the names of the registry it is called in (`Record.AtHome`), as the instances
made by it do (`atHome_of_construct`).
-/

namespace ObjectSystem

open Registry Catalog Relator

/-- Fields are written under the same key, with values alike. -/
def SuppliedAlike (f f' : String × Value) : Prop := f.1 = f'.1 ∧ f.2.erased = f'.2.erased

/-- The fields have the names that their labels have in the interner. -/
def Record.AtHome (names : Interner) (o : Instance) : Prop :=
  ∀ f ∈ o.fields, names.get? f.label = some f.name

theorem Record.AtHome.grows {names names' : Interner} {o : Instance} (h : o.AtHome names)
    (hgrows : names.Grows names') : o.AtHome names' := fun f hf => hgrows.get?_eq_some (h f hf)

theorem Record.AtHome.field?_eq {names : Interner} {o : Instance} (h : o.AtHome names)
    {n : Name} {label : String} (hn : names.get? label = some n) : o.field? n = o.get? label := by
  have hfind : o.fields.find? (·.name == n) = o.fields.find? (·.label == label) := by
    rw [← List.head?_filter, ← List.head?_filter]
    refine congrArg List.head? (List.filter_congr fun f hf => ?_)
    have hlabel := h f hf
    rw [Bool.eq_iff_iff, beq_iff_eq, beq_iff_eq]
    constructor
    · rintro rfl
      exact Interner.get?_injective hlabel hn
    · rintro rfl
      exact Option.some.inj (hlabel.symm.trans hn)
  rw [field?, Record.get?, hfind]

/-- At home, an instance is read by string through the name of the string. -/
theorem Record.AtHome.bind_field?_eq {names : Interner} {o : Instance} (h : o.AtHome names)
    (label : String) : (names.get? label).bind o.field? = o.get? label := by
  cases hget : names.get? label with
  | some n => exact h.field?_eq hget
  | none =>
    rw [Option.bind_none, Record.get?, eq_comm, Option.map_eq_none_iff, List.find?_eq_none]
    intro f hf hlabel
    have hname := h f hf
    rw [beq_iff_eq.mp hlabel, hget] at hname
    cases hname

namespace Registry

variable {r r' : Registry} {fields fields' : List (String × Value)} {n n' : Name}
  {attributes attributes' : List (Name × Attribute)}

theorem supplied?_congr (hn : r.names.Matches r'.names n n')
    (hfields : List.Forall₂ SuppliedAlike fields fields') :
    (r.supplied? fields n).map Value.erased = (r'.supplied? fields' n').map Value.erased := by
  rw [supplied?, supplied?, Option.map_map, Option.map_map]
  refine map_eq_of_rel (rel_find? (List.rel_reverse hfields) fun {f f'} hf => ?_) fun hf => hf.2
  rw [Bool.eq_iff_iff, beq_iff_eq, beq_iff_eq, hf.1]
  exact hn.get?_iff

theorem initial?_congr (hn : r.names.Matches r'.names n n') {rules rules' : Attribute}
    (hrules : rules.erased = rules'.erased)
    (hfields : List.Forall₂ SuppliedAlike fields fields') :
    (r.initial? fields n rules).map Value.erased =
      (r'.initial? fields' n' rules').map Value.erased := by
  obtain ⟨-, hdefault⟩ := Attribute.erased_eq_iff.mp hrules
  rw [initial?, initial?, Option.map_or, Option.map_or, supplied?_congr hn hfields, hdefault]

theorem unknownKeys_congr
    (hattributes : List.Forall₂ (Alike.AttributeAlike (r.names.Matches r'.names)) attributes
      attributes') (hfields : List.Forall₂ SuppliedAlike fields fields') :
    r.unknownKeys attributes fields = r'.unknownKeys attributes' fields' := by
  have hkeys : fields.map Prod.fst = fields'.map Prod.fst :=
    list_map_eq_of_rel hfields fun hf => hf.1
  rw [unknownKeys, unknownKeys, hkeys]
  congr 1
  funext key
  refine congrArg not (any_eq_of_rel hattributes fun {a a'} ha => ?_)
  rw [Bool.eq_iff_iff, beq_iff_eq, beq_iff_eq]
  exact ha.1.get?_iff

theorem missingAttributes_congr
    (hattributes : List.Forall₂ (Alike.AttributeAlike (r.names.Matches r'.names)) attributes
      attributes') (hfields : List.Forall₂ SuppliedAlike fields fields') :
    r.missingAttributes attributes fields = r'.missingAttributes attributes' fields' := by
  rw [missingAttributes, missingAttributes]
  refine list_map_eq_of_rel (List.rel_filter ?_ hattributes) fun ha => ha.1.lookup_eq
  rintro ⟨name, rules⟩ ⟨name', rules'⟩ ⟨hname, hrules⟩
  have hinitial := congrArg Option.isNone (initial?_congr hname hrules hfields)
  obtain ⟨hrequired, -⟩ := Attribute.erased_eq_iff.mp hrules
  rw [Option.isNone_map, Option.isNone_map] at hinitial
  dsimp only
  rw [hinitial, hrequired]

theorem initialFields_congr
    (hattributes : List.Forall₂ (Alike.AttributeAlike (r.names.Matches r'.names)) attributes
      attributes') (hfields : List.Forall₂ SuppliedAlike fields fields') :
    (r.initialFields attributes fields).map Field.erased =
      (r'.initialFields attributes' fields').map Field.erased := by
  rw [initialFields, initialFields]
  refine list_map_eq_of_rel (R := fun f f' => f.erased = f'.erased)
    (List.rel_filterMap ?_ hattributes) id
  rintro ⟨name, rules⟩ ⟨name', rules'⟩ ⟨hname, hrules⟩
  dsimp only
  rcases cases_rel (rel_of_map_eq (initial?_congr hname hrules hfields)) with
    ⟨hv, hv'⟩ | ⟨v, v', hv, hv', hvalue⟩
  · rw [hv, hv']
    exact .none
  · rw [hv, hv']
    refine .some ?_
    rw [Field.erased, Field.erased, hvalue, hname.lookup_eq]

theorem Akin.construct (h : Akin r r') (type : Handle)
    (hfields : List.Forall₂ SuppliedAlike fields fields') :
    Both (fun o o' => o.erased = o'.erased) (r.construct type fields)
      (r'.construct type fields') := by
  have hattributes := Alike.attributesInForce h (Interner.biUnique_matches _ _) type
  rw [Registry.construct, Registry.construct, h.display_eq, h.config_eq]
  rcases cases_rel (h.typeAt? type) with ⟨ht, ht'⟩ | ⟨t, t', ht, ht', halike⟩
  · rw [ht, ht']
    exact .error _
  · rw [ht, ht']
    dsimp only
    rw [halike.isRole_eq, halike.isAbstract_eq, ← unknownKeys_congr hattributes hfields,
      ← missingAttributes_congr hattributes hfields]
    refine .guard fun _ => .guard fun _ => .guard fun _ => .guard fun _ => .ok ?_
    rw [Record.erased, Record.erased, initialFields_congr hattributes hfields]

theorem atHome_of_construct {type : Handle} {o : Instance}
    (hnames : ∀ a ∈ r.attributesInForce type, ∃ label, r.names.get? label = some a.1)
    (h : r.construct type fields = .ok o) : o.AtHome r.names := by
  obtain ⟨-, rfl⟩ := construct_eq_ok h
  intro f hf
  simp only [initialFields, List.mem_filterMap] at hf
  obtain ⟨⟨name, rules⟩, ha, hvalue⟩ := hf
  obtain ⟨value, -, rfl⟩ := Option.map_eq_some_iff.mp hvalue
  obtain ⟨label, hlabel⟩ := hnames _ ha
  dsimp only at hlabel ⊢
  rw [Interner.lookup_of_get? hlabel, hlabel]

theorem Akin.call (h : Akin r r') {this this' : Instance} (hthis : this.erased = this'.erased)
    (hhome : this.AtHome r.names) (hhome' : this'.AtHome r'.names) (method : String)
    {args args' : List Value} (hargs : args.map Value.erased = args'.map Value.erased) :
    (r.call this method args).map Value.erased = (r'.call this' method args').map Value.erased := by
  rw [Registry.call, Registry.call, h.display_eq, ← Record.type_congr hthis]
  rcases cases_rel (h.memberCalled? this.type method) with ⟨hm, hm'⟩ | ⟨m, m', hm, hm', halike⟩
  · rw [hm, hm']
  · rw [hm, hm']
    obtain ⟨hname, hkind⟩ := halike.member
    dsimp only
    generalize m.member.kind = kind at hkind
    generalize m'.member.kind = kind' at hkind
    cases hkind with
    | method hbody => exact hbody hthis hargs
    | stored _ =>
      have hempty : args.isEmpty = args'.isEmpty := by
        have hlength := congrArg List.isEmpty hargs
        simpa using hlength
      dsimp only
      rw [hempty]
      split
      · obtain ⟨label, hn, hn'⟩ := hname
        rw [hhome.field?_eq hn, hhome'.field?_eq hn']
        have hvalue := Value.erased_getD (Record.get?_congr hthis label)
        exact congrArg Except.ok hvalue
      · rfl

end Registry

end ObjectSystem
