import ObjectSystem.Proofs.Interning.Room
import ObjectSystem.Proofs.Naming.Binding
import ObjectSystem.Proofs.Run.Names

/-!
# What types are called along runs

The interner, the symbol table, the counter and the types stay in step (`Labelled`): every type has
the name of a string that it may be called by, which is a generated one exactly for anonymous types.
So different types are called differently, and strings resolve to the types that are called so.
-/

namespace ObjectSystem

namespace Registry

open Catalog

variable {r s next : Registry} {h k : Handle} {t u : TypeEntry}

/-- Types have the names of strings that they may be called by. What a name is bound to is the type
that has it. -/
structure Labelled (r : Registry) : Prop where
  empty : r.names.get? "" = some .empty
  bound : r.Bound
  type : ∀ {h t}, r.typeAt? h = some t → ∃ label, r.names.Holds label t.name ∧ r.Labels h t label

/-- There was room for every generated name: a string without room would get the empty name. -/
def GeneratedHeld (r : Registry) : Prop :=
  ∀ {h t}, r.typeAt? h = some t → t.isAnonymous → t.name ≠ .empty

/-! ## Steps -/

namespace Labelled

theorem grows (hr : r.Labelled) {names : Interner} (hgrows : r.names.Grows names) :
    Labelled { r with names } where
  empty := hgrows.get?_eq_some hr.empty
  bound := hr.bound
  type ht := by
    obtain ⟨label, hlabel, hlabels⟩ := hr.type ht
    exact ⟨label, hgrows.holds hlabel, hlabels⟩

theorem of_sameNaming {next : Catalog} (hr : r.Labelled) (hsame : SameNaming r.toCatalog next) :
    Labelled { r with toCatalog := next } where
  empty := hr.empty
  bound := hsame.bound hr.bound
  type ht := by
    obtain ⟨u, hu, heq⟩ := hsame.naming.exists_entry ht
    obtain ⟨label, hlabel, hlabels⟩ := hr.type hu
    have hlabels' := hsame.labels heq hlabels
    simp only [TypeEntry.naming, Prod.mk.injEq] at heq
    exact ⟨label, heq.1 ▸ hlabel, hlabels'⟩

end Labelled

/-- A type is placed under a name that is bound to it, or counted as anonymous. -/
theorem place_cases {entry : TypeEntry} (h : r.place entry = .ok next) :
    entry.isAnonymous ∧ next = { r with toCatalog := r.pushAnonymous entry } ∨
    entry.isAnonymous = false ∧ ∃ symbols,
      r.symbols.register entry.name entry.handle = .ok symbols ∧
      next = { r with toCatalog := r.push entry symbols } := by
  rw [place] at h
  split at h
  · rename_i hanon
    exact .inl ⟨hanon, (Except.ok.inj h).symm⟩
  · rename_i hanon
    split at h <;> cases h
    exact .inr ⟨by simpa using hanon, _, ‹_›, rfl⟩

theorem place_bound {entry : TypeEntry} (h : r.place entry = .ok next)
    (hhandle : entry.handle = r.nextHandle) (hr : r.Bound) : next.Bound := by
  rcases place_cases h with ⟨hanon, rfl⟩ | ⟨hanon, symbols, hsymbols, rfl⟩
  · exact hr.pushAnonymous hanon
  · exact hr.push hhandle hanon hsymbols

theorem labels_new {next : Catalog} {name : Name} {isAnonymous : Bool} {form : Form}
    {members : List Member} {label : String} (hr : r.Bound)
    (happends : r.Appends (r.newEntry name isAnonymous form members) next)
    (hconfig : next.config = r.config)
    (hlabel : if isAnonymous then label = r.generatedName form.kind
      else r.isReserved label = false) :
    next.Labels r.nextHandle (r.newEntry name isAnonymous form members) label := by
  rw [Labels, hconfig]
  cases isAnonymous with
  | false => exact hlabel
  | true =>
    rw [happends.anonymousNumber_new rfl, ← hr.anonymousCount_eq]
    exact hlabel.trans (r.generatedName_eq form.kind)

theorem Step.labelled (h : Step r s) (hr : r.Labelled) : s.Labelled := by
  cases h with
  | intern t => exact hr.grows (r.names.grows_intern t)
  | declare hname hlabel _ _ hnext =>
    obtain ⟨hnames, hconfig, happends⟩ := place_eq_ok hnext
    refine ⟨hnames ▸ hr.empty, place_bound hnext rfl hr.bound, fun {h u} hu => ?_⟩
    rw [happends.typeAt?_eq] at hu
    rw [hnames]
    split at hu
    · rename_i heq
      subst heq
      cases hu
      exact ⟨_, hname, labels_new hr.bound happends hconfig hlabel⟩
    · obtain ⟨label, hheld, hlabels⟩ := hr.type hu
      exact ⟨label, hheld, happends.labels_old hconfig (known_of_typeAt? hu) hlabels⟩
  | extend => exact hr.of_sameNaming (.modify fun t => TypeEntry.naming_withParent t _)
  | consume => exact hr.of_sameNaming (.modify fun _ => rfl)
  | addMember => exact hr.of_sameNaming (.modify fun _ => rfl)
  | sealType type => exact hr.of_sameNaming (.sealEach _ _)
  | sealAll => exact hr.of_sameNaming (.sealAll _)

theorem Evolves.labelled (h : Evolves r s) (hr : r.Labelled) : s.Labelled := by
  induction h with
  | refl => exact hr
  | tail _ hstep ih => exact hstep.labelled (ih hr)
  | rollBack _ hscratch ih _ => exact (ih hr).grows hscratch.succeeds.grows

theorem labelled_new (config : Config) {names : Interner} (hnames : Interner.empty.Grows names) :
    Labelled (.new config names) where
  empty := hnames.get?_eq_some Interner.get?_empty
  bound := bound_empty config
  type ht := absurd ht (by simp [new, typeAt?])

theorem Reachable.labelled (h : Reachable r) : r.Labelled := by
  obtain ⟨config, strings, hrun⟩ := h
  exact hrun.evolves.labelled (labelled_new config (Interner.grows_ofStrings_append [] strings))

/-! ## What strings resolve to -/

/-- A type has the name of a string that it may be called by. A named type for which there was no
room is called by the empty string. -/
theorem Labelled.exists_label (hr : r.Labelled) (ht : r.typeAt? h = some t)
    (hheld : t.isAnonymous → t.name ≠ .empty) :
    ∃ label, r.names.get? label = some t.name ∧ r.Labels h t label := by
  obtain ⟨label, hlabel, hlabels⟩ := hr.type ht
  rcases Interner.holds_iff.mp hlabel with hget | ⟨-, -, hempty⟩
  · exact ⟨label, hget, hlabels⟩
  · refine ⟨"", hempty ▸ hr.empty, ?_⟩
    cases hanon : t.isAnonymous with
    | true => exact absurd hempty (hheld hanon)
    | false => simpa [Labels, hanon] using r.config.reserves_empty

theorem Labelled.generatedHeld (hr : r.Labelled) (hroom : r.names.HasRoom) : r.GeneratedHeld := by
  intro h t ht hanon hname
  obtain ⟨label, hlabel, hlabels⟩ := hr.type ht
  have hsame : label = "" :=
    Interner.get?_injective (hlabel.get?_eq hroom) (hname ▸ hr.empty)
  rw [Labels, if_pos hanon, hsame] at hlabels
  have hreserved := r.config.reserves_generatedName t.form.kind (r.anonymousNumber h)
  rw [← hlabels, r.config.reserves_empty] at hreserved
  cases hreserved

theorem typeName?_of_entry (ht : r.typeAt? h = some t) :
    r.typeName? h = some (r.names.lookup t.name) := by
  rw [typeName?, ht, Option.map_some]

theorem Labelled.labels_of_typeName? (hr : r.Labelled) (ht : r.typeAt? h = some t)
    (hheld : t.isAnonymous → t.name ≠ .empty) {q : String} (hq : r.typeName? h = some q) :
    r.names.get? q = some t.name ∧ r.Labels h t q := by
  obtain ⟨label, hget, hlabels⟩ := hr.exists_label ht hheld
  rw [typeName?_of_entry ht, Interner.lookup_of_get? hget] at hq
  cases hq
  exact ⟨hget, hlabels⟩

theorem resolve?_eq_some {q : String} : r.resolve? q = some h ↔
    ∃ name, r.names.get? q = some name ∧ r.symbols.resolve? name = some h :=
  Option.bind_eq_some_iff

theorem Labelled.resolve?_iff (hr : r.Labelled) {q : String} :
    r.resolve? q = some h ↔ r.isNamed h ∧ r.typeName? h = some q := by
  have hbound := hr.bound
  constructor
  · intro hresolve
    obtain ⟨name, hget, hsymbol⟩ := resolve?_eq_some.mp hresolve
    obtain ⟨t, ht, hnamed, rfl⟩ := hbound.resolve?_iff.mp hsymbol
    refine ⟨by simp [isNamed, ht, hnamed], ?_⟩
    rw [typeName?_of_entry ht, Interner.lookup_of_get? hget]
  · rintro ⟨hnamed, hq⟩
    simp only [isNamed, Option.any_eq_true, Bool.not_eq_true'] at hnamed
    obtain ⟨t, ht, hnamed⟩ := hnamed
    obtain ⟨hget, -⟩ := hr.labels_of_typeName? ht (by simp [hnamed]) hq
    exact resolve?_eq_some.mpr ⟨t.name, hget, hbound.resolve?_iff.mpr ⟨t, ht, hnamed, rfl⟩⟩

theorem Labelled.eq_of_typeName?_eq (hr : r.Labelled) (hheld : r.GeneratedHeld) {q : String}
    (hh : r.typeName? h = some q) (hk : r.typeName? k = some q) : h = k := by
  obtain ⟨t, ht, -⟩ := Option.map_eq_some_iff.mp hh
  obtain ⟨u, hu, -⟩ := Option.map_eq_some_iff.mp hk
  obtain ⟨hget_t, hlabels_t⟩ := hr.labels_of_typeName? ht (hheld ht) hh
  obtain ⟨hget_u, hlabels_u⟩ := hr.labels_of_typeName? hu (hheld hu) hk
  rcases hlabels_t.eq_or_named ht hu hlabels_u with heq | ⟨hnamed_t, hnamed_u⟩
  · exact heq
  · exact hr.bound.eq_of_name_eq ht hu hnamed_t hnamed_u
      (Option.some.inj (hget_t.symm.trans hget_u))

theorem Labelled.not_reserves (hr : r.Labelled) (hnamed : r.isNamed h) {q : String}
    (hq : r.typeName? h = some q) : r.config.reserves q = false := by
  simp only [isNamed, Option.any_eq_true, Bool.not_eq_true'] at hnamed
  obtain ⟨t, ht, hnamed⟩ := hnamed
  obtain ⟨-, hlabels⟩ := hr.labels_of_typeName? ht (by simp [hnamed]) hq
  simpa [Labels, hnamed] using hlabels

theorem Labelled.reserves (hr : r.Labelled) (hheld : r.GeneratedHeld) (hanon : r.isAnonymous h)
    {q : String} (hq : r.typeName? h = some q) : r.config.reserves q := by
  simp only [isAnonymous, Option.any_eq_true] at hanon
  obtain ⟨t, ht, hanon⟩ := hanon
  obtain ⟨-, hlabels⟩ := hr.labels_of_typeName? ht (hheld ht) hq
  rw [Labels, if_pos hanon] at hlabels
  exact hlabels ▸ r.config.reserves_generatedName _ _

/-- Types are called differently. A string resolves to the named type that is called so; the symbol
table binds the names of these types and counts them, and the counter counts the anonymous ones.
What an anonymous type is called resolves to nothing in any earlier or later state and is what no
named type is called. -/
theorem reachable_names (hr : Reachable r) (hheld : r.GeneratedHeld) :
    (∀ h k q, r.typeName? h = some q → r.typeName? k = some q → h = k) ∧
    (∀ q h, r.resolve? q = some h ↔ r.isNamed h ∧ r.typeName? h = some q) ∧
    r.Bound ∧
    ∀ h q, r.isAnonymous h → r.typeName? h = some q →
      ∀ s, Reachable s → Run r s ∨ Run s r →
        s.resolve? q = none ∧ ∀ k, s.isNamed k → s.typeName? k ≠ some q := by
  refine ⟨fun h k q => hr.labelled.eq_of_typeName?_eq hheld,
    fun q h => hr.labelled.resolve?_iff, hr.labelled.bound,
    fun h q hanon hq s hs hrun => ?_⟩
  have hconfig : s.config = r.config := by
    rcases hrun with hrun | hrun
    · exact hrun.evolves.succeeds.config_eq
    · exact hrun.evolves.succeeds.config_eq.symm
  have htaken (k : Handle) (hnamed : s.isNamed k) : s.typeName? k ≠ some q := by
    intro hk
    have hfree := hs.labelled.not_reserves hnamed hk
    rw [hconfig, hr.labelled.reserves hheld hanon hq] at hfree
    cases hfree
  refine ⟨?_, htaken⟩
  rw [Option.eq_none_iff_forall_ne_some]
  intro k hk
  obtain ⟨hnamed, hname⟩ := hs.labelled.resolve?_iff.mp hk
  exact htaken k hnamed hname

/-- The farm in a namespace that ends in a colon, with an anonymous animal. -/
def strayFarm : Registry :=
  [.edit (.declareClass (some "Animal") none false [WrittenMember.optional "age"]),
    .edit (.declareClass none (some ⟨0⟩) false []),
    .edit (.tag ⟨1⟩ "Stray")].foldl Operation.after (.new { generatedSpace := ":" } .empty)

theorem reachable_strayFarm : Reachable strayFarm :=
  (reachable_new { generatedSpace := ":" }).run (run_foldl _ _)

/-- The stray is found by its name, and whatever is done next, the anonymous animal is not. -/
theorem strayFarm_names : strayFarm.GeneratedHeld ∧ strayFarm.resolve? "Stray" = some ⟨2⟩ ∧
    strayFarm.isAnonymous ⟨1⟩ ∧ strayFarm.typeName? ⟨1⟩ = some ":::Class1" ∧
    ∀ o : Operation, (o.after strayFarm).resolve? ":::Class1" = none := by
  have hr := reachable_strayFarm
  have hheld : strayFarm.GeneratedHeld :=
    hr.labelled.generatedHeld (by decide +kernel)
  obtain ⟨-, hresolve, -, hgenerated⟩ := reachable_names hr hheld
  have hstray : strayFarm.isNamed ⟨2⟩ ∧ strayFarm.typeName? ⟨2⟩ = some "Stray" := by
    decide +kernel
  have hanon : strayFarm.isAnonymous ⟨1⟩ := by decide +kernel
  have hname : strayFarm.typeName? ⟨1⟩ = some ":::Class1" := by decide +kernel
  refine ⟨hheld, (hresolve _ _).mpr hstray, hanon, hname, fun o => ?_⟩
  have hrun : Run strayFarm (o.after strayFarm) := .perform (.start _) o
  exact (hgenerated _ _ hanon hname _ (hr.run hrun) (.inl hrun)).1

end Registry

end ObjectSystem
