import ObjectSystem.Proofs.Graph.Declaration
import ObjectSystem.Proofs.Naming.Generated
import ObjectSystem.Proofs.Sealing.Seals

/-!
# What names are bound to

The symbol table binds the name of each named type to that type and holds nothing else, and the
counter of generated names is the number of anonymous types (`Bound`). Anonymous types are numbered
in the order of their declaration, so different ones have different numbers
(`anonymousNumber_injective`).
-/

namespace ObjectSystem

def TypeEntry.naming (t : TypeEntry) : Name × Bool × Kind := (t.name, t.isAnonymous, t.form.kind)

@[simp] theorem TypeEntry.naming_withParent (t : TypeEntry) (parent : Handle) :
    (t.withParent parent).naming = t.naming := by
  unfold withParent
  split
  · rename_i hform
    simp only [naming, hform]
    rfl
  · rfl

namespace SymbolTable

variable {s t : SymbolTable} {name : Name} {type : Handle}

theorem register_eq_ok_iff : s.register name type = .ok t ↔
    s.resolve? name = none ∧ t = ⟨s.bindings.insert name type⟩ := by
  rw [register]
  cases s.resolve? name with
  | some existing => simp
  | none => simp [eq_comm]

theorem resolve?_of_register (h : s.register name type = .ok t) : s.resolve? name = none :=
  (register_eq_ok_iff.mp h).1

theorem size_register (h : s.register name type = .ok t) : t.size = s.size + 1 := by
  obtain ⟨hnone, rfl⟩ := register_eq_ok_iff.mp h
  have hnew : s.bindings.contains name = false := by
    rw [Std.TreeMap.contains_eq_isSome_getElem?, ← resolve?, hnone]
    rfl
  rw [size, Std.TreeMap.size_insert, hnew]
  rfl

end SymbolTable

namespace Catalog

variable {c d : Catalog} {h k : Handle} {t u : TypeEntry}

def isAnonymous (c : Catalog) (h : Handle) : Bool := (c.typeAt? h).any TypeEntry.isAnonymous

def isNamed (c : Catalog) (h : Handle) : Bool := (c.typeAt? h).any (!·.isAnonymous)

def anonymousNumber (c : Catalog) (h : Handle) : Nat :=
  (c.types.toList.take (h.index + 1)).countP TypeEntry.isAnonymous

/-- A string by which the type may be called: the generated one of its number if it is anonymous,
and any that is not reserved otherwise. -/
def Labels (c : Catalog) (h : Handle) (t : TypeEntry) (label : String) : Prop :=
  if t.isAnonymous then label = c.config.generatedName t.form.kind (c.anonymousNumber h)
  else c.config.reserves label = false

structure Bound (c : Catalog) : Prop where
  resolve?_iff : ∀ {name h}, c.symbols.resolve? name = some h ↔
    ∃ t, c.typeAt? h = some t ∧ t.isAnonymous = false ∧ t.name = name
  size_eq : c.symbols.size = c.types.toList.countP (!·.isAnonymous)
  anonymousCount_eq : c.anonymousCount = c.types.toList.countP TypeEntry.isAnonymous

/-! ## Numbers -/

theorem anonymousNumber_lt (hk : c.typeAt? k = some u) (hu : u.isAnonymous)
    (hlt : h.index < k.index) : c.anonymousNumber h < c.anonymousNumber k := by
  rw [typeAt?_eq_getElem?] at hk
  have hlast : c.anonymousNumber k =
      (c.types.toList.take k.index).countP TypeEntry.isAnonymous + 1 := by
    rw [anonymousNumber, List.take_add_one, hk, List.countP_append]
    simp [hu]
  have hprefix : c.types.toList.take (h.index + 1) <+: c.types.toList.take k.index :=
    List.take_prefix_take_left hlt
  have hle := hprefix.sublist.countP_le (p := TypeEntry.isAnonymous)
  rw [hlast, anonymousNumber]
  omega

theorem anonymousNumber_injective (hh : c.typeAt? h = some t) (ht : t.isAnonymous)
    (hk : c.typeAt? k = some u) (hu : u.isAnonymous)
    (heq : c.anonymousNumber h = c.anonymousNumber k) : h = k := by
  obtain ⟨i⟩ := h
  obtain ⟨j⟩ := k
  rcases Nat.lt_trichotomy i j with hlt | rfl | hlt
  · exact absurd heq (Nat.ne_of_lt (anonymousNumber_lt hk hu hlt))
  · rfl
  · exact absurd heq.symm (Nat.ne_of_lt (anonymousNumber_lt hh ht hlt))

/-- Two types that may be called by one string are both named, or they are one type. -/
theorem Labels.eq_or_named {label : String} (hh : c.typeAt? h = some t) (hk : c.typeAt? k = some u)
    (ht : c.Labels h t label) (hu : c.Labels k u label) :
    h = k ∨ t.isAnonymous = false ∧ u.isAnonymous = false := by
  rw [Labels] at ht hu
  cases ht_anon : t.isAnonymous <;> cases hu_anon : u.isAnonymous <;>
    simp only [ht_anon, hu_anon, Bool.false_eq_true, if_false, if_true] at ht hu
  · exact .inr ⟨rfl, rfl⟩
  · rw [hu, c.config.reserves_generatedName] at ht
    cases ht
  · rw [ht, c.config.reserves_generatedName] at hu
    cases hu
  · exact .inl (anonymousNumber_injective hh ht_anon hk hu_anon
      (Config.generatedName_injective (ht.symm.trans hu)))

/-! ## Changes that name no type -/

theorem symbols_sealEach (c : Catalog) (hs : List Handle) :
    (c.sealEach hs).symbols = c.symbols := by
  induction hs generalizing c with
  | nil => rfl
  | cons a rest ih => exact ih (c.sealOne a)

theorem anonymousCount_sealEach (c : Catalog) (hs : List Handle) :
    (c.sealEach hs).anonymousCount = c.anonymousCount := by
  induction hs generalizing c with
  | nil => rfl
  | cons a rest ih => exact ih (c.sealOne a)

theorem Agree.map_toList_eq {α : Type} {view : TypeEntry → α} (hcd : Agree view c d) :
    d.types.toList.map view = c.types.toList.map view := by
  apply List.ext_getElem?
  intro i
  have heq := hcd.map_typeAt?_eq ⟨i⟩
  rwa [typeAt?_eq_getElem?, typeAt?_eq_getElem?, ← List.getElem?_map, ← List.getElem?_map] at heq

theorem Agree.countP_eq {view : TypeEntry → Bool} (hcd : Agree view c d) (n : Nat) :
    (d.types.toList.take n).countP view = (c.types.toList.take n).countP view := by
  have heq := congrArg (fun l => (l.take n).countP id) hcd.map_toList_eq
  simpa only [← List.map_take, List.countP_map, Function.id_comp] using heq

structure SameNaming (c d : Catalog) : Prop where
  naming : Agree TypeEntry.naming c d
  symbols_eq : d.symbols = c.symbols
  config_eq : d.config = c.config
  anonymousCount_eq : d.anonymousCount = c.anonymousCount

namespace SameNaming

theorem modify {f : TypeEntry → TypeEntry} (hf : ∀ t, (f t).naming = t.naming) :
    SameNaming c (c.modify h f) :=
  ⟨.modify hf, rfl, rfl, rfl⟩

theorem agree_isAnonymous (hcd : SameNaming c d) : Agree TypeEntry.isAnonymous c d := by
  refine ⟨hcd.naming.size_eq, fun h => ?_⟩
  have heq := congrArg (Option.map fun naming => naming.2.1) (hcd.naming.map_typeAt?_eq h)
  rwa [Option.map_map, Option.map_map] at heq

theorem anonymousNumber_eq (hcd : SameNaming c d) (h : Handle) :
    d.anonymousNumber h = c.anonymousNumber h :=
  hcd.agree_isAnonymous.countP_eq _

theorem labels (hcd : SameNaming c d) {label : String} (htu : t.naming = u.naming)
    (h' : c.Labels h t label) : d.Labels h u label := by
  simp only [TypeEntry.naming, Prod.mk.injEq] at htu
  obtain ⟨-, hanon, hkind⟩ := htu
  rwa [Labels, hcd.config_eq, hcd.anonymousNumber_eq, ← hanon, ← hkind]

theorem bound (hcd : SameNaming c d) (hc : c.Bound) : d.Bound where
  resolve?_iff {name h} := by
    have hentries : (∃ t, d.typeAt? h = some t ∧ t.isAnonymous = false ∧ t.name = name) ↔
        ∃ t, c.typeAt? h = some t ∧ t.isAnonymous = false ∧ t.name = name := by
      have heq := hcd.naming.any_eq (fun n => !n.2.1 && n.1 == name) h
      simpa [Option.any_eq_true, TypeEntry.naming] using congrArg (· = true) heq
    rw [hcd.symbols_eq, hentries]
    exact hc.resolve?_iff
  size_eq := by
    have hviews : Agree (!·.isAnonymous) c d :=
      ⟨hcd.naming.size_eq, fun h => by
        have heq := congrArg (Option.map not) (hcd.agree_isAnonymous.map_typeAt?_eq h)
        rwa [Option.map_map, Option.map_map] at heq⟩
    have heq := congrArg (List.countP id) hviews.map_toList_eq
    rw [List.countP_map, List.countP_map] at heq
    rw [hcd.symbols_eq, hc.size_eq]
    exact heq.symm
  anonymousCount_eq := by
    have heq := congrArg (List.countP id) hcd.agree_isAnonymous.map_toList_eq
    rw [List.countP_map, List.countP_map] at heq
    rw [hcd.anonymousCount_eq, hc.anonymousCount_eq]
    exact heq.symm

theorem sealEach (c : Catalog) (hs : List Handle) : SameNaming c (c.sealEach hs) where
  naming := (seals_sealEach c hs).agree fun _ => rfl
  symbols_eq := symbols_sealEach c hs
  config_eq := config_sealEach c hs
  anonymousCount_eq := anonymousCount_sealEach c hs

theorem sealAll (c : Catalog) : SameNaming c c.sealAll :=
  ⟨(seals_sealAll c).agree fun _ => rfl, rfl, rfl, rfl⟩

end SameNaming

/-! ## Declarations -/

namespace Appends

theorem toList_eq (hd : c.Appends t d) : d.types.toList = c.types.toList ++ [t] := by
  rw [hd, Array.toList_push]

theorem anonymousNumber_old (hd : c.Appends t d) (hk : c.Known h) :
    d.anonymousNumber h = c.anonymousNumber h := by
  have hle : h.index + 1 ≤ c.types.toList.length := by
    rw [Array.length_toList]
    exact hk
  rw [anonymousNumber, hd.toList_eq, List.take_append_of_le_length hle, anonymousNumber]

theorem anonymousNumber_new (hd : c.Appends t d) (ht : t.isAnonymous) :
    d.anonymousNumber c.nextHandle = c.types.toList.countP TypeEntry.isAnonymous + 1 := by
  have hlen : (c.types.toList ++ [t]).length ≤ c.nextHandle.index + 1 := by
    simp [nextHandle]
  rw [anonymousNumber, hd.toList_eq, List.take_of_length_le hlen, List.countP_append]
  simp [ht]

theorem labels_old (hd : c.Appends t d) (hconfig : d.config = c.config) (hk : c.Known h)
    {label : String} (hu : c.Labels h u label) : d.Labels h u label := by
  rwa [Labels, hconfig, hd.anonymousNumber_old hk]

end Appends

theorem Bound.push {symbols : SymbolTable} (hc : c.Bound) (hhandle : t.handle = c.nextHandle)
    (ht : t.isAnonymous = false) (hsymbols : c.symbols.register t.name t.handle = .ok symbols) :
    (c.push t symbols).Bound where
  resolve?_iff {name h} := by
    have happends := appends_push c t symbols
    show symbols.resolve? name = some h ↔ _
    rw [SymbolTable.resolve?_register hsymbols, happends.typeAt?_eq, hhandle]
    have hfresh := SymbolTable.resolve?_of_register hsymbols
    by_cases hname : t.name = name <;> by_cases hh : h = c.nextHandle
    · subst hh
      simp [hname, ht]
    · -- no other type has the name that is bound now
      have hnone : ¬ ∃ u, c.typeAt? h = some u ∧ u.isAnonymous = false ∧ u.name = name := by
        rw [← hc.resolve?_iff, ← hname, hfresh]
        simp
      simp [hname, hh, Ne.symm hh, hnone]
    · subst hh
      have hnone : ¬ c.symbols.resolve? name = some c.nextHandle := by
        rw [hc.resolve?_iff, typeAt?_eq_none (not_known_nextHandle c)]
        simp
      simp [hname, hnone]
    · simp [hname, hh, hc.resolve?_iff]
  size_eq := by
    rw [(appends_push c t symbols).toList_eq, List.countP_append, ← hc.size_eq]
    simpa [ht, Catalog.push] using SymbolTable.size_register hsymbols
  anonymousCount_eq := by
    rw [(appends_push c t symbols).toList_eq, List.countP_append, ← hc.anonymousCount_eq]
    simp [ht, Catalog.push]

theorem Bound.pushAnonymous (hc : c.Bound) (ht : t.isAnonymous) : (c.pushAnonymous t).Bound where
  resolve?_iff {name h} := by
    have happends := appends_pushAnonymous c t
    show c.symbols.resolve? name = some h ↔ _
    rw [hc.resolve?_iff, happends.typeAt?_eq]
    by_cases hh : h = c.nextHandle
    · subst hh
      simp [typeAt?_eq_none (not_known_nextHandle c), ht]
    · simp [hh]
  size_eq := by
    rw [(appends_pushAnonymous c t).toList_eq, List.countP_append]
    simpa [ht, Catalog.pushAnonymous] using hc.size_eq
  anonymousCount_eq := by
    rw [(appends_pushAnonymous c t).toList_eq, List.countP_append, ← hc.anonymousCount_eq]
    simp [ht, Catalog.pushAnonymous]

theorem Bound.eq_of_name_eq (hc : c.Bound) (hh : c.typeAt? h = some t)
    (hk : c.typeAt? k = some u) (ht : t.isAnonymous = false) (hu : u.isAnonymous = false)
    (hname : t.name = u.name) : h = k := by
  have hbound_h := hc.resolve?_iff.mpr ⟨t, hh, ht, rfl⟩
  have hbound_k := hc.resolve?_iff.mpr ⟨u, hk, hu, rfl⟩
  rw [hname, hbound_k] at hbound_h
  exact (Option.some.inj hbound_h).symm

theorem bound_empty (config : Config) : Bound { config } where
  resolve?_iff := by simp [SymbolTable.resolve?, typeAt?]
  size_eq := rfl
  anonymousCount_eq := rfl

end Catalog

end ObjectSystem
