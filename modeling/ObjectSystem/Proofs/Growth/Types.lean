import ObjectSystem.Proofs.Naming.Binding

/-!
# Types that grow

Of a declared type nothing is ever taken back: it may get a parent if it has none, more roles and
more members after those it has, and a seal (`TypeEntry.GrowsTo`). A catalog grows when its types do
and its names stay bound (`Catalog.Grows`); every change of a catalog is a growth.
-/

namespace ObjectSystem

namespace TypeEntry

structure GrowsTo (t u : TypeEntry) : Prop where
  handle_eq : u.handle = t.handle
  name_eq : u.name = t.name
  kind_eq : u.form.kind = t.form.kind
  isAnonymous_eq : u.isAnonymous = t.isAnonymous
  isAbstract_eq : u.isAbstract = t.isAbstract
  isTag_eq : u.isTag = t.isTag
  parent : ∀ {p}, t.parent = some p → u.parent = some p
  roles : t.roles <+: u.roles
  members : t.members <+: u.members
  isSealed : t.isSealed → u.isSealed

namespace GrowsTo

variable {t u v : TypeEntry}

theorem of_eq (hhandle : u.handle = t.handle) (hname : u.name = t.name)
    (hanon : u.isAnonymous = t.isAnonymous) (hform : u.form = t.form)
    (hroles : t.roles <+: u.roles) (hmembers : t.members <+: u.members)
    (hsealed : t.isSealed → u.isSealed) : t.GrowsTo u where
  handle_eq := hhandle
  name_eq := hname
  kind_eq := congrArg Form.kind hform
  isAnonymous_eq := hanon
  isAbstract_eq := by rw [isAbstract, isAbstract, hform]
  isTag_eq := by rw [isTag, isTag, hform]
  parent hp := by rwa [TypeEntry.parent, hform]
  roles := hroles
  members := hmembers
  isSealed := hsealed

theorem refl (t : TypeEntry) : t.GrowsTo t :=
  .of_eq rfl rfl rfl rfl List.prefix_rfl List.prefix_rfl id

theorem trans (htu : t.GrowsTo u) (huv : u.GrowsTo v) : t.GrowsTo v where
  handle_eq := huv.handle_eq.trans htu.handle_eq
  name_eq := huv.name_eq.trans htu.name_eq
  kind_eq := huv.kind_eq.trans htu.kind_eq
  isAnonymous_eq := huv.isAnonymous_eq.trans htu.isAnonymous_eq
  isAbstract_eq := huv.isAbstract_eq.trans htu.isAbstract_eq
  isTag_eq := huv.isTag_eq.trans htu.isTag_eq
  parent hp := huv.parent (htu.parent hp)
  roles := htu.roles.trans huv.roles
  members := htu.members.trans huv.members
  isSealed hs := huv.isSealed (htu.isSealed hs)

theorem withRole (t : TypeEntry) (role : Handle) : t.GrowsTo (t.withRole role) :=
  .of_eq rfl rfl rfl rfl (List.prefix_append _ _) List.prefix_rfl id

theorem withMember (t : TypeEntry) (m : Member) : t.GrowsTo (t.withMember m) :=
  .of_eq rfl rfl rfl rfl List.prefix_rfl (List.prefix_append _ _) id

theorem asSealed (t : TypeEntry) : t.GrowsTo t.asSealed :=
  .of_eq rfl rfl rfl rfl List.prefix_rfl List.prefix_rfl fun _ => rfl

theorem withParent {parent : Handle} (hnone : t.parent = none) :
    t.GrowsTo (t.withParent parent) := by
  unfold TypeEntry.withParent
  split
  · rename_i isAbstract existing hform
    exact {
      handle_eq := rfl
      name_eq := rfl
      kind_eq := by rw [hform]; rfl
      isAnonymous_eq := rfl
      isAbstract_eq := by simp only [TypeEntry.isAbstract, hform]
      isTag_eq := by simp only [isTag, hform]
      parent := fun hp => absurd (hnone.symm.trans hp) (by simp)
      roles := List.prefix_rfl
      members := List.prefix_rfl
      isSealed := id }
  · exact refl t

theorem isRole_eq (h : t.GrowsTo u) : u.isRole = t.isRole := by
  rw [isRole, h.kind_eq, isRole]

theorem declares (h : t.GrowsTo u) {name : Name} (hd : t.declares name) : u.declares name := by
  rw [declares_eq_any, List.any_eq_true] at hd ⊢
  obtain ⟨m, hm, hname⟩ := hd
  exact ⟨m, h.members.subset hm, hname⟩

end GrowsTo

end TypeEntry

namespace Catalog

/-- Every type of the first catalog is in the second one, as it was or grown, and every name is
bound to the type that it was bound to. -/
structure Grows (c d : Catalog) : Prop where
  typeAt? : ∀ {h t}, c.typeAt? h = some t → ∃ u, d.typeAt? h = some u ∧ t.GrowsTo u
  resolve? : ∀ {name h}, c.symbols.resolve? name = some h → d.symbols.resolve? name = some h

namespace Grows

variable {c d e : Catalog} {h : Handle} {t : TypeEntry}

theorem refl (c : Catalog) : c.Grows c := ⟨fun ht => ⟨_, ht, .refl _⟩, id⟩

theorem trans (hcd : c.Grows d) (hde : d.Grows e) : c.Grows e where
  typeAt? ht := by
    obtain ⟨u, hu, htu⟩ := hcd.typeAt? ht
    obtain ⟨v, hv, huv⟩ := hde.typeAt? hu
    exact ⟨v, hv, htu.trans huv⟩
  resolve? hr := hde.resolve? (hcd.resolve? hr)

theorem modify {f : TypeEntry → TypeEntry} (hf : ∀ t, c.typeAt? h = some t → t.GrowsTo (f t)) :
    c.Grows (c.modify h f) where
  typeAt? {k t} ht := by
    rw [typeAt?_modify]
    split
    · rename_i heq
      subst heq
      exact ⟨f t, by rw [ht, Option.map_some], hf t ht⟩
    · exact ⟨t, ht, .refl t⟩
  resolve? := id

theorem addRole (type role : Handle) : c.Grows (c.addRole type role) :=
  modify fun t _ => .withRole t role

theorem addMember (type : Handle) (m : Member) : c.Grows (c.addMember type m) :=
  modify fun t _ => .withMember t m

theorem addParent {type parent : Handle} (hnone : c.parent? type = none) :
    c.Grows (c.addParent type parent) :=
  modify fun t ht => .withParent (by rwa [← parent?_of_entry ht])

theorem of_seals (hcd : Seals c d) (hsymbols : d.symbols = c.symbols) : c.Grows d where
  typeAt? {h t} ht := by
    rcases hcd.typeAt?_eq h with heq | heq
    · exact ⟨t, heq.trans ht, .refl t⟩
    · exact ⟨t.asSealed, by rw [heq, ht, Option.map_some], .asSealed t⟩
  resolve? hr := by rwa [hsymbols]

theorem sealType (c : Catalog) (type : Handle) : c.Grows (c.sealType type) :=
  of_seals (seals_sealType c type) (symbols_sealEach c _)

theorem sealAll (c : Catalog) : c.Grows c.sealAll := of_seals (seals_sealAll c) rfl

theorem pushAnonymous (c : Catalog) (t : TypeEntry) : c.Grows (c.pushAnonymous t) where
  typeAt? {h u} hu :=
    ⟨u, by rw [(appends_pushAnonymous c t).typeAt?_old (known_of_typeAt? hu), hu], .refl u⟩
  resolve? := id

theorem push {symbols : SymbolTable} (hsymbols : c.symbols.register t.name t.handle = .ok symbols) :
    c.Grows (c.push t symbols) where
  typeAt? {h u} hu :=
    ⟨u, by rw [(appends_push c t symbols).typeAt?_old (known_of_typeAt? hu), hu], .refl u⟩
  resolve? {name h} hr := by
    -- a name that is bound is not the one that is bound now
    have hne : t.name ≠ name := by
      rintro rfl
      exact absurd ((SymbolTable.resolve?_of_register hsymbols).symm.trans hr) (by simp)
    rwa [Catalog.push, SymbolTable.resolve?_register hsymbols, if_neg hne]

end Grows

end Catalog

end ObjectSystem
