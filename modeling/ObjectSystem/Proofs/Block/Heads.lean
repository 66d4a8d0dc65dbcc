import ObjectSystem.Proofs.Block.References

/-!
# The types of blocks

The type that is declared for a block has what is written at its head (`IsHead`): its kind, its
members in their order, its name in the scope, and its parent. It comes next, and the types before
it stay (`declareHead_eq_ok`).
-/

namespace ObjectSystem

open Registry Catalog

namespace Registry

variable {r s : Registry} {scope : Scope} {b : Block} {h : Handle} {t u : TypeEntry}

def WrittenAs (s : Registry) (written : List WrittenMember) (members : List Member) : Prop :=
  written.Forall₂ (fun w m => s.names.Holds w.name m.name ∧ m.kind = w.kind) members

/-- The type has what is written at the head of the block, except for the roles that it consumes.
If the block has a name, its qualified form means the type; otherwise the type has the generated
name of its number. -/
structure IsHead (s : Registry) (scope : Scope) (b : Block) (h : Handle) (t : TypeEntry) :
    Prop where
  kind_eq : t.form.kind = b.kind
  isAbstract_eq : t.isAbstract = b.isAbstract
  isTag_eq : t.isTag = false
  isSealed_eq : t.isSealed = false
  parent : Option.Rel (·.PointsTo s scope ·) b.parent t.parent
  members : s.WrittenAs b.members t.members
  named : ∀ written, b.name = some written → t.isAnonymous = false ∧ s.Refers scope written h
  unnamed : b.name = none → t.isAnonymous ∧
    s.names.Holds (s.config.generatedName b.kind (s.anonymousNumber h)) t.name

theorem WrittenAs.mono {written : List WrittenMember} {members : List Member}
    (hms : r.WrittenAs written members) (hgrows : r.names.Grows s.names) :
    s.WrittenAs written members :=
  List.Forall₂.imp (fun _ _ hm => ⟨hgrows.holds hm.1, hm.2⟩) hms

theorem Labelled.holds_generatedName (hs : s.Labelled) (ht : s.typeAt? h = some t)
    (hanon : t.isAnonymous) :
    s.names.Holds (s.config.generatedName t.form.kind (s.anonymousNumber h)) t.name := by
  obtain ⟨label, hheld, hlabels⟩ := hs.type ht
  rw [Labels, if_pos hanon] at hlabels
  exact hlabels ▸ hheld

theorem pointsTo_mono {ref : Option ParentRef} {p : Option Handle}
    (href : Option.Rel (·.PointsTo r scope ·) ref p) (hrs : Evolves r s) :
    Option.Rel (·.PointsTo s scope ·) ref p := by
  cases href with
  | none => exact .none
  | some h => exact .some (h.mono hrs)

theorem IsHead.mono (hhead : r.IsHead scope b h t) (hrs : Evolves r s) (hs : s.Labelled)
    {roles : List Handle} (hentry : s.typeAt? h = some { t with roles }) :
    s.IsHead scope b h { t with roles } where
  kind_eq := hhead.kind_eq
  isAbstract_eq := hhead.isAbstract_eq
  isTag_eq := hhead.isTag_eq
  isSealed_eq := hhead.isSealed_eq
  parent := pointsTo_mono hhead.parent hrs
  members := hhead.members.mono hrs.succeeds.grows
  named written hname := by
    obtain ⟨hnamed, hrefers⟩ := hhead.named written hname
    exact ⟨hnamed, hrefers.mono hrs⟩
  unnamed hname := by
    obtain ⟨hanon, -⟩ := hhead.unnamed hname
    have hheld := hs.holds_generatedName hentry hanon
    dsimp only at hheld
    rw [hhead.kind_eq] at hheld
    exact ⟨hanon, hheld⟩

theorem resolve?_of_place (hplaced : r.place t = .ok s) (hnamed : t.isAnonymous = false) :
    s.symbols.resolve? t.name = some t.handle := by
  rcases place_cases hplaced with ⟨hanon, -⟩ | ⟨-, symbols, hsymbols, rfl⟩
  · rw [hnamed] at hanon
    cases hanon
  · exact (SymbolTable.resolve?_register hsymbols _).trans (if_pos rfl)

end Registry

namespace Editing

variable {r s : Registry} {scope : Scope} {h : Handle}

theorem outcome_internMember (m : WrittenMember) (r : Registry) :
    (internMember m).outcome r =
      (.ok ⟨(r.names.intern m.name).1, m.kind⟩, { r with names := (r.names.intern m.name).2 }) :=
  rfl

theorem internMembers_eq_ok {ms : List WrittenMember} {members : List Member}
    (hok : (ms.mapM internMember).outcome r = (.ok members, s)) :
    s.WrittenAs ms members ∧ s.toCatalog = r.toCatalog ∧ r.names.Grows s.names := by
  induction ms generalizing r members with
  | nil =>
    cases hok
    exact ⟨.nil, rfl, .refl _⟩
  | cons m ms ih =>
    rw [List.mapM_cons] at hok
    obtain ⟨_, _, hfirst, hok⟩ := outcome_bind_eq_ok.mp hok
    rw [outcome_internMember] at hfirst
    cases hfirst
    obtain ⟨rest, t, hmapped, hpure⟩ := outcome_bind_eq_ok.mp hok
    cases hpure
    obtain ⟨hrest, hsame, hgrows⟩ := ih hmapped
    exact ⟨.cons ⟨hgrows.holds (r.names.holds_intern m.name), rfl⟩ hrest, hsame,
      (r.names.grows_intern m.name).trans hgrows⟩

/-- The second registry has one more type, with the form and the members asked for. If it has a
name, the name is bound to it. -/
structure Declares (r s : Registry) (name : Option String) (form : Form)
    (ms : List WrittenMember) (t : TypeEntry) : Prop where
  appends : r.Appends t s.toCatalog
  form_eq : t.form = form
  isAnonymous_eq : t.isAnonymous = name.isNone
  roles_eq : t.roles = []
  isSealed_eq : t.isSealed = false
  members : s.WrittenAs ms t.members
  means : ∀ q, name = some q → s.Means q r.nextHandle

theorem declareWritten_eq_ok {name : Option String} {form : Form} {ms : List WrittenMember}
    (hok : (ms.mapM internMember >>= declareType name form).outcome r = (.ok h, s)) :
    h = r.nextHandle ∧ ∃ t, Declares r s name form ms t := by
  obtain ⟨members, r₁, hmembers, hnamed⟩ := outcome_bind_eq_ok.mp hok
  obtain ⟨hwritten, hsame, -⟩ := internMembers_eq_ok hmembers
  obtain ⟨typeName, r₂, hname, hrest⟩ := outcome_bind_eq_ok.mp hnamed
  rcases outcome_internTypeName r₁ form.kind name with ⟨e, herror⟩ | ⟨-, hinterned⟩
  · rw [herror] at hname
    cases hname
  rw [hinterned, outcome_intern] at hname
  cases hname
  obtain ⟨_, _, hget, hplace⟩ := outcome_bind_eq_ok.mp hrest
  cases hget
  obtain ⟨_, _, hinserted, hpure⟩ := outcome_bind_eq_ok.mp hplace
  cases hpure
  rw [outcome_step] at hinserted
  split at hinserted <;> cases hinserted
  rename_i hinserted
  obtain ⟨-, -, hplaced⟩ := insertType_eq_ok hinserted
  obtain ⟨hnames, -, happends⟩ := place_eq_ok hplaced
  have hnext : r₁.nextHandle = r.nextHandle := congrArg Catalog.nextHandle hsame
  refine ⟨hnext, _, ⟨hsame ▸ happends, rfl, rfl, rfl, rfl, hwritten.mono ?_, ?_⟩⟩
  · rw [hnames]
    exact r₁.names.grows_intern _
  · rintro q rfl
    have hbound := resolve?_of_place hplaced rfl
    refine ⟨_, ?_, hbound.trans (congrArg some hnext)⟩
    rw [hnames]
    exact r₁.names.holds_intern q

theorem Declares.isHead {qualified : Option String} {form : Form} {b : Block} {t : TypeEntry}
    (ht : Declares r s qualified form b.members t) (hrs : Evolves r s) (hs : s.Labelled)
    (hname : Option.Rel (fun written q => scope.qualify written = .ok q) b.name qualified)
    (hkind : form.kind = b.kind) (habstract : t.isAbstract = b.isAbstract)
    (htag : t.isTag = false) (hparent : Option.Rel (·.PointsTo r scope ·) b.parent t.parent) :
    s.IsHead scope b r.nextHandle t where
  kind_eq := by rw [ht.form_eq, hkind]
  isAbstract_eq := habstract
  isTag_eq := htag
  isSealed_eq := ht.isSealed_eq
  parent := pointsTo_mono hparent hrs
  members := ht.members
  named written hwritten := by
    have hanon := ht.isAnonymous_eq
    have hmeans := ht.means
    rw [hwritten] at hname
    cases hname with
    | some hq => exact ⟨hanon, _, hq, hmeans _ rfl⟩
  unnamed hwritten := by
    have hanon := ht.isAnonymous_eq
    rw [hwritten] at hname
    cases hname with
    | none =>
      have hheld := hs.holds_generatedName ht.appends.typeAt?_new hanon
      rw [ht.form_eq, hkind] at hheld
      exact ⟨hanon, hheld⟩

/-- The type of a block comes next and has what is written at the head of the block. A role that
extends a class is not declared. -/
theorem declareHead_eq_ok {b : Block} (hr : r.Labelled)
    (hok : (declareHead scope b.kind b.name b.isAbstract b.parent b.members).outcome r =
      (.ok h, s)) :
    h = r.nextHandle ∧ ∃ t, r.Appends t s.toCatalog ∧ t.roles = [] ∧
      s.IsHead scope b h t := by
  obtain ⟨kind, name, isAbstract, parent, roles, members, nested⟩ := b
  dsimp only at hok
  have hevolves := (evolving_declareHead scope kind name isAbstract parent members).evolves hok
  have hs := hevolves.labelled hr
  obtain ⟨qualified, _, hqualified, hguarded⟩ := outcome_bind_eq_ok.mp hok
  obtain ⟨hname, rfl⟩ := optionMapM_eq_ok (fun _ _ _ => qualify_eq_ok) hqualified
  cases kind with
  | cls =>
    obtain ⟨-, hrest⟩ := guard_eq_ok hguarded
    obtain ⟨p, _, hparent, hdeclare⟩ := outcome_bind_eq_ok.mp hrest
    obtain ⟨hparent, rfl⟩ := optionMapM_eq_ok (fun _ _ _ => parentHandle_eq_ok) hparent
    obtain ⟨rfl, t, ht⟩ := declareWritten_eq_ok hdeclare
    have hform := ht.form_eq
    refine ⟨rfl, t, ht.appends, ht.roles_eq, ht.isHead hevolves hs hname rfl ?_ ?_ ?_⟩
    all_goals simp only [TypeEntry.isAbstract, TypeEntry.isTag, TypeEntry.parent, hform]
    exact hparent
  | role =>
    obtain ⟨hconcrete, hrest⟩ := guard_eq_ok hguarded
    obtain ⟨p, _, hparent, hdeclare⟩ := outcome_bind_eq_ok.mp hrest
    obtain ⟨hparent, rfl⟩ := optionMapM_eq_ok (fun _ _ _ => parentHandle_eq_ok) hparent
    obtain ⟨ms, r₁, hinterned, hdeclare⟩ := outcome_bind_eq_ok.mp hdeclare
    obtain ⟨k, r₂, hdeclared, hextended⟩ := outcome_bind_eq_ok.mp hdeclare
    obtain ⟨rfl, t, ht⟩ :=
      declareWritten_eq_ok (outcome_bind_eq_ok.mpr ⟨ms, r₁, hinterned, hdeclared⟩)
    have hform := ht.form_eq
    cases p with
    | some p =>
      obtain ⟨_, r₃, hextend, -⟩ := outcome_bind_eq_ok.mp hextended
      rw [extend, outcome_step] at hextend
      split at hextend <;> cases hextend
      rename_i hextend
      have hclass := (extend_eq_ok hextend).1.isClass
      rw [isClass_of_entry ht.appends.typeAt?_new, TypeEntry.isClass, hform] at hclass
      cases hclass
    | none =>
      cases hextended
      have habstract : isAbstract = false := by simpa using hconcrete
      refine ⟨rfl, t, ht.appends, ht.roles_eq, ht.isHead hevolves hs hname rfl ?_ ?_ ?_⟩
      all_goals simp only [TypeEntry.isAbstract, TypeEntry.isTag, TypeEntry.parent, hform]
      · exact habstract.symm
      · exact hparent

end Editing

end ObjectSystem
