import ObjectSystem.Proofs.Twin.Blocks
import ObjectSystem.Proofs.Twin.Construction

/-!
# Runs side by side

Two registries may hold the same under different names: their interners were used by others before,
or kept the strings of edits that failed. Used in the same way from then on, they go on holding the
same and give the same answers to every question (`reachable_sameAnswers`), while strings may still
be interned on either side. So strings that are left over in an interner do no harm.
-/

namespace ObjectSystem

/-- Operations with the same arguments, but for values and method bodies, which are alike. -/
inductive Operation.Alike : Operation → Operation → Prop
  | edit {e e' : Edit} (h : e.Alike e') : Operation.Alike (.edit e) (.edit e')
  | sealType (type : Handle) : Operation.Alike (.sealType type) (.sealType type)
  | sealAll : Operation.Alike .sealAll .sealAll
  | instantiate (type : Handle) {fields fields' : List (String × Value)}
      (h : List.Forall₂ SuppliedAlike fields fields') :
      Operation.Alike (.instantiate type fields) (.instantiate type fields')
  | intern (s : String) : Operation.Alike (.intern s) (.intern s)

namespace Registry

open Catalog Editing

/-- Two registries are used in the same way. Meanwhile strings may be interned on one side only, and
edits and transactions that fail may be tried there: whatever leaves the types as they are. Bodies
of transactions succeed on both sides or on neither. -/
inductive SideBySide : Registry → Registry → Registry → Registry → Prop
  | start (r r' : Registry) : SideBySide r r' r r'
  | perform {r r' s s' : Registry} (h : SideBySide r r' s s') {o o' : Operation} (ho : o.Alike o') :
      SideBySide r r' (o.after s) (o'.after s')
  | onLeft {r r' s s' t : Registry} (h : SideBySide r r' s s') (hrun : Run s t)
      (hsame : t.toCatalog = s.toCatalog) : SideBySide r r' t s'
  | onRight {r r' s s' t' : Registry} (h : SideBySide r r' s s') (hrun : Run s' t')
      (hsame : t'.toCatalog = s'.toCatalog) : SideBySide r r' s t'
  | transaction {r r' s s' scratch scratch' : Registry} {ε ε' α α' : Type}
      (h : SideBySide r r' s s') (body : SideBySide s s' scratch scratch')
      (outcome : Except ε α) (outcome' : Except ε' α') (hsame : outcome.isOk = outcome'.isOk) :
      SideBySide r r' (s.settle outcome scratch) (s'.settle outcome' scratch')

/-- The names stand for the same string. A name that an interner has not issued stands for none. -/
def SameString (r r' : Registry) (n n' : Name) : Prop :=
  r.names.Issued n ∧ r'.names.Issued n' ∧ r.names.lookup n = r'.names.lookup n'

/-- The settings are the same, and so are the types when each name is replaced by its string. -/
structure SameTexts (r r' : Registry) : Prop where
  config_eq : r'.config = r.config
  types : List.Forall₂ (TypeEntry.Alike (SameString r r')) r.types.toList r'.types.toList

/-- Every question has the same answer in both registries, and every operation the same result: the
same handles, truth values, numbers and texts, values alike, and names of the same strings. -/
structure SameAnswers (r r' : Registry) : Prop where
  size_eq : r'.size = r.size
  size_symbols_eq : r'.symbols.size = r.symbols.size
  resolve?_eq : ∀ qualified, r'.resolve? qualified = r.resolve? qualified
  typeName?_eq : ∀ type, r'.typeName? type = r.typeName? type
  isA_eq : ∀ subject target, r'.isA subject target = r.isA subject target
  does_eq : ∀ subject target, r'.does subject target = r.does subject target
  memberCalled? : ∀ type label, Option.Rel (OwnedMember.Alike (SameString r r'))
    (r.memberCalled? type label) (r'.memberCalled? type label)
  can_eq : ∀ type label, r'.can type label = r.can type label
  ownerOf?_eq : ∀ type label, r'.ownerOf? type label = r.ownerOf? type label
  membersInForce : ∀ type, List.Forall₂ (OwnedMember.Alike (SameString r r'))
    (r.membersInForce type) (r'.membersInForce type)
  conflicts : ∀ type, List.Forall₂ (Provision.Alike (SameString r r')) (r.conflicts type)
    (r'.conflicts type)
  openInOrder_eq : ∀ type, r'.openInOrder type = r.openInOrder type
  /-- How many types sealing all would seal. -/
  openCount_eq : r'.openCount = r.openCount
  testNamed?_eq : ∀ qualified, r'.testNamed? qualified = r.testNamed? qualified
  helpers_eq : HelperTable.build r' = HelperTable.build r
  check?_eq : ∀ (table : HelperTable) helper subject,
    table.check? r'.toCatalog helper subject = table.check? r.toCatalog helper subject
  edit_eq : ∀ {e e' : Edit}, e.Alike e' → (e.run.outcome r).2.names.HasRoom →
    (e'.run.outcome r').2.names.HasRoom → (e.run.outcome r).1 = (e'.run.outcome r').1
  instantiate : ∀ type {fields fields' : List (String × Value)},
    List.Forall₂ SuppliedAlike fields fields' →
    Both (fun made made' => made.1.erased = made'.1.erased ∧
      made.1.AtHome r.names ∧ made'.1.AtHome r'.names)
      (r.instantiate type fields) (r'.instantiate type fields')
  /-- An instance is read by string through the name that its registry has for the string. -/
  get?_eq : ∀ {o o' : Instance}, o.erased = o'.erased → o.AtHome r.names → o'.AtHome r'.names →
    ∀ label, (r.names.get? label).bind o.field? = o.get? label ∧
      (r'.names.get? label).bind o'.field? = o'.get? label ∧
      (o.get? label).map Value.erased = (o'.get? label).map Value.erased
  call_eq : ∀ {this this' : Instance}, this.erased = this'.erased → this.AtHome r.names →
    this'.AtHome r'.names → ∀ method {args args' : List Value},
    args.map Value.erased = args'.map Value.erased →
    (r.call this method args).map Value.erased = (r'.call this' method args').map Value.erased

variable {r r' s s' : Registry}

/-! ## Registries that hold the same -/

theorem SameString.matches {n n' : Name} (h : SameString r r' n n') (hr : r.names.Sorted)
    (hr' : r'.names.Sorted) : r.names.Matches r'.names n n' := by
  obtain ⟨hissued, hissued', heq⟩ := h
  exact ⟨r.names.lookup n, hr.get?_lookup hissued, heq ▸ hr'.get?_lookup hissued'⟩

theorem sameString_of_matches {n n' : Name} (h : r.names.Matches r'.names n n') :
    SameString r r' n n' := by
  obtain ⟨label, hn, hn'⟩ := h
  exact ⟨Interner.issued_of_get? hn, Interner.issued_of_get? hn', Interner.Matches.lookup_eq
    ⟨label, hn, hn'⟩⟩

theorem SameTexts.twin (h : SameTexts r r') (hr : Reachable r) (hr' : Reachable r') :
    Twin r r' := by
  have htypes : List.Forall₂ (TypeEntry.Alike (r.names.Matches r'.names)) r.types.toList
      r'.types.toList :=
    h.types.imp fun _ _ ht => ht.mono fun hname => hname.matches hr.sorted hr'.sorted
  refine ⟨⟨htypes, h.config_eq, ?_⟩, hr.labelled, hr'.labelled⟩
  rw [hr.labelled.bound.anonymousCount_eq, hr'.labelled.bound.anonymousCount_eq]
  exact (countP_eq_of_rel htypes fun ht => ht.isAnonymous_eq.symm).symm

theorem Twin.of_sameCatalog (h : Twin r r') (hgrows : r.names.Grows s.names)
    (hgrows' : r'.names.Grows s'.names) (hsame : s.toCatalog = r.toCatalog)
    (hsame' : s'.toCatalog = r'.toCatalog) : Twin s s' := by
  obtain ⟨c, names⟩ := s
  obtain ⟨c', names'⟩ := s'
  obtain rfl : c = r.toCatalog := hsame
  obtain rfl : c' = r'.toCatalog := hsame'
  exact h.grows hgrows hgrows'

namespace Twin

theorem sameTexts (h : Twin r r') : SameTexts r r' :=
  ⟨h.akin.config_eq, (h.akin.mono sameString_of_matches).types⟩

/-- Instances that registries make are at home in them: a name that matches one of the other
registry is that of a string. -/
theorem construct (h : Twin r r') (type : Handle) {fields fields' : List (String × Value)}
    (hfields : List.Forall₂ SuppliedAlike fields fields') :
    Both (fun o o' => o.erased = o'.erased ∧ o.AtHome r.names ∧ o'.AtHome r'.names)
      (r.construct type fields) (r'.construct type fields') := by
  have hattributes := Alike.attributesInForce h.akin (Interner.biUnique_matches _ _) type
  have hnames : ∀ a ∈ r.attributesInForce type, ∃ label, r.names.get? label = some a.1 :=
    ((List.forall₂_and_left _ _).mp (hattributes.imp fun _ _ ha =>
      ⟨ha.1.imp fun _ hlabel => hlabel.1, ha⟩)).1
  have hnames' : ∀ a ∈ r'.attributesInForce type, ∃ label, r'.names.get? label = some a.1 :=
    ((List.forall₂_and_left _ _).mp (hattributes.flip.imp fun _ _ ha =>
      ⟨ha.1.imp fun _ hlabel => hlabel.2, ha⟩)).1
  refine (h.akin.construct type hfields).imp_eq fun herased ho ho' => ?_
  exact ⟨herased, atHome_of_construct hnames ho, atHome_of_construct hnames' ho'⟩

theorem instantiate (h : Twin r r') (type : Handle) {fields fields' : List (String × Value)}
    (hfields : List.Forall₂ SuppliedAlike fields fields') :
    Both (fun made made' => made.1.erased = made'.1.erased ∧
      made.1.AtHome r.names ∧ made'.1.AtHome r'.names)
      (r.instantiate type fields) (r'.instantiate type fields') :=
  (h.construct type hfields).bind fun hmade => .ok hmade

theorem sameAnswers (h : Twin r r') : SameAnswers r r' where
  size_eq := h.akin.size_eq
  size_symbols_eq := h.size_symbols_eq
  resolve?_eq := congrFun h.resolve?_eq
  typeName?_eq := congrFun h.akin.typeName?_eq
  isA_eq := h.akin.sameGraph.parent.isA_eq
  does_eq := h.akin.sameGraph.does_eq
  memberCalled? type label := by
    have hfound := h.akin.memberCalled? type label
    rcases cases_rel hfound with ⟨hm, hm'⟩ | ⟨m, m', hm, hm', halike⟩
    · rw [hm, hm']
      exact .none
    · rw [hm, hm']
      exact .some (halike.mono sameString_of_matches)
  can_eq type label := by rw [h.akin.can_eq]
  ownerOf?_eq type label := by rw [h.akin.ownerOf?_eq]
  membersInForce type :=
    (Alike.membersInForce h.akin (Interner.biUnique_matches _ _) type).imp
      fun _ _ hm => hm.mono sameString_of_matches
  conflicts type :=
    (Alike.conflicts h.akin (Interner.biUnique_matches _ _) type).imp
      fun _ _ hp => { hp with member := sameString_of_matches hp.member }
  openInOrder_eq type := by rw [h.akin.openInOrder_eq]
  openCount_eq := h.akin.openCount_eq
  testNamed?_eq := congrFun h.testNamed?_eq
  helpers_eq := h.akin.build_eq
  check?_eq := h.akin.check?_eq
  edit_eq he hroom hroom' := (tandem_edit h he hroom hroom').result_eq
  instantiate type _ _ hfields := h.instantiate type hfields
  get?_eq ho hhome hhome' label :=
    ⟨hhome.bind_field?_eq label, hhome'.bind_field?_eq label, Record.get?_congr ho label⟩
  call_eq hthis hhome hhome' method _ _ hargs := h.akin.call hthis hhome hhome' method hargs

theorem after (h : Twin r r') {o o' : Operation} (ho : o.Alike o')
    (hroom : (o.after r).names.HasRoom) (hroom' : (o'.after r').names.HasRoom) :
    Twin (o.after r) (o'.after r') := by
  have hrs := evolves_after o r
  have hrs' := evolves_after o' r'
  cases ho with
  | edit he => exact (tandem_edit h he hroom hroom').twin
  | sealType type => exact h.of_evolves hrs hrs' (Alike.sealType h.akin type)
  | sealAll => exact h.of_evolves hrs hrs' (Alike.sealAll h.akin)
  | @instantiate type fields fields' hfields =>
    refine h.of_evolves hrs hrs' ?_
    have hmade := h.akin.construct type hfields
    rw [after_instantiate, after_instantiate]
    generalize r.construct type fields = made at hmade
    generalize r'.construct type fields' = made' at hmade
    cases hmade with
    | ok _ => exact Alike.sealType h.akin type
    | error e => exact h.akin
  | intern t => exact h.grows (r.names.grows_intern t) (r'.names.grows_intern t)

end Twin

/-! ## Runs -/

namespace SideBySide

theorem left (h : SideBySide r r' s s') : Run r s := by
  induction h with
  | start => exact .start _
  | perform _ _ ih => exact ih.perform _
  | onLeft _ hrun _ ih => exact ih.trans hrun
  | onRight _ _ _ ih => exact ih
  | transaction _ _ outcome _ _ ih ihbody => exact ih.transaction ihbody outcome

theorem right (h : SideBySide r r' s s') : Run r' s' := by
  induction h with
  | start => exact .start _
  | perform _ _ ih => exact ih.perform _
  | onLeft _ _ _ ih => exact ih
  | onRight _ hrun _ ih => exact ih.trans hrun
  | transaction _ _ _ outcome' _ ih ihbody => exact ih.transaction ihbody outcome'

theorem performAll (h : SideBySide r r' s s') {os os' : List Operation}
    (hos : List.Forall₂ Operation.Alike os os') :
    SideBySide r r' (os.foldl Operation.after s) (os'.foldl Operation.after s') := by
  induction hos generalizing s s' with
  | nil => exact h
  | cons ho _ ih => exact ih (h.perform ho)

theorem twin (h : SideBySide r r' s s') (htwin : Twin r r') (hroom : s.names.HasRoom)
    (hroom' : s'.names.HasRoom) : Twin s s' := by
  induction h with
  | start => exact htwin
  | @perform _ _ s s' _ o o' ho ih =>
    have hbefore := (evolves_after o s).succeeds.grows.hasRoom hroom
    have hbefore' := (evolves_after o' s').succeeds.grows.hasRoom hroom'
    exact (ih htwin hbefore hbefore').after ho hroom hroom'
  | @onLeft _ _ s s' t _ hrun hsame ih =>
    have hgrows := hrun.evolves.succeeds.grows
    exact (ih htwin (hgrows.hasRoom hroom) hroom').of_sameCatalog hgrows (.refl _) hsame rfl
  | @onRight _ _ s s' t' _ hrun hsame ih =>
    have hgrows := hrun.evolves.succeeds.grows
    exact (ih htwin hroom (hgrows.hasRoom hroom')).of_sameCatalog (.refl _) hgrows rfl hsame
  | @transaction _ _ s s' scratch scratch' _ _ _ _ _ body outcome outcome' hsame ih ihbody =>
    have hevolves := body.left.evolves
    have hevolves' := body.right.evolves
    rw [names_settle] at hroom hroom'
    have hbefore := ih htwin (hevolves.succeeds.grows.hasRoom hroom)
      (hevolves'.succeeds.grows.hasRoom hroom')
    exact hbefore.settle hevolves hevolves' (ihbody hbefore hroom hroom') hsame

end SideBySide

def kennelOperations : List Operation :=
  [.edit (.declareClass (some "Dog") none false
      [WrittenMember.withDefault "name" (.str "Rex"),
        WrittenMember.method "call" (Method.reading "name")]),
    .edit (.tag ⟨0⟩ "Pet")]

def kennel : Registry := kennelOperations.foldl Operation.after (.new {} .empty)

def strangeKennel : Registry :=
  kennelOperations.foldl Operation.after (.new {} (.ofStrings ["Animal", "Cow", "Fox", "Toy"]))

theorem alike_kennelOperations : List.Forall₂ Operation.Alike kennelOperations kennelOperations :=
  .cons (.edit (.declareClass (.cons ⟨rfl, .stored rfl⟩
    (.cons ⟨rfl, .method (Method.Stock.reading "name").alike⟩ .nil))))
    (.cons (.edit (.tag _ _)) .nil)

end Registry

end ObjectSystem
