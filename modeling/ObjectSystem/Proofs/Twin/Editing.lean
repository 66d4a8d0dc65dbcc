import ObjectSystem.Proofs.Twin.Tandem

/-!
# Edits of twins

An edit of a registry and the same edit of its twin go in tandem. Interning gives a string different
names on the two sides, but names that match; everything else that an edit does is led by answers
that are the same.
-/

namespace ObjectSystem

open Registry

abbrev WrittenAlike (ms ms' : List WrittenMember) : Prop := List.Forall₂ WrittenMember.Alike ms ms'

namespace Editing

variable {α : Type} {r r' : Registry}

/-! ## Changes -/

theorem akin_step (next next' : Registry → Except EditError Registry) (h : Akin r r')
    (hnext : Both Akin (next r) (next' r')) :
    ((step next).outcome r).1 = ((step next').outcome r').1 ∧
      Akin ((step next).outcome r).2 ((step next').outcome r').2 := by
  rw [outcome_step, outcome_step]
  generalize next r = x at hnext
  generalize next' r' = x' at hnext
  cases hnext with
  | ok hnext => exact ⟨rfl, hnext⟩
  | error e => exact ⟨rfl, h⟩

theorem alongside_extend (h : Twin r r') (type parent : Handle) :
    Alongside ((extend type parent).outcome r) ((extend type parent).outcome r') := by
  have hevolving := evolving_extend type parent
  obtain ⟨hresult, hakin⟩ := akin_step (·.extend type parent) (·.extend type parent) h.akin
    (h.akin.extend type parent)
  exact .of_akin h hevolving hevolving hresult hakin

theorem alongside_consume (h : Twin r r') (type role : Handle) :
    Alongside ((consume type role).outcome r) ((consume type role).outcome r') := by
  have hevolving := evolving_consume type role
  obtain ⟨hresult, hakin⟩ := akin_step (·.consume type role) (·.consume type role) h.akin
    (h.akin.consume type role)
  exact .of_akin h hevolving hevolving hresult hakin

theorem names_step (next : Registry → Except EditError Registry)
    (hnext : ∀ {r s}, next r = .ok s → s.names = r.names) (r : Registry) :
    ((step next).outcome r).2.names = r.names := by
  rw [outcome_step]
  cases h : next r with
  | ok s => exact hnext h
  | error e => rfl

theorem alongside_addMember (h : Twin r r') (type : Handle) {m m' : Member}
    (hm : m.Alike (r.names.Matches r'.names) m') :
    Alongside ((addMember type m).outcome r) ((addMember type m').outcome r') := by
  obtain ⟨hresult, hakin⟩ := akin_step (·.insertMember type m) (·.insertMember type m') h.akin
    (h.akin.insertMember type hm)
  exact .of_akin h (evolving_addMember type m) (evolving_addMember type m') hresult hakin

/-! ## Interning members -/

section

variable {f f' : Member → Editing α} {g g' : List Member → Editing α}

theorem tandem_internMember (h : Twin r r') {m m' : WrittenMember} (hm : m.Alike m')
    (hf : ∀ n, (f n).Evolving) (hf' : ∀ n, (f' n).Evolving)
    (hrest : ∀ {s s' n n'}, Twin s s' → r.names.Grows s.names → r'.names.Grows s'.names →
      n.Alike (s.names.Matches s'.names) n' → Tandem s s' (f n) (f' n')) :
    Tandem r r' (internMember m >>= f) (internMember m' >>= f') := by
  intro hroom hroom'
  have hmatches := Interner.matches_intern hm.name_eq (hasRoom_of_bind hf hroom)
    (hasRoom_of_bind hf' hroom')
  have hgrows := r.names.grows_intern m.name
  have hgrows' := r'.names.grows_intern m'.name
  exact hrest (h.grows hgrows hgrows') hgrows hgrows' ⟨hmatches, hm.kind⟩ hroom hroom'

theorem tandem_internMembers {ms ms' : List WrittenMember} (hms : WrittenAlike ms ms')
    (h : Twin r r') (hg : ∀ ns, (g ns).Evolving) (hg' : ∀ ns, (g' ns).Evolving)
    (hrest : ∀ {s s' ns ns'}, Twin s s' → r.names.Grows s.names → r'.names.Grows s'.names →
      List.Forall₂ (Member.Alike (s.names.Matches s'.names)) ns ns' →
      Tandem s s' (g ns) (g' ns')) :
    Tandem r r' (ms.mapM internMember >>= g) (ms'.mapM internMember >>= g') := by
  induction hms generalizing r r' g g' with
  | nil => exact hrest h (.refl _) (.refl _) .nil
  | @cons m m' ms ms' hm _ ih =>
    have hlater {k : List Member → Editing α} (hk : ∀ ns, (k ns).Evolving)
        (ms : List WrittenMember) (n : Member) :
        Evolving (ms.mapM internMember >>= fun ns => k (n :: ns)) :=
      evolving_bind (evolving_mapM evolving_internMember ms) fun ns => hk (n :: ns)
    simp only [List.mapM_cons, bind_assoc, pure_bind]
    refine tandem_internMember h hm (hlater hg ms) (hlater hg' ms') fun hs hgrows hgrows' hn => ?_
    refine ih hs (fun ns => hg _) (fun ns => hg' _) fun ht hmore hmore' hns => ?_
    exact hrest ht (hgrows.trans hmore) (hgrows'.trans hmore')
      (.cons (hn.mono fun hname => hname.grows hmore hmore') hns)

theorem mapM_nameMember_written (ms : List WrittenMember) :
    (ms.map GivenMember.written).mapM nameMember = ms.mapM internMember :=
  List.mapM_map

end

/-! ## Declarations -/

theorem outcome_internTypeName_eq (r : Registry) (kind : Kind) (name : Option String) :
    (internTypeName kind name).outcome r =
      if name.any r.isReserved then
        (.error (.invalidName (.reserved (typeLabel r kind name) r.config.generatedSpace)), r)
      else (intern (typeLabel r kind name)).outcome r := by
  cases name with
  | none => rfl
  | some qualified =>
    simp only [internTypeName, outcome_bind, outcome_get]
    rw [Option.any_some, typeLabel]
    split <;> rfl

theorem outcome_declareType (r : Registry) (name : Option String) (form : Form)
    (members : List Member) :
    (declareType name form members).outcome r =
      if name.any r.isReserved then
        (.error (.invalidName (.reserved (typeLabel r form.kind name) r.config.generatedSpace)), r)
      else
        let typeName := r.names.intern (typeLabel r form.kind name)
        outcome (step (·.insertType typeName.1 name.isNone form members) >>= fun _ =>
          pure r.nextHandle) { r with names := typeName.2 } := by
  rw [declareType, outcome_bind, outcome_internTypeName_eq]
  by_cases hreserved : name.any r.isReserved
  · rw [if_pos hreserved, if_pos hreserved]
  · rw [if_neg hreserved, if_neg hreserved]
    rfl

theorem names_insertType {r s : Registry} {name : Name} {isAnonymous : Bool} {form : Form}
    {members : List Member} (h : r.insertType name isAnonymous form members = .ok s) :
    s.names = r.names := by
  obtain ⟨-, -, hplaced⟩ := insertType_eq_ok h
  exact (place_eq_ok hplaced).1

theorem akin_declareType (h : Twin r r') (name : Option String) (form : Form)
    {ms ms' : List Member} (hms : List.Forall₂ (Member.Alike (r.names.Matches r'.names)) ms ms')
    (hroom : ((declareType name form ms).outcome r).2.names.HasRoom)
    (hroom' : ((declareType name form ms').outcome r').2.names.HasRoom) :
    ((declareType name form ms).outcome r).1 = ((declareType name form ms').outcome r').1 ∧
      Akin ((declareType name form ms).outcome r).2
        ((declareType name form ms').outcome r').2 := by
  have hlabel : typeLabel r' form.kind name = typeLabel r form.kind name := by
    cases name with
    | none => exact congrFun h.akin.generatedName_eq form.kind
    | some qualified => rfl
  rw [outcome_declareType] at hroom hroom' ⊢
  rw [outcome_declareType]
  rw [h.akin.isReserved_eq] at hroom' ⊢
  by_cases hreserved : name.any r.isReserved
  · rw [if_pos hreserved, if_pos hreserved, hlabel, h.akin.config_eq]
    exact ⟨rfl, h.akin⟩
  · rw [if_neg hreserved] at hroom hroom' ⊢
    rw [if_neg hreserved]
    dsimp only at hroom hroom' ⊢
    rw [outcome_map, names_step _ names_insertType] at hroom hroom'
    rw [outcome_map, outcome_map]
    -- the name of the type is the last that is interned
    have hgrows := r.names.grows_intern (typeLabel r form.kind name)
    have hgrows' := r'.names.grows_intern (typeLabel r' form.kind name)
    have hmatches := Interner.matches_intern hlabel.symm hroom hroom'
    have hinserted := (h.grows hgrows hgrows').insertType hmatches name.isNone form
      (hms.imp fun _ _ hm => hm.mono fun hn => hn.grows hgrows hgrows')
    obtain ⟨hresult, hakin⟩ := akin_step (·.insertType _ name.isNone form ms)
      (·.insertType _ name.isNone form ms') (h.grows hgrows hgrows').akin hinserted
    dsimp only
    rw [hresult, h.akin.nextHandle_eq]
    exact ⟨rfl, hakin⟩

theorem tandem_declareType (h : Twin r r') (name : Option String) (form : Form)
    {ms ms' : List Member} (hms : List.Forall₂ (Member.Alike (r.names.Matches r'.names)) ms ms') :
    Tandem r r' (declareType name form ms) (declareType name form ms') := by
  intro hroom hroom'
  obtain ⟨hresult, hakin⟩ := akin_declareType h name form hms hroom hroom'
  exact .of_akin h (evolving_declareType name form ms) (evolving_declareType name form ms')
    hresult hakin

theorem tandem_declareTag (h : Twin r r') (type : Handle) (qualified : String) :
    Tandem r r' (declareTag type qualified) (declareTag type qualified) := by
  have hrest (role : Handle) : Evolving (consume type role >>= fun _ => pure role) :=
    evolving_bind (evolving_consume type role) fun _ => evolving_pure role
  have hdeclare := evolving_bind (evolving_declareType (some qualified) (.role true) []) hrest
  refine tandem_atomically h hdeclare hdeclare (tandem_bind (tandem_declareType h _ _ .nil) hrest
    hrest fun role hs => ?_)
  exact (alongside_bind (alongside_consume hs type role) fun _ ht => alongside_pure ht role).tandem

theorem tandem_tag (h : Twin r r') (type : Handle) (qualified : String) :
    Tandem r r' (tag type qualified) (tag type qualified) := by
  refine tandem_get_bind ?_
  rw [h.resolve?_eq, h.akin.isRole_eq, h.akin.unknownType_eq, h.akin.typeSealed_eq]
  cases r.resolve? qualified with
  | some role =>
    refine tandem_guard h fun _ => ?_
    exact (alongside_bind (alongside_consume h type role) fun _ hs => alongside_pure hs role).tandem
  | none =>
    dsimp only
    rcases cases_rel (h.akin.typeAt? type) with ⟨ht, ht'⟩ | ⟨t, t', ht, ht', halike⟩
    · rw [ht, ht']
      exact (alongside_throw h _).tandem
    · rw [ht, ht']
      dsimp only
      rw [halike.isSealed_eq]
      exact tandem_guard h fun _ => tandem_declareTag h type qualified

end Editing

end ObjectSystem
