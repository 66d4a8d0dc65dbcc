import ObjectSystem.Proofs.Run.Step

/-!
# Edits are made of steps

Whatever edit is made, and whether it is granted or refused, it takes the registry through steps and
dropped scratch copies only (`evolves_edit`); so does every run (`Run.evolves`).
-/

namespace ObjectSystem

open Registry

namespace Editing

variable {α β : Type}

/-- Whatever its outcome, the computation takes a registry through steps. -/
def Evolving (act : Editing α) : Prop := ∀ r, Evolves r (act.outcome r).2

/-! ## Outcomes -/

theorem outcome_get (r : Registry) : outcome (get : Editing Registry) r = (.ok r, r) := rfl

theorem outcome_bind (act : Editing α) (f : α → Editing β) (r : Registry) :
    outcome (act >>= f) r =
      match act.outcome r with
      | (.ok a, s) => (f a).outcome s
      | (.error e, s) => (.error e, s) := by
  show outcome (EStateM.bind act f) r = _
  unfold outcome EStateM.run EStateM.bind
  cases act r <;> rfl

theorem outcome_intern (s : String) (r : Registry) :
    (intern s).outcome r =
      (.ok (r.names.intern s).1, { r with names := (r.names.intern s).2 }) := rfl

theorem outcome_step (next : Registry → Except EditError Registry) (r : Registry) :
    (step next).outcome r =
      match next r with
      | .ok after => (.ok (), after)
      | .error e => (.error e, r) := by
  unfold outcome EStateM.run step
  cases next r <;> rfl

theorem outcome_atomically (act : Editing α) (r : Registry) :
    (atomically act).outcome r =
      ((act.outcome r).1, r.settle (act.outcome r).1 (act.outcome r).2) := by
  unfold outcome EStateM.run atomically settle
  cases act r <;> rfl

/-! ## Sequencing -/

theorem evolving_pure (a : α) : Evolving (pure a) := fun r => .refl r

theorem evolving_throw (e : EditError) : Evolving (throw e : Editing α) := fun r => .refl r

theorem evolving_get : Evolving (get : Editing Registry) := fun r => .refl r

theorem evolving_bind {act : Editing α} {f : α → Editing β} (hact : act.Evolving)
    (hf : ∀ a, (f a).Evolving) : (act >>= f).Evolving := by
  intro r
  have hfirst := hact r
  rw [outcome_bind]
  generalize act.outcome r = out at hfirst
  obtain ⟨_ | a, s⟩ := out
  · exact hfirst
  · exact hfirst.trans (hf a s)

theorem evolving_guard {c : Prop} [Decidable c] {e : EditError} {act : Editing α}
    (hact : act.Evolving) : Evolving (if c then (throw e >>= fun _ : PUnit => act) else act) := by
  split
  · exact evolving_bind (evolving_throw e) fun _ => hact
  · exact hact

theorem evolving_step {next : Registry → Except EditError Registry}
    (hnext : ∀ {r s}, next r = .ok s → Evolves r s) : (step next).Evolving := by
  intro r
  rw [outcome_step]
  cases hr : next r with
  | ok s => exact hnext hr
  | error e => exact .refl r

theorem evolving_atomically {act : Editing α} (hact : act.Evolving) :
    (atomically act).Evolving := by
  intro r
  have hscratch := hact r
  rw [outcome_atomically]
  generalize act.outcome r = out at hscratch
  obtain ⟨_ | a, s⟩ := out
  · exact (Evolves.refl r).rollBack hscratch
  · exact hscratch

theorem evolving_mapM {f : α → Editing β} (hf : ∀ a, (f a).Evolving) (as : List α) :
    (as.mapM f).Evolving := by
  induction as with
  | nil => exact evolving_pure []
  | cons a as ih =>
    rw [List.mapM_cons]
    exact evolving_bind (hf a) fun b => evolving_bind ih fun bs => evolving_pure (b :: bs)

theorem evolving_optionMapM {f : α → Editing β} (hf : ∀ a, (f a).Evolving) (a : Option α) :
    (a.mapM f).Evolving := by
  cases a with
  | none => exact evolving_pure none
  | some a => exact evolving_bind (hf a) fun b => evolving_pure (some b)

theorem evolving_forM {f : α → Editing PUnit} (hf : ∀ a, (f a).Evolving) (as : List α) :
    (as.forM f).Evolving := by
  induction as with
  | nil => exact evolving_pure _
  | cons a as ih => exact evolving_bind (hf a) fun _ => ih

/-! ## Interning the names of a declaration -/

theorem evolves_intern (r : Registry) (s : String) :
    Evolves r { r with names := (r.names.intern s).2 } := .single (.intern r s)

theorem evolving_intern (s : String) : (intern s).Evolving := fun r => evolves_intern r s

theorem evolving_internMember (m : WrittenMember) : (internMember m).Evolving :=
  evolving_bind (evolving_intern m.name) fun _ => evolving_pure _

theorem evolving_nameMember (m : GivenMember) : (nameMember m).Evolving := by
  cases m with
  | named m => exact evolving_pure m
  | written m => exact evolving_internMember m

def typeLabel (r : Registry) (kind : Kind) : Option String → String
  | some qualified => qualified
  | none => r.generatedName kind

theorem outcome_internTypeName (r : Registry) (kind : Kind) (name : Option String) :
    (∃ e, (internTypeName kind name).outcome r = (.error e, r)) ∨
      (name.isNone = false → r.isReserved (typeLabel r kind name) = false) ∧
      (internTypeName kind name).outcome r = (intern (typeLabel r kind name)).outcome r := by
  cases name with
  | none => exact .inr ⟨by simp, rfl⟩
  | some qualified =>
    simp only [internTypeName, outcome_bind, outcome_get]
    by_cases hreserved : r.isReserved qualified
    · left
      rw [if_pos hreserved]
      exact ⟨_, rfl⟩
    · right
      rw [if_neg hreserved]
      exact ⟨fun _ => by simpa [typeLabel] using hreserved, rfl⟩

theorem evolving_declareType (name : Option String) (form : Form) (members : List Member) :
    (declareType name form members).Evolving := by
  intro r
  rw [declareType, outcome_bind]
  rcases outcome_internTypeName r form.kind name with ⟨e, he⟩ | ⟨hlabel, hname⟩
  · rw [he]
    exact .refl r
  · -- once the name is interned, what is left is to insert the type
    rw [hname, outcome_intern]
    dsimp only
    rw [outcome_bind, outcome_get]
    dsimp only
    rw [outcome_bind, outcome_step]
    have hinterned := evolves_intern r (typeLabel r form.kind name)
    generalize hlabel_eq : typeLabel r form.kind name = label at hlabel hinterned
    generalize hinserted : Registry.insertType { r with names := (r.names.intern label).2 }
      (r.names.intern label).1 name.isNone form members = inserted
    cases inserted with
    | error e => exact hinterned
    | ok next =>
      obtain ⟨hdistinct, hparent, hplaced⟩ := insertType_eq_ok hinserted
      refine hinterned.tail
        (.declare (r.names.holds_intern label) ?_ hdistinct hparent hplaced)
      cases name with
      | none => exact hlabel_eq.symm
      | some qualified => exact hlabel rfl

theorem evolving_declareClass (name : Option String) (parent : Option Handle) (isAbstract : Bool)
    (members : List Member) : (declareClass name parent isAbstract members).Evolving :=
  evolving_declareType name _ members

theorem evolving_declareRole (name : Option String) (members : List Member) :
    (declareRole name members).Evolving :=
  evolving_declareType name _ members

/-! ## Other edits -/

theorem evolving_extend (type parent : Handle) : (extend type parent).Evolving :=
  evolving_step fun hnext => by
    obtain ⟨hmay, rfl⟩ := extend_eq_ok hnext
    exact .single (.extend hmay)

theorem evolving_consume (type role : Handle) : (consume type role).Evolving :=
  evolving_step fun hnext => by
    rcases consume_eq_ok hnext with rfl | ⟨hmay, hchecked, rfl⟩
    · exact .refl _
    · exact .single (.consume hmay hchecked)

theorem evolving_addMember (type : Handle) (m : Member) : (addMember type m).Evolving :=
  evolving_step fun hnext => by
    obtain ⟨hopen, hnew, hchecked, rfl⟩ := insertMember_eq_ok hnext
    exact .single (.addMember hopen hnew hchecked)

theorem evolving_declareTag (type : Handle) (qualified : String) :
    (declareTag type qualified).Evolving :=
  evolving_atomically <| evolving_bind (evolving_declareType _ _ _) fun role =>
    evolving_bind (evolving_consume type role) fun _ => evolving_pure role

theorem evolving_tag (type : Handle) (qualified : String) : (tag type qualified).Evolving := by
  refine evolving_bind evolving_get fun r => ?_
  split
  · rename_i role _
    exact evolving_guard (evolving_bind (evolving_consume type role) fun _ => evolving_pure role)
  · split
    · exact evolving_guard (evolving_declareTag type qualified)
    · exact evolving_throw _

/-! ## Blocks -/

theorem evolving_qualify (scope : Scope) (written : String) : (qualify scope written).Evolving := by
  unfold qualify
  split
  · exact evolving_pure _
  · exact evolving_throw _

theorem evolving_lookUp (scope : Scope) (written : String) : (lookUp scope written).Evolving := by
  refine evolving_bind (evolving_qualify scope written) fun qualified =>
    evolving_bind evolving_get fun r => ?_
  split
  · exact evolving_pure _
  · exact evolving_throw _

theorem evolving_parentHandle (scope : Scope) (ref : ParentRef) :
    (parentHandle scope ref).Evolving := by
  have hrest (h : Handle) : Evolving (do
      let r ← get
      if r.isRole h then throw (r.wrongKind h .cls)
      return h) := by
    exact evolving_bind evolving_get fun r => evolving_guard (evolving_pure h)
  cases ref with
  | named written => exact evolving_bind (evolving_lookUp scope written) hrest
  | handle h => exact hrest h

theorem evolving_consumeUse (scope : Scope) (type : Handle) (use : RoleUse) :
    (consumeUse scope type use).Evolving := by
  cases use with
  | named written =>
    exact evolving_bind (evolving_lookUp scope written) fun role => evolving_consume type role
  | tag written =>
    exact evolving_bind (evolving_qualify scope written) fun qualified =>
      evolving_bind (evolving_tag type qualified) fun _ => evolving_pure _
  | handle role => exact evolving_consume type role

theorem evolving_declareHead (scope : Scope) (kind : Kind) (name : Option String)
    (isAbstract : Bool) (parent : Option ParentRef) (members : List WrittenMember) :
    (declareHead scope kind name isAbstract parent members).Evolving := by
  refine evolving_bind (evolving_optionMapM (evolving_qualify scope) name) fun qualified => ?_
  have hparent := evolving_optionMapM (evolving_parentHandle scope) parent
  have hmembers := evolving_mapM evolving_internMember members
  cases kind with
  | cls =>
    exact evolving_guard (evolving_bind hparent fun p =>
      evolving_bind hmembers fun ms => evolving_declareClass qualified p isAbstract ms)
  | role =>
    refine evolving_guard (evolving_bind hparent fun p =>
      evolving_bind hmembers fun ms =>
        evolving_bind (evolving_declareRole qualified ms) fun role => ?_)
    cases p with
    | none => exact evolving_pure role
    | some p => exact evolving_bind (evolving_extend role p) fun _ => evolving_pure role

mutual

theorem evolving_build (scope : Scope) : (b : Block) → (b.build scope).Evolving
  | ⟨kind, name, isAbstract, parent, roles, members, nested⟩ => by
    rw [Block.build]
    exact evolving_bind (evolving_declareHead scope kind name isAbstract parent members) fun type =>
      evolving_bind evolving_get fun r =>
        evolving_bind (evolving_buildEach (innerScope scope kind type r) nested) fun _ =>
          evolving_bind (evolving_forM (evolving_consumeUse scope type) roles) fun _ =>
            evolving_pure type

theorem evolving_buildEach (scope : Scope) : (bs : List Block) → (Block.buildEach scope bs).Evolving
  | [] => by
    rw [Block.buildEach]
    exact evolving_pure _
  | b :: rest => by
    rw [Block.buildEach]
    exact evolving_bind (evolving_build scope b) fun _ => evolving_buildEach scope rest

end

theorem evolving_declare (scope : Scope) (b : Block) : (declare scope b).Evolving :=
  evolving_atomically (evolving_build scope b)

theorem evolving_declareAll (scope : Scope) (bs : List Block) : (declareAll scope bs).Evolving :=
  evolving_atomically (evolving_mapM (evolving_build scope) bs)

end Editing

open Editing in
theorem evolving_edit (e : Edit) : Evolving e.run := by
  have hdone (a : Reply) : Evolving (pure a) := evolving_pure a
  cases e with
  | declareClass name parent isAbstract members =>
    exact evolving_bind (evolving_mapM evolving_nameMember members) fun ms =>
      evolving_bind (evolving_declareClass name parent isAbstract ms) fun _ => hdone _
  | declareRole name members =>
    exact evolving_bind (evolving_mapM evolving_nameMember members) fun ms =>
      evolving_bind (evolving_declareRole name ms) fun _ => hdone _
  | extend type parent => exact evolving_bind (evolving_extend type parent) fun _ => hdone _
  | consume type role => exact evolving_bind (evolving_consume type role) fun _ => hdone _
  | addMember type m =>
    exact evolving_bind (evolving_nameMember m) fun m =>
      evolving_bind (evolving_addMember type m) fun _ => hdone _
  | tag type qualified => exact evolving_bind (evolving_tag type qualified) fun _ => hdone _
  | declare scope b => exact evolving_bind (evolving_declare scope b) fun _ => hdone _
  | declareAll scope bs => exact evolving_bind (evolving_declareAll scope bs) fun _ => hdone _

namespace Registry

theorem instantiate_eq_ok {r after : Registry} {type : Handle} {fields : List (String × Value)}
    {o : Instance} (h : r.instantiate type fields = .ok (o, after)) :
    after = { r with toCatalog := r.sealType type } := by
  rw [instantiate] at h
  cases hmade : r.construct type fields with
  | error e =>
    rw [hmade] at h
    cases h
  | ok made =>
    rw [hmade] at h
    cases h
    rfl

theorem after_instantiate (r : Registry) (type : Handle) (fields : List (String × Value)) :
    (Operation.instantiate type fields).after r =
      match r.construct type fields with
      | .ok _ => { r with toCatalog := r.sealType type }
      | .error _ => r := by
  rw [Operation.after, Registry.instantiate]
  cases r.construct type fields <;> rfl

theorem evolves_after (o : Operation) (r : Registry) : Evolves r (o.after r) := by
  cases o with
  | edit e => exact evolving_edit e r
  | sealType type => exact .single (.sealType r type)
  | sealAll => exact .single (.sealAll r)
  | instantiate type fields =>
    rw [after_instantiate]
    split
    · exact .single (.sealType r type)
    · exact .refl r
  | intern s => exact .single (.intern r s)

theorem Run.evolves {r s : Registry} (h : Run r s) : Evolves r s := by
  induction h with
  | start r => exact .refl r
  | perform _ o ih => exact ih.trans (evolves_after o _)
  | transaction _ _ outcome ih ihbody =>
    -- the body runs on a scratch copy, which is kept or of which the names are kept
    cases outcome with
    | ok _ => exact ih.trans ihbody
    | error _ => exact ih.rollBack ihbody

end Registry

end ObjectSystem
