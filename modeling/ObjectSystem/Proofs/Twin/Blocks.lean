import ObjectSystem.Proofs.Twin.Editing

/-!
# Blocks of twins

Blocks with members that are alike are built in tandem, and so goes every edit as data
(`tandem_edit`).
-/

namespace ObjectSystem

open Registry

mutual

/-- The blocks are equal but for the bodies and defaults of their members, which are alike. -/
inductive Block.Alike : Block → Block → Prop
  | mk {kind : Kind} {name : Option String} {isAbstract : Bool} {parent : Option ParentRef}
      {roles : List RoleUse} {members members' : List WrittenMember} {nested nested' : List Block}
      (hmembers : WrittenAlike members members') (hnested : Block.EachAlike nested nested') :
      Block.Alike ⟨kind, name, isAbstract, parent, roles, members, nested⟩
        ⟨kind, name, isAbstract, parent, roles, members', nested'⟩

inductive Block.EachAlike : List Block → List Block → Prop
  | nil : Block.EachAlike [] []
  | cons {b b' : Block} {bs bs' : List Block} (h : b.Alike b') (hrest : Block.EachAlike bs bs') :
      Block.EachAlike (b :: bs) (b' :: bs')

end

inductive Edit.Alike : Edit → Edit → Prop
  | declareClass {name : Option String} {parent : Option Handle} {isAbstract : Bool}
      {ms ms' : List WrittenMember} (h : WrittenAlike ms ms') :
      Edit.Alike (.declareClass name parent isAbstract (ms.map .written))
        (.declareClass name parent isAbstract (ms'.map .written))
  | declareRole {name : Option String} {ms ms' : List WrittenMember} (h : WrittenAlike ms ms') :
      Edit.Alike (.declareRole name (ms.map .written)) (.declareRole name (ms'.map .written))
  | extend (type parent : Handle) : Edit.Alike (.extend type parent) (.extend type parent)
  | consume (type role : Handle) : Edit.Alike (.consume type role) (.consume type role)
  | addMember (type : Handle) {m m' : WrittenMember} (h : m.Alike m') :
      Edit.Alike (.addMember type m) (.addMember type m')
  | tag (type : Handle) (qualified : String) :
      Edit.Alike (.tag type qualified) (.tag type qualified)
  | declare (scope : Scope) {b b' : Block} (h : b.Alike b') :
      Edit.Alike (.declare scope b) (.declare scope b')
  | declareAll (scope : Scope) {bs bs' : List Block} (h : List.Forall₂ Block.Alike bs bs') :
      Edit.Alike (.declareAll scope bs) (.declareAll scope bs')

namespace Editing

variable {r r' : Registry}

/-! ## Blocks -/

theorem alongside_qualify (h : Twin r r') (scope : Scope) (written : String) :
    Alongside ((qualify scope written).outcome r) ((qualify scope written).outcome r') := by
  unfold qualify
  split
  · exact alongside_pure h _
  · exact alongside_throw h _

theorem alongside_lookUp (h : Twin r r') (scope : Scope) (written : String) :
    Alongside ((lookUp scope written).outcome r) ((lookUp scope written).outcome r') := by
  refine alongside_bind (alongside_qualify h scope written) fun qualified hs => ?_
  rw [outcome_bind, outcome_bind, outcome_get, outcome_get]
  dsimp only
  rw [hs.resolve?_eq]
  split
  · exact alongside_pure hs _
  · exact alongside_throw hs _

theorem alongside_parentHandle (h : Twin r r') (scope : Scope) (ref : ParentRef) :
    Alongside ((parentHandle scope ref).outcome r) ((parentHandle scope ref).outcome r') := by
  have hrest {s s' : Registry} (p : Handle) (hs : Twin s s') :
      Alongside
        (outcome (do
          let r ← get
          if r.isRole p then throw (r.wrongKind p .cls)
          return p) s)
        (outcome (do
          let r ← get
          if r.isRole p then throw (r.wrongKind p .cls)
          return p) s') := by
    rw [outcome_bind, outcome_bind, outcome_get, outcome_get]
    dsimp only
    rw [hs.akin.isRole_eq, hs.akin.wrongKind_eq]
    split
    · exact ⟨rfl, hs⟩
    · exact alongside_pure hs p
  cases ref with
  | named written => exact alongside_bind (alongside_lookUp h scope written) hrest
  | handle p => exact hrest p h

theorem tandem_consumeUse (h : Twin r r') (scope : Scope) (type : Handle) (use : RoleUse) :
    Tandem r r' (consumeUse scope type use) (consumeUse scope type use) := by
  cases use with
  | named written =>
    exact (alongside_bind (alongside_lookUp h scope written) fun role hs =>
      alongside_consume hs type role).tandem
  | tag written =>
    exact tandem_bind_left (alongside_qualify h scope written) fun qualified hs =>
      tandem_map (tandem_tag hs type qualified) _
  | handle role => exact (alongside_consume h type role).tandem

theorem tandem_declareHead (h : Twin r r') (scope : Scope) (kind : Kind) (name : Option String)
    (isAbstract : Bool) (parent : Option ParentRef) {ms ms' : List WrittenMember}
    (hms : WrittenAlike ms ms') :
    Tandem r r' (declareHead scope kind name isAbstract parent ms)
      (declareHead scope kind name isAbstract parent ms') := by
  refine tandem_bind_left (alongside_optionMapM h (alongside_qualify h scope) name)
    fun qualified hs => ?_
  refine tandem_guard hs fun _ => ?_
  refine tandem_bind_left (alongside_optionMapM hs (alongside_parentHandle hs scope) parent)
    fun p ht => ?_
  cases kind with
  | cls =>
    exact tandem_internMembers hms ht (fun _ => evolving_declareType _ _ _)
      (fun _ => evolving_declareType _ _ _) fun hu _ _ hns => tandem_declareType hu qualified _ hns
  | role =>
    cases p with
    | none =>
      have hdeclare (ns : List Member) :=
        evolving_bind (evolving_declareType qualified (.role false) ns) evolving_pure
      exact tandem_internMembers hms ht hdeclare hdeclare fun hu _ _ hns =>
        tandem_map (tandem_declareType hu qualified _ hns) id
    | some p =>
      have hextend (role : Handle) :=
        evolving_bind (evolving_extend role p) fun _ => evolving_pure role
      have hdeclare (ns : List Member) :=
        evolving_bind (evolving_declareType qualified (.role false) ns) hextend
      refine tandem_internMembers hms ht hdeclare hdeclare fun hu _ _ hns => ?_
      refine tandem_bind (tandem_declareType hu qualified _ hns) hextend hextend fun role hv => ?_
      exact (alongside_bind (alongside_extend hv role p) fun _ hw => alongside_pure hw role).tandem

theorem innerScope_eq (h : Akin r r') (scope : Scope) (kind : Kind) (type : Handle) :
    innerScope scope kind type r' = innerScope scope kind type r := by
  cases kind with
  | cls => rw [innerScope, innerScope, h.typeName?_eq]
  | role => rfl

mutual

theorem tandem_build (scope : Scope) : (b : Block) → ∀ {b' : Block} {r r' : Registry},
    b.Alike b' → Twin r r' → Tandem r r' (b.build scope) (b'.build scope)
  | ⟨kind, name, isAbstract, parent, roles, members, nested⟩, _, _, _, .mk hmembers hnested, h => by
    have hroles (type : Handle) :
        Evolving (roles.forM (consumeUse scope type) >>= fun _ => pure type) :=
      evolving_bind (evolving_forM (evolving_consumeUse scope type) roles) fun _ =>
        evolving_pure type
    have hrest (nested : List Block) (type : Handle) : Evolving (do
        let inner := innerScope scope kind type (← get)
        Block.buildEach inner nested
        roles.forM (consumeUse scope type)
        return type) :=
      evolving_bind evolving_get fun s =>
        evolving_bind (evolving_buildEach (innerScope scope kind type s) nested) fun _ =>
          hroles type
    rw [Block.build, Block.build]
    refine tandem_bind (tandem_declareHead h scope kind name isAbstract parent hmembers)
      (hrest nested) (hrest _) fun type hs => tandem_get_bind ?_
    rw [innerScope_eq hs.akin]
    refine tandem_bind (tandem_buildEach _ nested hnested hs) (fun _ => hroles type)
      (fun _ => hroles type) fun _ ht => ?_
    exact tandem_map (tandem_forM (evolving_consumeUse scope type)
      (fun use hu => tandem_consumeUse hu scope type use) roles ht) _

theorem tandem_buildEach (scope : Scope) : (bs : List Block) → ∀ {bs' : List Block}
    {r r' : Registry}, Block.EachAlike bs bs' → Twin r r' →
    Tandem r r' (Block.buildEach scope bs) (Block.buildEach scope bs')
  | [], _, r, r', .nil, h => by
    rw [Block.buildEach]
    exact (alongside_pure h _).tandem
  | b :: rest, _, r, r', .cons hb hrest, h => by
    rw [Block.buildEach, Block.buildEach]
    exact tandem_bind (tandem_build scope b hb h) (fun _ => evolving_buildEach scope _)
      (fun _ => evolving_buildEach scope _) fun _ hs => tandem_buildEach scope rest hrest hs

end

end Editing

/-- An edit of twins has one outcome and leaves twins. -/
theorem tandem_edit {r r' : Registry} (h : Twin r r') {e e' : Edit} (he : e.Alike e') :
    Editing.Tandem r r' e.run e'.run := by
  open Editing in
  cases he with
  | declareClass hms =>
    have hdeclare (form : Form) (name : Option String) (ns : List Member) :=
      evolving_bind (evolving_declareType name form ns) fun h => evolving_pure (Reply.handle h)
    rw [Edit.run, Edit.run, mapM_nameMember_written, mapM_nameMember_written]
    exact tandem_internMembers hms h (hdeclare _ _) (hdeclare _ _) fun hs _ _ hns =>
      tandem_map (tandem_declareType hs _ _ hns) _
  | declareRole hms =>
    have hdeclare (name : Option String) (ns : List Member) :=
      evolving_bind (evolving_declareType name (.role false) ns) fun h =>
        evolving_pure (Reply.handle h)
    rw [Edit.run, Edit.run, mapM_nameMember_written, mapM_nameMember_written]
    exact tandem_internMembers hms h (hdeclare _) (hdeclare _) fun hs _ _ hns =>
      tandem_map (tandem_declareType hs _ _ hns) _
  | extend type parent => exact tandem_map (alongside_extend h type parent).tandem _
  | consume type role => exact tandem_map (alongside_consume h type role).tandem _
  | addMember type hm =>
    have hadd (n : Member) :=
      evolving_bind (evolving_addMember type n) fun _ => evolving_pure Reply.done
    exact tandem_internMember h hm hadd hadd fun hs _ _ hn =>
      tandem_map (alongside_addMember hs type hn).tandem _
  | tag type qualified => exact tandem_map (tandem_tag h type qualified) _
  | @declare scope b b' hb =>
    exact tandem_map (tandem_atomically h (evolving_build scope b) (evolving_build scope b')
      (tandem_build scope b hb h)) _
  | @declareAll scope bs bs' hbs =>
    have hevolving (bs : List Block) := evolving_mapM (evolving_build scope) bs
    exact tandem_map (tandem_atomically h (hevolving bs) (hevolving bs')
      (tandem_mapM (evolving_build scope) (fun hb hs => tandem_build scope _ hb hs) hbs h)) _

end ObjectSystem
