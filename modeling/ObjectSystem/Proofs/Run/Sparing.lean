import ObjectSystem.Proofs.Run.Caution

/-!
# Blocks write to their own types only

Building a block declares types, gives them parents and lets them consume roles, in this order and
at every level of nesting. Each of these changes is one of a type that the same call has declared,
so the types of before are spared (`sparing_build`), whichever of them the block refers to.
`Sparing` has one rule for each way to put edits together, and what it asks of a result is that it
is the handle of a new type.
-/

namespace ObjectSystem

namespace Catalog

structure Spares (n : Nat) (c d : Catalog) : Prop where
  le_size : n ≤ d.size
  typeAt?_eq : ∀ h, h.index < n → d.typeAt? h = c.typeAt? h

namespace Spares

variable {n : Nat} {c d e : Catalog}

theorem refl (hn : n ≤ c.size) : Spares n c c := ⟨hn, fun _ _ => rfl⟩

theorem trans (hcd : Spares n c d) (hde : Spares n d e) : Spares n c e :=
  ⟨hde.le_size, fun h hh => (hde.typeAt?_eq h hh).trans (hcd.typeAt?_eq h hh)⟩

theorem modify (hn : n ≤ c.size) {type : Handle} (htype : n ≤ type.index)
    (f : TypeEntry → TypeEntry) : Spares n c (c.modify type f) where
  le_size := by rwa [size_modify]
  typeAt?_eq h hh := by
    apply typeAt?_modify_of_ne
    rintro rfl
    exact absurd hh (Nat.not_lt.mpr htype)

theorem append {t : TypeEntry} (hn : n ≤ c.size) (hd : c.Appends t d) : Spares n c d where
  le_size := by
    rw [hd.size_eq]
    exact Nat.le_succ_of_le hn
  typeAt?_eq h hh := hd.typeAt?_old (Nat.lt_of_lt_of_le hh hn)

end Spares

end Catalog

open Registry Catalog

namespace Editing

variable {α β : Type} {n : Nat} {P : α → Prop} {Q : β → Prop}

/-- Whatever its outcome, the computation spares the first `n` types, if there are so many. If it
succeeds, its result satisfies the condition. -/
def Sparing (n : Nat) (act : Editing α) (Q : α → Prop) : Prop :=
  ∀ r, n ≤ r.size → Spares n r.toCatalog (act.outcome r).2.toCatalog ∧
    ∀ a, (act.outcome r).1 = .ok a → Q a

/-! ## Sequencing -/

theorem Quiet.sparing {act : Editing α} (hact : act.Quiet) : act.Sparing n fun _ => True := by
  intro r hn
  rw [hact r]
  exact ⟨.refl hn, fun _ _ => trivial⟩

theorem sparing_pure {a : α} (ha : P a) : Sparing n (pure a) P := by
  intro r hn
  refine ⟨.refl hn, fun b hb => ?_⟩
  cases hb
  exact ha

theorem sparing_throw (e : EditError) : Sparing n (throw e : Editing α) P := by
  intro r hn
  refine ⟨.refl hn, fun b hb => ?_⟩
  cases hb

theorem sparing_get : Sparing n (get : Editing Registry) fun r => n ≤ r.size := by
  intro r hn
  refine ⟨.refl hn, fun s hs => ?_⟩
  cases hs
  exact hn

theorem sparing_bind {act : Editing α} {f : α → Editing β} (hact : act.Sparing n P)
    (hf : ∀ a, P a → (f a).Sparing n Q) : (act >>= f).Sparing n Q := by
  intro r hn
  obtain ⟨hfirst, hresult⟩ := hact r hn
  rw [outcome_bind]
  generalize act.outcome r = out at hfirst hresult
  obtain ⟨e | a, s⟩ := out
  · refine ⟨hfirst, fun b hb => ?_⟩
    cases hb
  · obtain ⟨hrest, hb⟩ := hf a (hresult a rfl) s hfirst.le_size
    exact ⟨hfirst.trans hrest, hb⟩

theorem sparing_guard {c : Prop} [Decidable c] {e : EditError} {act : Editing α}
    (hact : act.Sparing n P) :
    Sparing n (if c then (throw e >>= fun _ : PUnit => act) else act) P := by
  split
  · exact sparing_bind (sparing_throw (P := fun _ => True) e) fun _ _ => hact
  · exact hact

theorem sparing_step {next : Registry → Except EditError Registry}
    (hnext : ∀ {r s}, n ≤ r.size → next r = .ok s → Spares n r.toCatalog s.toCatalog) :
    (step next).Sparing n fun _ => True := by
  intro r hn
  refine ⟨?_, fun _ _ => trivial⟩
  rw [outcome_step]
  cases hr : next r with
  | ok s => exact hnext hn hr
  | error e => exact .refl hn

theorem sparing_atomically {act : Editing α} (hact : act.Sparing n P) :
    (atomically act).Sparing n P := by
  intro r hn
  obtain ⟨hscratch, hresult⟩ := hact r hn
  rw [outcome_atomically]
  refine ⟨?_, hresult⟩
  generalize act.outcome r = out at hscratch
  obtain ⟨_ | a, s⟩ := out
  · exact .refl hn
  · exact hscratch

theorem sparing_forM {f : α → Editing PUnit} (hf : ∀ a, (f a).Sparing n fun _ => True)
    (as : List α) : (as.forM f).Sparing n fun _ => True := by
  induction as with
  | nil => exact sparing_pure trivial
  | cons a as ih => exact sparing_bind (hf a) fun _ _ => ih

theorem sparing_mapM {f : α → Editing β} (hf : ∀ a, (f a).Sparing n Q) (as : List α) :
    (as.mapM f).Sparing n fun _ => True := by
  induction as with
  | nil => exact sparing_pure trivial
  | cons a as ih =>
    rw [List.mapM_cons]
    exact sparing_bind (hf a) fun _ _ => sparing_bind ih fun _ _ => sparing_pure trivial

/-! ## Edits of new types -/

theorem sparing_declareType (name : Option String) (form : Form) (members : List Member) :
    (declareType name form members).Sparing n (n ≤ ·.index) :=
  sparing_bind (quiet_internTypeName form.kind name).sparing fun typeName _ =>
    sparing_bind sparing_get fun r hn =>
      sparing_bind (sparing_step fun hn hinserted => by
        obtain ⟨-, -, hplaced⟩ := insertType_eq_ok hinserted
        exact .append hn (place_eq_ok hplaced).2.2) fun _ _ => sparing_pure hn

variable {type : Handle}

theorem sparing_extend (htype : n ≤ type.index) (parent : Handle) :
    (extend type parent).Sparing n fun _ => True :=
  sparing_step fun hn hnext => by
    obtain ⟨-, rfl⟩ := extend_eq_ok hnext
    exact .modify hn htype _

theorem sparing_consume (htype : n ≤ type.index) (role : Handle) :
    (consume type role).Sparing n fun _ => True :=
  sparing_step fun hn hnext => by
    rcases consume_eq_ok hnext with rfl | ⟨-, -, rfl⟩
    · exact .refl hn
    · exact .modify hn htype _

theorem sparing_declareTag (htype : n ≤ type.index) (qualified : String) :
    (declareTag type qualified).Sparing n fun _ => True :=
  sparing_atomically <| sparing_bind (sparing_declareType _ _ _) fun role _ =>
    sparing_bind (sparing_consume htype role) fun _ _ => sparing_pure trivial

theorem sparing_tag (htype : n ≤ type.index) (qualified : String) :
    (tag type qualified).Sparing n fun _ => True := by
  refine sparing_bind sparing_get fun r _ => ?_
  split
  · rename_i role _
    exact sparing_guard (sparing_bind (sparing_consume htype role) fun _ _ => sparing_pure trivial)
  · split
    · exact sparing_guard (sparing_declareTag htype qualified)
    · exact sparing_throw _

/-! ## Blocks -/

theorem quiet_optionMapM {f : α → Editing β} (hf : ∀ a, (f a).Quiet) (a : Option α) :
    (a.mapM f).Quiet := by
  cases a with
  | none => exact quiet_pure none
  | some a => exact quiet_bind (hf a) fun b => quiet_pure (some b)

theorem quiet_qualify (scope : Scope) (written : String) : (qualify scope written).Quiet := by
  unfold qualify
  split
  · exact quiet_pure _
  · exact quiet_throw _

theorem quiet_lookUp (scope : Scope) (written : String) : (lookUp scope written).Quiet := by
  refine quiet_bind (quiet_qualify scope written) fun qualified => quiet_bind quiet_get fun r => ?_
  split
  · exact quiet_pure _
  · exact quiet_throw _

theorem quiet_parentHandle (scope : Scope) (ref : ParentRef) : (parentHandle scope ref).Quiet := by
  have hrest (h : Handle) : Quiet (do
      let r ← get
      if r.isRole h then throw (r.wrongKind h .cls)
      return h) := by
    refine quiet_bind quiet_get fun r => ?_
    split
    · exact quiet_throw _
    · exact quiet_pure h
  cases ref with
  | named written => exact quiet_bind (quiet_lookUp scope written) hrest
  | handle h => exact hrest h

theorem sparing_consumeUse (scope : Scope) (htype : n ≤ type.index) (use : RoleUse) :
    (consumeUse scope type use).Sparing n fun _ => True := by
  cases use with
  | named written =>
    exact sparing_bind (quiet_lookUp scope written).sparing fun role _ =>
      sparing_consume htype role
  | tag written =>
    exact sparing_bind (quiet_qualify scope written).sparing fun qualified _ =>
      sparing_bind (sparing_tag htype qualified) fun _ _ => sparing_pure trivial
  | handle role => exact sparing_consume htype role

theorem sparing_declareHead (scope : Scope) (kind : Kind) (name : Option String)
    (isAbstract : Bool) (parent : Option ParentRef) (members : List WrittenMember) :
    (declareHead scope kind name isAbstract parent members).Sparing n (n ≤ ·.index) := by
  refine sparing_bind (quiet_optionMapM (quiet_qualify scope) name).sparing fun qualified _ => ?_
  have hparent := (quiet_optionMapM (quiet_parentHandle scope) parent).sparing (n := n)
  have hmembers := (quiet_mapM quiet_internMember members).sparing (n := n)
  cases kind with
  | cls =>
    exact sparing_guard (sparing_bind hparent fun p _ =>
      sparing_bind hmembers fun ms _ => sparing_declareType qualified _ ms)
  | role =>
    refine sparing_guard (sparing_bind hparent fun p _ =>
      sparing_bind hmembers fun ms _ =>
        sparing_bind (sparing_declareType qualified _ ms) fun role hrole => ?_)
    cases p with
    | none => exact sparing_pure hrole
    | some p => exact sparing_bind (sparing_extend hrole p) fun _ _ => sparing_pure hrole

mutual

theorem sparing_build (scope : Scope) : (b : Block) → (b.build scope).Sparing n (n ≤ ·.index)
  | ⟨kind, name, isAbstract, parent, roles, members, nested⟩ => by
    rw [Block.build]
    exact sparing_bind (sparing_declareHead scope kind name isAbstract parent members)
      fun type htype => sparing_bind sparing_get fun r _ =>
        sparing_bind (sparing_buildEach (innerScope scope kind type r) nested) fun _ _ =>
          sparing_bind (sparing_forM (sparing_consumeUse scope htype) roles) fun _ _ =>
            sparing_pure htype

theorem sparing_buildEach (scope : Scope) :
    (bs : List Block) → (Block.buildEach scope bs).Sparing n fun _ => True
  | [] => by
    rw [Block.buildEach]
    exact sparing_pure trivial
  | b :: rest => by
    rw [Block.buildEach]
    exact sparing_bind (sparing_build scope b) fun _ _ => sparing_buildEach scope rest

end

end Editing

end ObjectSystem
