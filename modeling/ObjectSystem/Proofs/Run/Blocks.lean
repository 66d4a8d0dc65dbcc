import ObjectSystem.Proofs.Linearization.Retention
import ObjectSystem.Proofs.Registry.Calling
import ObjectSystem.Proofs.Run.Growth
import ObjectSystem.Proofs.Run.Sparing

/-!
# Declaring blocks is conservative

A block is built at the end of the registry: its own type gets the next free place
(`declaresNext_build`), and nothing that was declared before is written to. Since no old type
extends or consumes a new one, everything that is asked of an old type has the answer of before
(`reachable_declare`).
-/

namespace ObjectSystem

open Registry Catalog

namespace Editing

variable {α β : Type} {r s : Registry}

theorem outcome_bind_eq_ok {act : Editing α} {f : α → Editing β} {b : β} :
    (act >>= f).outcome r = (.ok b, s) ↔
      ∃ a t, act.outcome r = (.ok a, t) ∧ (f a).outcome t = (.ok b, s) := by
  rw [outcome_bind]
  generalize act.outcome r = out
  obtain ⟨e | a, t⟩ := out
  · simp
  · simp

/-! ## The place of a block -/

/-- If the computation succeeds, it has declared a type in the next free place, whose handle is its
result. -/
def DeclaresNext (act : Editing Handle) : Prop :=
  ∀ r s h, act.outcome r = (.ok h, s) → h = r.nextHandle ∧ s.Known h

def Returns (act : Editing α) (a : α) : Prop := ∀ r s b, act.outcome r = (.ok b, s) → b = a

theorem returns_pure (a : α) : Returns (pure a) a := by
  intro r s b h
  cases h
  rfl

theorem returns_bind {act : Editing α} {f : α → Editing β} {b : β} (hf : ∀ a, (f a).Returns b) :
    (act >>= f).Returns b := by
  intro r s c h
  obtain ⟨a, t, -, hrest⟩ := outcome_bind_eq_ok.mp h
  exact hf a _ _ _ hrest

theorem declaresNext_bind {act : Editing α} {f : α → Editing Handle} (hact : act.Quiet)
    (hf : ∀ a, (f a).DeclaresNext) : (act >>= f).DeclaresNext := by
  intro r s h hok
  obtain ⟨a, t, hfirst, hrest⟩ := outcome_bind_eq_ok.mp hok
  have hsame : t.toCatalog = r.toCatalog := by
    rw [← hact r, hfirst]
  obtain ⟨rfl, hknown⟩ := hf a _ _ _ hrest
  exact ⟨by rw [hsame], hknown⟩

theorem declaresNext_then {act : Editing Handle} {f : Handle → Editing Handle}
    (hact : act.DeclaresNext) (hevolving : ∀ h, (f h).Evolving) (hf : ∀ h, (f h).Returns h) :
    (act >>= f).DeclaresNext := by
  intro r s h hok
  obtain ⟨k, t, hfirst, hrest⟩ := outcome_bind_eq_ok.mp hok
  obtain rfl := hf k _ _ _ hrest
  obtain ⟨hnext, hknown⟩ := hact _ _ _ hfirst
  have hgrows := (hevolving h t).grows
  rw [hrest] at hgrows
  exact ⟨hnext, hgrows.known hknown⟩

theorem declaresNext_guard {c : Prop} [Decidable c] {e : EditError} {act : Editing Handle}
    (hact : act.DeclaresNext) :
    DeclaresNext (if c then (throw e >>= fun _ : PUnit => act) else act) := by
  split
  · intro r s h hok
    cases hok
  · exact hact

theorem declaresNext_declareType (name : Option String) (form : Form)
    (members : List Member) : (declareType name form members).DeclaresNext := by
  refine declaresNext_bind (quiet_internTypeName form.kind name) fun typeName => ?_
  intro r s h hok
  obtain ⟨_, _, hget, hok⟩ := outcome_bind_eq_ok.mp hok
  cases hget
  obtain ⟨_, t, hinserted, hok⟩ := outcome_bind_eq_ok.mp hok
  cases hok
  rw [outcome_step] at hinserted
  split at hinserted <;> cases hinserted
  rename_i hinserted
  obtain ⟨-, -, hplaced⟩ := insertType_eq_ok hinserted
  exact ⟨rfl, (place_eq_ok hplaced).2.2.known_iff.mpr (.inr rfl)⟩

theorem declaresNext_declareHead (scope : Scope) (kind : Kind) (name : Option String)
    (isAbstract : Bool) (parent : Option ParentRef) (members : List WrittenMember) :
    (declareHead scope kind name isAbstract parent members).DeclaresNext := by
  refine declaresNext_bind (quiet_optionMapM (quiet_qualify scope) name) fun qualified => ?_
  have hparent := quiet_optionMapM (quiet_parentHandle scope) parent
  have hmembers := quiet_mapM quiet_internMember members
  cases kind with
  | cls =>
    exact declaresNext_guard (declaresNext_bind hparent fun p =>
      declaresNext_bind hmembers fun ms => declaresNext_declareType qualified _ ms)
  | role =>
    refine declaresNext_guard (declaresNext_bind hparent fun p =>
      declaresNext_bind hmembers fun ms =>
        declaresNext_then (declaresNext_declareType qualified _ ms) (fun role => ?_)
          fun role => ?_)
    · cases p with
      | none => exact evolving_pure role
      | some p => exact evolving_bind (evolving_extend role p) fun _ => evolving_pure role
    · cases p with
      | none => exact returns_pure role
      | some p => exact returns_bind fun _ => returns_pure role

theorem declaresNext_build (scope : Scope) (b : Block) : (b.build scope).DeclaresNext := by
  obtain ⟨kind, name, isAbstract, parent, roles, members, nested⟩ := b
  rw [Block.build]
  refine declaresNext_then (declaresNext_declareHead scope kind name isAbstract parent members)
    (fun type => ?_) fun type => ?_
  · exact evolving_bind evolving_get fun r =>
      evolving_bind (evolving_buildEach (innerScope scope kind type r) nested) fun _ =>
        evolving_bind (evolving_forM (evolving_consumeUse scope type) roles) fun _ =>
          evolving_pure type
  · exact returns_bind fun _ => returns_bind fun _ => returns_bind fun _ => returns_pure type

end Editing

namespace Registry

open Editing

variable {r s : Registry} {h : Handle}

/-- The type is what it was, and everything that is asked of it has the answer of before. Where its
members are asked for by string, what the string calls has to be settled, and where instances are
made, no attribute may have a name that was issued in between. -/
structure SameFor (r s : Registry) (h : Handle) : Prop where
  typeAt?_eq : s.typeAt? h = r.typeAt? h
  typeName?_eq : s.typeName? h = r.typeName? h
  lineage_eq : s.lineage h = r.lineage h
  resolutionOrder_eq : s.resolutionOrder h = r.resolutionOrder h
  isA_eq : ∀ target, s.isA h target = r.isA h target
  does_eq : ∀ target, s.does h target = r.does h target
  membersInForce_eq : s.membersInForce h = r.membersInForce h
  inForce?_eq : ∀ m, s.inForce? h m = r.inForce? h m
  memberCalled?_eq : ∀ label, r.CallSettled s h label →
    s.memberCalled? h label = r.memberCalled? h label
  conflicts_eq : s.conflicts h = r.conflicts h
  instantiate_eq : r.AttributesIssuedBefore s h → ∀ fields,
    (s.instantiate h fields).map Prod.fst = (r.instantiate h fields).map Prod.fst
  sealType_eq : ∀ k, r.Known k → (s.sealType h).typeAt? k = (r.sealType h).typeAt? k

/-- Nothing has happened to the types of before and to what their names are bound to. -/
structure Conserves (r s : Registry) : Prop where
  sameFor : ∀ h, r.Known h → SameFor r s h
  symbol : ∀ name h, r.symbols.resolve? name = some h → s.symbols.resolve? name = some h
  resolve? : ∀ q h, r.resolve? q = some h → s.resolve? q = some h

theorem Reachable.retains (hr : Reachable r) (hrs : Evolves r s)
    (hspares : Spares r.size r.toCatalog s.toCatalog) :
    Retains r.Known r.toCatalog s.toCatalog where
  wellFormed := hr.wellFormed
  wellFormed' := hrs.wellFormed hr.wellFormed
  known := id
  parent _ hab := hr.wellFormed.known_of_extends hab
  role _ hab := hr.wellFormed.known_of_consumes hab
  typeAt?_eq hk := hspares.typeAt?_eq _ hk

theorem Reachable.sameFor (hr : Reachable r) (hrs : Evolves r s)
    (hspares : Spares r.size r.toCatalog s.toCatalog) (hk : r.Known h) : SameFor r s h := by
  have hretains := hr.retains hrs hspares
  have hmembers := hretains.membersInForce_eq hk
  have hattributes : s.attributesInForce h = r.attributesInForce h := by
    rw [attributesInForce, hmembers, attributesInForce]
  exact {
    typeAt?_eq := hretains.typeAt?_eq hk
    typeName?_eq := hr.named.typeName?_eq hrs.grows hrs.succeeds.grows hk
    lineage_eq := hretains.lineage_eq hk
    resolutionOrder_eq := hretains.resolutionOrder_eq hk
    isA_eq := hretains.isA_eq hk
    does_eq := hretains.does_eq hk
    membersInForce_eq := hmembers
    inForce?_eq := fun m => hretains.inForce?_eq hk
    memberCalled?_eq := fun _ hsettled => hsettled.memberCalled?_eq hrs.succeeds.grows hmembers
    conflicts_eq := hretains.conflicts_eq hk
    instantiate_eq := fun hbefore fields => by
      rw [map_fst_instantiate, map_fst_instantiate]
      exact hrs.succeeds.construct_eq hr.named hbefore (hretains.typeAt?_eq hk) hattributes fields
    sealType_eq := fun k hk' => by
      rw [sealType, sealType, typeAt?_sealEach, typeAt?_sealEach, hretains.resolutionOrder_eq hk,
        hretains.typeAt?_eq hk'] }

theorem Reachable.conserves (hr : Reachable r) (hrs : Evolves r s)
    (hspares : Spares r.size r.toCatalog s.toCatalog) : Conserves r s where
  sameFor _ := hr.sameFor hrs hspares
  symbol _ _ := hrs.grows.resolve?
  resolve? _ _ := resolve?_mono hrs.grows hrs.succeeds.grows

theorem Reachable.conserves_outcome {α : Type} {act : Editing α} {P : α → Prop}
    (hr : Reachable r) (hevolving : act.Evolving) (hsparing : act.Sparing r.size P) :
    Conserves r (act.outcome r).2 :=
  hr.conserves (hevolving r) (hsparing r (Nat.le_refl _)).1

theorem outcome_of_atomically_eq_ok {α : Type} {act : Editing α} {a : α}
    (h : (atomically act).outcome r = (.ok a, s)) : act.outcome r = (.ok a, s) := by
  rw [outcome_atomically] at h
  generalize act.outcome r = out at h
  obtain ⟨e | b, t⟩ := out
  · cases h
  · exact h

/-- The blocks are built one after another, and the handle that each results in is that of the place
which is free next when it is started. -/
inductive Builds (scope : Scope) : Registry → List Block → List Handle → Registry → Prop
  | done (r : Registry) : Builds scope r [] [] r
  | next {r t s : Registry} {b : Block} {bs : List Block} {hs : List Handle}
      (hfirst : (b.build scope).outcome r = (.ok r.nextHandle, t))
      (hrest : Builds scope t bs hs s) : Builds scope r (b :: bs) (r.nextHandle :: hs) s

theorem builds_of_mapM {scope : Scope} {bs : List Block} {hs : List Handle}
    (h : Editing.outcome (bs.mapM (Block.build scope)) r = (.ok hs, s)) :
    Builds scope r bs hs s := by
  induction bs generalizing r hs with
  | nil =>
    cases h
    exact .done _
  | cons b bs ih =>
    rw [List.mapM_cons] at h
    obtain ⟨k, t, hfirst, hrest⟩ := outcome_bind_eq_ok.mp h
    obtain ⟨ks, u, hmapped, hpure⟩ := outcome_bind_eq_ok.mp hrest
    cases hpure
    obtain ⟨rfl, -⟩ := declaresNext_build scope b _ _ _ hfirst
    exact .next hfirst (ih hmapped)

/-- Declaring a block, or several, leaves every type of before as it is, with the answers to all
that can be asked of it, whatever the blocks refer to. Each block gets the place that is free next
when it is started. -/
theorem reachable_declare (hr : Reachable r) (scope : Scope) :
    (∀ b h s, (declare scope b).outcome r = (.ok h, s) →
      h = r.nextHandle ∧ s.Known h ∧ Conserves r s) ∧
    ∀ bs hs s, (declareAll scope bs).outcome r = (.ok hs, s) →
      Builds scope r bs hs s ∧ Conserves r s := by
  refine ⟨fun b h s hdeclared => ?_, fun bs hs s hdeclared => ?_⟩
  · obtain ⟨hnext, hknown⟩ := declaresNext_build scope b _ _ _
      (outcome_of_atomically_eq_ok hdeclared)
    have hconserves := hr.conserves_outcome (evolving_declare scope b)
      (sparing_atomically (sparing_build scope b))
    rw [hdeclared] at hconserves
    exact ⟨hnext, hknown, hconserves⟩
  · have hconserves := hr.conserves_outcome (evolving_declareAll scope bs)
      (sparing_atomically (sparing_mapM (sparing_build scope) bs))
    rw [hdeclared] at hconserves
    exact ⟨builds_of_mapM (outcome_of_atomically_eq_ok hdeclared), hconserves⟩

/-- A goose extends the animals of the farm and swims. It honks, by a role that is nested in it, and
flies, by a tag. -/
def goose : Block :=
  { kind := .cls, name := some "Goose", parent := some (.named "Animal"),
    roles := [.handle ⟨1⟩, .named "Goose::Honker", .tag "Flyer"], members := [.optional "move"],
    nested := [{ kind := .role, name := some "+Honker", members := [.optional "honk"] }] }

def gooseFarm : Registry := ((declare .root goose).outcome farm).2

/-- The goose gets the place after the duck, and the duck is what it was and is made as it was. -/
theorem farm_declare : (declare .root goose).outcome farm = (.ok ⟨4⟩, gooseFarm) ∧
    gooseFarm.typeName? ⟨5⟩ = some "Goose::Honker" ∧
    gooseFarm.resolutionOrder ⟨3⟩ = farm.resolutionOrder ⟨3⟩ ∧
    gooseFarm.conflicts ⟨3⟩ = farm.conflicts ⟨3⟩ ∧
    ∀ fields, (gooseFarm.instantiate ⟨3⟩ fields).map Prod.fst =
      (farm.instantiate ⟨3⟩ fields).map Prod.fst := by
  have hgoose : (declare .root goose).outcome farm = (.ok ⟨4⟩, gooseFarm) := by
    have hok : ((declare .root goose).outcome farm).1 = .ok ⟨4⟩ := by decide +kernel
    rw [gooseFarm, ← hok]
  have hhonker : gooseFarm.typeName? ⟨5⟩ = some "Goose::Honker" := by decide +kernel
  have hduck : farm.Known ⟨3⟩ := known_of_isClass (by decide +kernel)
  obtain ⟨hdeclare, -⟩ := reachable_declare reachable_farm .root
  obtain ⟨-, -, hconserves⟩ := hdeclare goose _ _ hgoose
  have hsame := hconserves.sameFor _ hduck
  exact ⟨hgoose, hhonker, hsame.resolutionOrder_eq, hsame.conflicts_eq,
    hsame.instantiate_eq (by decide +kernel)⟩

def cow : Block := { kind := .cls, name := some "Cow" }

def cowFen : Registry := ((declare .root cow).outcome fen).2

/-- The declaration of a cow changes what comes of making a duck of the fen: the key is known now,
as the name of the cow is that of an attribute of the duck. -/
theorem fen_not_conserved : Reachable fen ∧ (declare .root cow).outcome fen = (.ok ⟨1⟩, cowFen) ∧
    fen.Known ⟨0⟩ ∧ (fen.instantiate ⟨0⟩ [("Cow", .nil)]).isOk = false ∧
    (cowFen.instantiate ⟨0⟩ [("Cow", .nil)]).isOk := by
  have hcow : (declare .root cow).outcome fen = (.ok ⟨1⟩, cowFen) := by
    have hok : ((declare .root cow).outcome fen).1 = .ok ⟨1⟩ := by decide +kernel
    rw [cowFen, ← hok]
  exact ⟨reachable_fen, hcow, show 0 < fen.size by decide +kernel, by decide +kernel,
    by decide +kernel⟩

end Registry

end ObjectSystem
