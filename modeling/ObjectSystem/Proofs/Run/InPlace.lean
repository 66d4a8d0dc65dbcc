import ObjectSystem.Proofs.Registry.Granting
import ObjectSystem.Proofs.Run.Caution
import ObjectSystem.Proofs.Run.Conflict
import ObjectSystem.Proofs.Run.MemberIndex

/-!
# Edits in place

A change that may bring a conflict can also be made in place: it is written first, and taken back if
a conflict is found. Taking it back restores what was there, so this comes to the same as looking at
the changed catalog before it takes effect (`outcome_consumeInPlace`, `outcome_addMemberInPlace`). A
tag declares a role and would have to take it back as well, but a new role is always granted
(`outcome_tagInPlace`). A member is looked for in the index of its type, is written to it, and
leaves no trace in it when it is taken back.
-/

namespace ObjectSystem

open Registry Catalog

def TypeEntry.dropRole (t : TypeEntry) : TypeEntry := { t with roles := t.roles.dropLast }

@[simp] theorem TypeEntry.dropRole_withRole (t : TypeEntry) (role : Handle) :
    (t.withRole role).dropRole = t := by
  simp [dropRole, withRole]

def SymbolTable.unbind (s : SymbolTable) (name : Name) : SymbolTable := ⟨s.bindings.erase name⟩

namespace Catalog

variable {c : Catalog} {h : Handle}

theorem modify_modify_of_inverse {f g : TypeEntry → TypeEntry}
    (hfg : ∀ t, c.typeAt? h = some t → g (f t) = t) : (c.modify h f).modify h g = c := by
  have htypes : (c.types.modify h.index f).modify h.index g = c.types := by
    apply Array.ext_getElem?
    intro i
    rw [Array.getElem?_modify, Array.getElem?_modify]
    split
    · rename_i heq
      subst heq
      cases ht : c.types[h.index]? with
      | none => rfl
      | some t => rw [Option.map_some, Option.map_some, hfg t ht]
    · rfl
  simp only [modify, htypes]

/-- Takes the type that was declared last off again, with its name or its number. -/
def discardLast (c : Catalog) : Catalog :=
  match c.types.back? with
  | none => c
  | some t =>
    if t.isAnonymous then
      { c with types := c.types.pop, anonymousCount := c.anonymousCount - 1 }
    else { c with types := c.types.pop, symbols := c.symbols.unbind t.name }

end Catalog

namespace Editing

variable {α : Type}

def write (f : Catalog → Catalog) : Editing Unit :=
  modify fun r => { r with toCatalog := f r.toCatalog }

/-- Runs the computation; if it fails, what it wrote is taken back. -/
def orUndo (act : Editing α) (undo : Catalog → Catalog) : Editing α :=
  tryCatch act fun e => do
    write undo
    throw e

def recheck (type : Handle) : Editing Unit := step fun r => r.checked type r.toCatalog

def consumeInPlace (type role : Handle) : Editing Unit := do
  match (← get).proposeRole type role with
  | .error e => throw e
  | .ok none => return
  | .ok (some _) =>
    write (·.addRole type role)
    orUndo (recheck type) (·.modify type TypeEntry.dropRole)

/-- Adds a member, in the list and in the index, unless the index has one of its name. If there is
a conflict then, the member is taken off the list again and its name out of the index. -/
def addMemberInPlace (type : Handle) (m : Member) : Editing Unit := do
  let r ← get
  let some entry := r.typeAt? type | throw (r.unknownType type)
  if entry.isSealed then throw (r.typeSealed type)
  if entry.hasMember m.name then
    throw (.memberRepeated (r.display type) (r.names.lookup m.name))
  write (·.addMember type m)
  orUndo (recheck type) (·.modify type TypeEntry.popMember)

/-- Declares the role in the registry itself, and takes it back if it is not granted. -/
def tagInPlace (type : Handle) (qualified : String) : Editing Handle := do
  let r ← get
  match r.resolve? qualified with
  | some role =>
    if !r.isRole role then throw (.wrongKind qualified .role)
    consumeInPlace type role
    return role
  | none =>
    let some entry := r.typeAt? type | throw (r.unknownType type)
    if entry.isSealed then throw (r.typeSealed type)
    let role ← declareType (some qualified) (.role true) []
    orUndo (consumeInPlace type role) discardLast
    return role

/-! ## Outcomes -/

theorem outcome_write (f : Catalog → Catalog) (r : Registry) :
    (write f).outcome r = (.ok (), { r with toCatalog := f r.toCatalog }) := rfl

theorem outcome_orUndo (act : Editing α) (undo : Catalog → Catalog) (r : Registry) :
    (orUndo act undo).outcome r =
      match act.outcome r with
      | (.ok a, s) => (.ok a, s)
      | (.error e, s) => (.error e, { s with toCatalog := undo s.toCatalog }) := by
  show outcome (EStateM.tryCatch act _) r = _
  unfold outcome EStateM.run EStateM.tryCatch
  cases act r <;> rfl

end Editing

namespace Registry

open Editing

variable {r : Registry} {type role : Handle}

theorem display_of_agree {next : Catalog} (hnames : Agree TypeEntry.name r.toCatalog next) :
    display { r with toCatalog := next } = r.display := by
  funext h
  have heq := congrArg (Option.map r.names.lookup) (hnames.map_typeAt?_eq h)
  rw [Option.map_map, Option.map_map] at heq
  exact congrArg (Option.getD · h.text) heq

theorem outcome_recheck {next : Catalog} (hnames : Agree TypeEntry.name r.toCatalog next) :
    (recheck type).outcome { r with toCatalog := next } =
      match r.checked type next with
      | .ok after => (.ok (), after)
      | .error e => (.error e, { r with toCatalog := next }) := by
  rw [recheck, outcome_step]
  cases hconflict : next.firstConflict? type with
  | none => simp only [checked, hconflict]
  | some found => simp only [checked, hconflict, display_of_agree hnames]

/-- Writing a change, checking it and taking it back if need be is checking it first. -/
theorem outcome_orUndo_recheck {next : Catalog} {undo : Catalog → Catalog}
    (hnames : Agree TypeEntry.name r.toCatalog next) (hundo : undo next = r.toCatalog) :
    (orUndo (recheck type) undo).outcome { r with toCatalog := next } =
      (step (·.checked type next)).outcome r := by
  rw [outcome_orUndo, outcome_recheck hnames, outcome_step]
  cases r.checked type next with
  | ok after => rfl
  | error e => simp only [hundo]

theorem outcome_consumeInPlace (type role : Handle) (r : Registry) :
    (consumeInPlace type role).outcome r = (Editing.consume type role).outcome r := by
  rw [consumeInPlace, outcome_bind, outcome_get, Editing.consume, outcome_step, Registry.consume]
  dsimp only
  cases hproposal : r.proposeRole type role with
  | error e => rfl
  | ok proposal =>
    cases proposal with
    | none => rfl
    | some next =>
      obtain ⟨-, rfl⟩ := proposeRole_eq_some hproposal
      rw [outcome_bind, outcome_write]
      dsimp only
      rw [outcome_orUndo_recheck (agree_addRole fun _ => rfl)
        (modify_modify_of_inverse fun t _ => t.dropRole_withRole role), outcome_step]
      rfl

theorem outcome_addMemberInPlace (hr : KeepsIndices r.toCatalog) (type : Handle) (m : Member) :
    (addMemberInPlace type m).outcome r = (Editing.addMember type m).outcome r := by
  rw [addMemberInPlace, outcome_bind, outcome_get, Editing.addMember, outcome_step, insertMember,
    proposeMember]
  dsimp only
  cases ht : r.typeAt? type with
  | none => rfl
  | some t =>
    have hindex : t.hasMember m.name = t.declares m.name := (hr ht).inStep.hasMember_eq m.name
    dsimp only
    rw [hindex]
    split
    · rfl
    split
    · rfl
    rename_i hnew
    have hnames : Agree TypeEntry.name r.toCatalog (r.addMember type m) := .modify fun _ => rfl
    have hundo : (r.addMember type m).modify type TypeEntry.popMember = r.toCatalog := by
      refine modify_modify_of_inverse fun u hu => TypeEntry.popMember_withMember ?_
      obtain rfl := Option.some.inj (ht.symm.trans hu)
      exact hindex.trans (Bool.eq_false_of_not_eq_true hnew)
    rw [outcome_bind, outcome_write]
    dsimp only
    rw [outcome_orUndo_recheck hnames hundo, outcome_step]
    rfl

theorem declareType_tag_eq_ok {qualified : String} {s : Registry}
    (h : (declareType (some qualified) (.role true) []).outcome r = (.ok role, s)) :
    role = r.nextHandle ∧ ∃ entry, r.Appends entry s.toCatalog ∧ entry.isRole ∧
      entry.roles = [] ∧ entry.members = [] := by
  rw [declareType, outcome_bind] at h
  rcases outcome_internTypeName r .role (some qualified) with ⟨e, he⟩ | ⟨-, hname⟩
  · rw [Form.kind, he] at h
    cases h
  · rw [Form.kind, hname, outcome_intern] at h
    dsimp only at h
    rw [outcome_bind, outcome_get] at h
    dsimp only at h
    rw [outcome_bind, outcome_step] at h
    generalize hinserted : Registry.insertType _ _ _ _ _ = inserted at h
    cases inserted with
    | error e => cases h
    | ok next =>
      cases h
      obtain ⟨-, -, hplaced⟩ := insertType_eq_ok hinserted
      obtain ⟨-, -, happends⟩ := place_eq_ok hplaced
      exact ⟨rfl, _, happends, rfl, rfl, rfl⟩

theorem consume_new_eq_ok {s : Registry} {entry : TypeEntry} (hr : r.WellFormed) (hs : s.Settled)
    (happends : r.Appends entry s.toCatalog) (hrole : entry.isRole) (hroles : entry.roles = [])
    (hmembers : entry.members = []) (hopen : r.isOpen type) :
    ∃ after, s.consume type r.nextHandle = .ok after := by
  have hk := known_of_isOpen hopen
  have hadmits : s.Admits type r.nextHandle := by
    refine ⟨?_, ?_, ?_⟩
    · rwa [isOpen, happends.typeAt?_old hk]
    · rwa [isRole_of_entry happends.typeAt?_new]
    · rintro rfl
      exact not_known_nextHandle _ hk
  have hnew : ¬ s.Consumes type r.nextHandle := by
    rw [happends.consumes_eq hroles]
    exact fun hold => not_known_nextHandle _ (hr.known_of_consumes hold)
  refine ⟨_, consume_of_provides_nothing hs hadmits hnew ?_ fun m => ?_⟩
  · rw [rolesOf_of_entry happends.typeAt?_new, hroles]
  · rw [declares, happends.typeAt?_new, Option.any_some, TypeEntry.declares_eq_any, hmembers]
    rfl

/-- A role that has been declared as a tag for an open type is never taken back. -/
theorem exists_consume_declared {qualified : String} {s : Registry} (hr : r.Settled)
    (hopen : r.isOpen type)
    (hdeclared : (declareType (some qualified) (.role true) []).outcome r = (.ok role, s)) :
    s.Settled ∧ ∃ after, s.consume type role = .ok after := by
  have hevolves := evolving_declareType (some qualified) (.role true) [] r
  rw [hdeclared] at hevolves
  have hs : s.Settled := hevolves.preserves Step.settled hr
  obtain ⟨rfl, entry, happends, hrole, hroles, hmembers⟩ := declareType_tag_eq_ok hdeclared
  exact ⟨hs, consume_new_eq_ok hr.wellFormed hs happends hrole hroles hmembers hopen⟩

theorem outcome_declareTagInPlace (hr : r.Settled) (hopen : r.isOpen type) (qualified : String) :
    (declareType (some qualified) (.role true) [] >>= fun role =>
      orUndo (consumeInPlace type role) discardLast >>= fun _ => pure role).outcome r =
      (declareTag type qualified).outcome r := by
  rw [outcome_bind, declareTag, outcome_atomically, outcome_bind]
  have hcautious := cautious_declareType (some qualified) (.role true) [] r
  generalize hdeclared : (declareType (some qualified) (.role true) []).outcome r = out
    at hcautious
  obtain ⟨e | role, s⟩ := out
  · have hsame : s.toCatalog = r.toCatalog := hcautious e rfl
    simp only [settle, keepingNames, ← hsame]
  · obtain ⟨-, after, hafter⟩ := exists_consume_declared hr hopen hdeclared
    have hconsumed : (Editing.consume type role).outcome s = (.ok (), after) := by
      rw [Editing.consume, outcome_step, hafter]
    dsimp only
    rw [outcome_bind, outcome_orUndo, outcome_consumeInPlace, outcome_bind, hconsumed]
    rfl

theorem outcome_tagInPlace (hr : r.Settled) (qualified : String) :
    (tagInPlace type qualified).outcome r = (Editing.tag type qualified).outcome r := by
  rw [tagInPlace, Editing.tag, outcome_bind, outcome_bind, outcome_get]
  dsimp only
  cases r.resolve? qualified with
  | some role =>
    dsimp only
    split
    · rfl
    · rw [outcome_bind, outcome_bind, outcome_consumeInPlace]
  | none =>
    dsimp only
    cases ht : r.typeAt? type with
    | none => rfl
    | some t =>
      dsimp only
      split
      · rfl
      · rename_i hopen
        have hopen' : r.isOpen type := by simpa [isOpen, ht] using hopen
        exact outcome_declareTagInPlace hr hopen' qualified

end Registry

/-- The edit with its changes made in place. Blocks are built on a scratch copy as ever. -/
def Edit.runInPlace : Edit → Editing Reply
  | .consume type role => do
    Editing.consumeInPlace type role
    return .done
  | .addMember type m => do
    let m ← Editing.nameMember m
    Editing.addMemberInPlace type m
    return .done
  | .tag type qualified => return .handle (← Editing.tagInPlace type qualified)
  | e => e.run

def Operation.IsRefused (r : Registry) : Operation → Prop
  | .edit e => ∃ cause, (e.run.outcome r).1 = .error cause
  | .instantiate type fields => ∃ cause, r.instantiate type fields = .error cause
  | _ => False

namespace Registry

open Editing

variable {r : Registry}

theorem outcome_runInPlace (hr : r.Settled) (hindices : KeepsIndices r.toCatalog) (e : Edit) :
    e.runInPlace.outcome r = e.run.outcome r := by
  cases e with
  | consume type role => rw [Edit.runInPlace, Edit.run, outcome_bind, outcome_bind,
      outcome_consumeInPlace]
  | addMember type m =>
    have hquiet := quiet_nameMember m r
    rw [Edit.runInPlace, Edit.run, outcome_bind, outcome_bind]
    generalize (nameMember m).outcome r = out at hquiet
    obtain ⟨e | n, s⟩ := out
    · rfl
    · have hs : KeepsIndices s.toCatalog := hquiet ▸ hindices
      dsimp only
      rw [outcome_bind, outcome_bind, outcome_addMemberInPlace hs]
  | tag type qualified => rw [Edit.runInPlace, Edit.run, outcome_bind, outcome_bind,
      outcome_tagInPlace hr]
  | _ => rfl

theorem toCatalog_after_of_isRefused {o : Operation} (h : o.IsRefused r) :
    (o.after r).toCatalog = r.toCatalog := by
  cases o with
  | edit e =>
    obtain ⟨cause, hcause⟩ := h
    exact cautious_edit e r cause hcause
  | instantiate type fields =>
    obtain ⟨cause, hcause⟩ := h
    rw [Operation.after, hcause]
  | sealType => exact h.elim
  | sealAll => exact h.elim
  | intern => exact h.elim

/-- An operation that is refused leaves the catalog of a registry as it was, down to the index by
which each type finds its members. The interner may have gained strings, but every name it has given
out stands for the same string. The same comes of changes that are made in place and taken back on
failure. -/
theorem reachable_isRefused (h : Reachable r) :
    (∀ o : Operation, o.IsRefused r →
      (o.after r).toCatalog = r.toCatalog ∧ r.names.Grows (o.after r).names ∧
      ∀ n, r.names.Issued n → (o.after r).names.lookup n = r.names.lookup n) ∧
    (∀ e : Edit, e.runInPlace.outcome r = e.run.outcome r) ∧
    ∀ e : Edit, ∀ cause s, e.runInPlace.outcome r = (.error cause, s) →
      s.toCatalog = r.toCatalog ∧
      ∀ k, (s.typeAt? k).map TypeEntry.index = (r.typeAt? k).map TypeEntry.index := by
  have hinPlace := outcome_runInPlace h.settled h.keepsIndices
  refine ⟨fun o hrefused => ?_, hinPlace, fun e cause s hfailed => ?_⟩
  · have hgrows := (evolves_after o r).succeeds.grows
    exact ⟨toCatalog_after_of_isRefused hrefused, hgrows, fun n => hgrows.lookup_eq⟩
  · rw [hinPlace] at hfailed
    have hsame : s.toCatalog = r.toCatalog := by
      have hcautious := cautious_edit e r cause (congrArg Prod.fst hfailed)
      rwa [hfailed] at hcautious
    exact ⟨hsame, fun k => by rw [hsame]⟩

/-- Swimmers get no legs: ducks, which have those of a walker, would not know which are theirs. -/
def leggedSwimmer : Edit := .addMember ⟨1⟩ (WrittenMember.optional "legs")

theorem farm_isRefused :
    (leggedSwimmer.runInPlace.outcome farm).1 =
      .error (.memberConflict "Duck" "legs" ["Walker", "Swimmer"]) ∧
    ((Operation.edit leggedSwimmer).after farm).toCatalog = farm.toCatalog := by
  obtain ⟨hrefused, hinPlace, -⟩ := reachable_isRefused reachable_farm
  have hcause : (leggedSwimmer.run.outcome farm).1 =
      .error (.memberConflict "Duck" "legs" ["Walker", "Swimmer"]) := by decide +kernel
  have hsame := congrArg Prod.fst (hinPlace leggedSwimmer)
  exact ⟨hsame.trans hcause, (hrefused (.edit leggedSwimmer) ⟨_, hcause⟩).1⟩

end Registry

end ObjectSystem
