import ObjectSystem.Proofs.Conflict.DepthFirst
import ObjectSystem.Proofs.Run.Providers

/-!
# Refusals for a conflict

When a consumption or a new member is refused for a conflict, the refusal names a class of the graph
that was asked for and the roles that stand behind one of its names (`reachable_memberConflict`).
These roles are listed depth first, which need not be their resolution order
(`pond_not_resolutionOrder`).
-/

namespace ObjectSystem.Registry

open Catalog Editing Relation

variable {r s : Registry} {type role k : Handle} {next : Catalog} {cls member : String}
  {roles : List String}

/-- The catalog with which a registry would go on if it granted a consumption or a new member. -/
inductive AsksFor (r : Registry) : Edit → Catalog → Prop
  | consume (type role : Handle) : r.AsksFor (.consume type role) (r.addRole type role)
  | addMember (type : Handle) (m : Member) :
      r.AsksFor (.addMember type (.named m)) (r.addMember type m)
  | addWritten (type : Handle) (m : WrittenMember) : r.AsksFor (.addMember type m)
      (r.addMember type ⟨(r.names.intern m.name).1, m.kind⟩)

structure ReportsConflict (s : Registry) (next : Catalog) (k : Handle) (conflict : Provision)
    (cls member : String) (roles : List String) : Prop where
  mem_conflicts : conflict ∈ next.conflicts k
  cls_eq : cls = s.display k
  member_eq : member = s.names.lookup conflict.member
  roles_eq : roles = conflict.roles.map s.display

theorem checked_eq_memberConflict
    (h : r.checked type next = .error (.memberConflict cls member roles)) :
    ∃ k conflict, r.ReportsConflict next k conflict cls member roles := by
  rw [checked] at h
  split at h
  · cases h
  · rename_i k conflict hfirst
    cases h
    rw [firstConflict?] at hfirst
    obtain ⟨x, -, hx⟩ := List.exists_of_findSome?_eq_some hfirst
    obtain ⟨p, hp, heq⟩ := Option.map_eq_some_iff.mp hx
    cases heq
    exact ⟨k, conflict, List.mem_of_head? hp, rfl, rfl, rfl⟩

theorem proposeRole_ne_memberConflict :
    r.proposeRole type role ≠ .error (.memberConflict cls member roles) := by
  intro h
  simp only [proposeRole, bind, Except.bind, pure, Except.pure, throw, throwThe,
    MonadExceptOf.throw, unknownType, wrongKind, typeSealed] at h
  split at h <;> try cases h
  split at h <;> try cases h
  split at h <;> try cases h
  split at h <;> try cases h
  split at h <;> try cases h
  split at h <;> try cases h
  split at h <;> cases h

theorem proposeMember_ne_memberConflict {m : Member} :
    r.proposeMember type m ≠ .error (.memberConflict cls member roles) := by
  intro h
  simp only [proposeMember, bind, Except.bind, pure, Except.pure, throw, throwThe,
    MonadExceptOf.throw, unknownType, typeSealed] at h
  split at h <;> try cases h
  split at h <;> try cases h
  split at h <;> cases h

theorem bind_eq_error {α β : Type} {x : Except EditError α} {f : α → Except EditError β}
    {e : EditError} :
    (x >>= f) = .error e ↔ x = .error e ∨ ∃ a, x = .ok a ∧ f a = .error e := by
  cases x <;> simp [bind, Except.bind]

theorem consume_eq_memberConflict
    (h : r.consume type role = .error (.memberConflict cls member roles)) :
    r.MayConsume type role ∧
      r.checked type (r.addRole type role) = .error (.memberConflict cls member roles) := by
  rcases bind_eq_error.mp h with hproposal | ⟨proposal, hproposal, hrest⟩
  · exact absurd hproposal proposeRole_ne_memberConflict
  · cases proposal with
    | none => cases hrest
    | some cat =>
      obtain ⟨hmay, rfl⟩ := proposeRole_eq_some hproposal
      exact ⟨hmay, hrest⟩

theorem insertMember_eq_memberConflict {m : Member}
    (h : r.insertMember type m = .error (.memberConflict cls member roles)) :
    r.checked type (r.addMember type m) = .error (.memberConflict cls member roles) := by
  rcases bind_eq_error.mp h with hproposal | ⟨cat, hproposal, hchecked⟩
  · exact absurd hproposal proposeMember_ne_memberConflict
  · obtain ⟨-, -, rfl⟩ := proposeMember_eq_ok hproposal
    exact hchecked

theorem outcome_step_eq_error {α : Type} {change : Registry → Except EditError Registry} {a : α}
    {e : EditError} (h : (step change >>= fun _ => pure a).outcome r = (.error e, s)) :
    change r = .error e ∧ s = r := by
  rw [outcome_bind, outcome_step] at h
  cases hchange : change r with
  | ok next =>
    rw [hchange] at h
    cases h
  | error e =>
    rw [hchange] at h
    cases h
    exact ⟨rfl, rfl⟩

theorem AsksFor.reportsConflict {e : Edit} (hasks : r.AsksFor e next) (wf : r.WellFormed)
    (hrefused : e.run.outcome r = (.error (.memberConflict cls member roles), s)) :
    next.WellFormed ∧ ∃ k conflict, s.ReportsConflict next k conflict cls member roles := by
  cases hasks with
  | consume type role =>
    obtain ⟨hconsume, rfl⟩ := outcome_step_eq_error hrefused
    obtain ⟨hmay, hchecked⟩ := consume_eq_memberConflict hconsume
    exact ⟨hmay.wellFormed wf, checked_eq_memberConflict hchecked⟩
  | addMember type m =>
    obtain ⟨hinsert, rfl⟩ := outcome_step_eq_error hrefused
    have hchecked := insertMember_eq_memberConflict hinsert
    exact ⟨sameGraph_addMember.wellFormed wf, checked_eq_memberConflict hchecked⟩
  | addWritten type m =>
    -- the name of the member has been interned when the graph is looked at
    have hinterned : (step (·.insertMember type ⟨(r.names.intern m.name).1, m.kind⟩) >>=
        fun _ => pure Reply.done).outcome { r with names := (r.names.intern m.name).2 } =
        (.error (.memberConflict cls member roles), s) := hrefused
    obtain ⟨hinsert, rfl⟩ := outcome_step_eq_error hinterned
    have hchecked := insertMember_eq_memberConflict hinsert
    exact ⟨sameGraph_addMember.wellFormed wf, checked_eq_memberConflict hchecked⟩

/-- A consumption or a new member that is refused for a conflict. The refusal names a class of the
graph that was asked for, one of its names and the roles behind that name, each of which is in the
resolution order of the class. They are listed depth first: for each role that the class consumes,
in turn, the roles nearest to it that declare the name, and none of them twice. -/
theorem reachable_memberConflict (hr : Reachable r) {e : Edit} (hasks : r.AsksFor e next)
    (hrefused : e.run.outcome r = (.error (.memberConflict cls member roles), s)) :
    ∃ k conflict, s.ReportsConflict next k conflict cls member roles ∧ next.isClass k ∧
      (∀ p ∈ conflict.roles, p ∈ next.resolutionOrder k) ∧
      conflict.roles =
        ((next.rolesOf k).flatMap (next.definersFrom conflict.member)).eraseDups ∧
      ∀ x, next.definersFrom conflict.member x =
        if next.declares x conflict.member then [x]
        else (next.rolesOf x).flatMap (next.definersFrom conflict.member) := by
  obtain ⟨wf, k, conflict, hreport⟩ := hasks.reportsConflict hr.wellFormed hrefused
  have hmem := hreport.mem_conflicts
  have hclass : next.isClass k := by
    by_contra hnot
    rw [conflicts_of_not_isClass hnot] at hmem
    cases hmem
  have hprovided := (conflicts_sublist k).subset hmem
  refine ⟨k, conflict, hreport, hclass, fun p hp => ?_, roles_eq_definersBelow hprovided,
    wf.grounded.definersFrom_eq⟩
  rw [wf.grounded.mem_roles_iff hprovided, offers_iff_mem_nearestDefiners] at hp
  obtain ⟨-, x, hkx, hpath⟩ := hp
  rw [wf.mem_resolutionOrder_iff_reaches (known_of_isClass hclass)]
  refine .head (.inr hkx) (ReflTransGen.mono (fun a b hab => .inr hab.2) _ _ hpath)

/-- A duck that walks. Who walks moves, and who swims has a move of its own. -/
def pond : Registry :=
  [.edit (.declareRole (some "Mover") [WrittenMember.optional "move"]),
    .edit (.declareRole (some "Walker") []),
    .edit (.declareRole (some "Swimmer") [WrittenMember.optional "move"]),
    .edit (.declareClass (some "Duck") none false []),
    .edit (.consume ⟨1⟩ ⟨0⟩),
    .edit (.consume ⟨3⟩ ⟨1⟩)].foldl Operation.after (.new {} .empty)

theorem reachable_pond : Reachable pond := (reachable_new {}).run (run_foldl _ _)

def swimmingPond : Catalog := pond.addRole ⟨3⟩ ⟨2⟩

theorem pond_consume :
    pond.consume ⟨3⟩ ⟨2⟩ = .error (.memberConflict "Duck" "move" ["Mover", "Swimmer"]) := by
  have hadmits : pond.Admits ⟨3⟩ ⟨2⟩ := by constructor <;> decide +kernel
  have hnew : ⟨2⟩ ∉ pond.rolesOf ⟨3⟩ := by decide +kernel
  have hclass : pond.isRole ⟨3⟩ = false := by decide +kernel
  have hproposal : pond.proposeRole ⟨3⟩ ⟨2⟩ = .ok (some swimmingPond) := by
    rw [proposeRole_of_admits hadmits, if_neg hnew, hclass]
    rfl
  have hfirst : swimmingPond.firstConflict? ⟨3⟩ =
      some (⟨3⟩, ⟨(pond.names.get? "move").getD .empty, [⟨0⟩, ⟨2⟩]⟩) := by decide +kernel
  have hclassName : pond.display ⟨3⟩ = "Duck" := by decide +kernel
  have hmember : pond.names.lookup ((pond.names.get? "move").getD .empty) = "move" := by
    decide +kernel
  have hroles : [⟨0⟩, ⟨2⟩].map pond.display = ["Mover", "Swimmer"] := by decide +kernel
  simp only [Registry.consume, hproposal, bind, Except.bind, checked, hfirst, hclassName, hmember,
    hroles]

theorem pond_outcome : (Edit.consume ⟨3⟩ ⟨2⟩).run.outcome pond =
    (.error (.memberConflict "Duck" "move" ["Mover", "Swimmer"]), pond) := by
  rw [Edit.run, outcome_bind, Editing.consume, outcome_step, pond_consume]

/-- The duck would get its move from those who move, by way of walking, and from those who swim. -/
theorem pond_refusal : ∃ k conflict,
    pond.ReportsConflict swimmingPond k conflict "Duck" "move" ["Mover", "Swimmer"] ∧
    conflict.roles = ((swimmingPond.rolesOf k).flatMap
      (swimmingPond.definersFrom conflict.member)).eraseDups := by
  obtain ⟨k, conflict, hreport, -, -, hroles, -⟩ :=
    reachable_memberConflict reachable_pond (.consume ⟨3⟩ ⟨2⟩) pond_outcome
  exact ⟨k, conflict, hreport, hroles⟩

/-- In the resolution order of the duck it is the other way round: it consumes those who swim
itself, and those who move by way of those who walk. -/
theorem pond_not_resolutionOrder : Reachable pond ∧
    (Edit.consume ⟨3⟩ ⟨2⟩).run.outcome pond =
      (.error (.memberConflict "Duck" "move" ["Mover", "Swimmer"]), pond) ∧
    (swimmingPond.conflicts ⟨3⟩).map Provision.roles = [[⟨0⟩, ⟨2⟩]] ∧
    swimmingPond.resolutionOrder ⟨3⟩ = [⟨3⟩, ⟨1⟩, ⟨2⟩, ⟨0⟩] ∧
    ¬ [⟨0⟩, ⟨2⟩].Sublist (swimmingPond.resolutionOrder ⟨3⟩) := by
  refine ⟨reachable_pond, pond_outcome, ?_, ?_, ?_⟩ <;> decide +kernel

end ObjectSystem.Registry
