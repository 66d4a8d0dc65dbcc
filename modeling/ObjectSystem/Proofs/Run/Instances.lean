import ObjectSystem.Proofs.Registry.Calling
import ObjectSystem.Proofs.Run.Growth
import ObjectSystem.Proofs.Run.Sealing

/-!
# Instances along runs

Making an instance seals its class, so the class goes on having the members that it had then, under
names that go on standing for the same strings once they have been issued. What a call of one of
these members gives is settled by the time the instance is made (`reachable_call`).
-/

namespace ObjectSystem.Registry

open Catalog

variable {r s after : Registry} {type : Handle} {fields : List (String × Value)}
  {object : Instance} {m : OwnedMember}

theorem construct_of_instantiate (h : r.instantiate type fields = .ok (object, after)) :
    r.construct type fields = .ok object := by
  rw [← map_fst_instantiate, h]
  rfl

theorem exists_instantiate_eq_ok (h : (r.instantiate type fields).isOk) :
    ∃ object after, r.instantiate type fields = .ok (object, after) := by
  cases hmade : r.instantiate type fields with
  | error e =>
    rw [hmade] at h
    cases h
  | ok made => exact ⟨made.1, made.2, rfl⟩

theorem run_of_instantiate (h : r.instantiate type fields = .ok (object, after)) : Run r after := by
  have hstep := Run.perform (.start r) (.instantiate type fields)
  rwa [Operation.after, h] at hstep

/-- A class of which an instance has been made is what it was then, and sealed. -/
theorem Reachable.typeAt?_of_instantiate (hr : Reachable r)
    (hmade : r.instantiate type fields = .ok (object, after)) (hrun : Run after s) :
    ∃ t, r.typeAt? type = some t ∧ t.isClass ∧ s.typeAt? type = some t.asSealed := by
  obtain ⟨⟨t, ht, hclass, -⟩, -⟩ := construct_eq_ok (construct_of_instantiate hmade)
  have hself : type ∈ r.resolutionOrder type :=
    hr.wellFormed.mem_resolutionOrder.mpr
      ⟨type, hr.wellFormed.mem_lineage_self (known_of_typeAt? ht), .refl⟩
  have hafter : after.typeAt? type = some t.asSealed := by
    rw [instantiate_eq_ok hmade, sealType, typeAt?_sealEach, if_pos hself, ht, Option.map_some]
  have hsealed : after.isSealed type := isSealed_iff.mpr ⟨_, hafter, rfl⟩
  exact ⟨t, ht, hclass, (hrun.evolves.keepsSealed type hsealed).trans hafter⟩

theorem seals_of_instantiate (hmade : r.instantiate type fields = .ok (object, after)) :
    Seals r.toCatalog after.toCatalog := by
  rw [instantiate_eq_ok hmade]
  exact seals_sealType _ type

section

variable (hr : Reachable r) (hmade : r.instantiate type fields = .ok (object, after))
  (hrun : Run after s)

include hr hmade

theorem Reachable.isSealed_of_instantiate : after.isSealed type := by
  obtain ⟨t, -, -, ht⟩ := hr.typeAt?_of_instantiate hmade (.start after)
  exact isSealed_iff.mpr ⟨_, ht, rfl⟩

include hrun

theorem Reachable.lineage_of_instantiate : s.lineage type = r.lineage type := by
  have hlater := (hr.run (run_of_instantiate hmade)).later hrun
  rw [hlater.lineage_eq (hr.isSealed_of_instantiate hmade)]
  exact (seals_of_instantiate hmade).sameGraph.parent.lineage_eq type

theorem Reachable.membersInForce_of_instantiate :
    s.membersInForce type = r.membersInForce type := by
  have hlater := (hr.run (run_of_instantiate hmade)).later hrun
  rw [hlater.membersInForce_eq (hr.isSealed_of_instantiate hmade)]
  exact (seals_of_instantiate hmade).membersInForce_eq type

theorem Reachable.typeName?_of_instantiate : s.typeName? type = r.typeName? type := by
  obtain ⟨t, ht, -⟩ := hr.typeAt?_of_instantiate hmade hrun
  have hrun' := (run_of_instantiate hmade).trans hrun
  exact hr.named.typeName?_eq hrun'.grows hrun'.evolves.succeeds.grows (known_of_typeAt? ht)

end

/-- What the instance answers in a later state, by what it was made of. -/
structure AnswersAsMade (r : Registry) (type : Handle) (fields : List (String × Value))
    (object : Instance) (s : Registry) : Prop where
  keepsName : ∀ label name, r.names.get? label = some name → s.names.get? label = some name
  stored : ∀ m ∈ r.membersInForce type, ∀ rules, m.member.kind = .stored rules →
    ∀ label, s.names.get? label = some m.member.name →
      s.call object label [] =
        .ok (((r.suppliedUnder? fields label).or rules.default).getD .nil) ∧
      ∀ args, args ≠ [] → s.call object label args = .error (.attributeWithArguments label)
  method : ∀ m ∈ r.membersInForce type, ∀ body, m.member.kind = .method body →
    ∀ label, s.names.get? label = some m.member.name →
      s.ownerOf? type label = some m.owner ∧
      ∀ args, s.call object label args = body object args
  other : ∀ label, (∀ m ∈ r.membersInForce type, s.names.get? label ≠ some m.member.name) →
    ∀ args, s.call object label args = .error (.noMember (r.display type) label)
  /-- A string comes to call something only if a member has a name that was issued since. -/
  settled : ∀ label, r.CallSettled s type label → ∀ m ∈ r.membersInForce type,
    s.names.get? label = some m.member.name ↔ r.names.get? label = some m.member.name

/-- An instance answers with what it was made of. In every later state, the string of what was an
attribute of its class gives the last value supplied for it, its default or `nil`, and takes no
arguments; that of what was a method runs the body of the same member; and no other string calls
anything. Strings keep their names, and none gets that of a member that had been issued. -/
theorem reachable_call (hr : Reachable r) (hmade : r.instantiate type fields = .ok (object, after))
    (hrun : Run after s) : AnswersAsMade r type fields object s := by
  have hconstruct := construct_of_instantiate hmade
  have htype : object.type = type := by rw [(construct_eq_ok hconstruct).2]
  have hmembers := hr.membersInForce_of_instantiate hmade hrun
  have hgrows := ((run_of_instantiate hmade).trans hrun).evolves.succeeds.grows
  have hcalled {m : OwnedMember} {label : String} (hm : m ∈ r.membersInForce type)
      (hget : s.names.get? label = some m.member.name) :
      s.memberCalled? object.type label = some m := by
    rw [htype, memberCalled?_eq_some_iff, hmembers]
    exact ⟨hm, hget⟩
  constructor
  case keepsName => exact fun label name => hgrows.get?_eq_some
  case stored =>
    intro m hm rules hkind label hget
    have hmember := hcalled hm hget
    constructor
    · rw [call_stored hmember hkind, field?_of_stored hconstruct hm hkind hgrows hget]
      rfl
    · intro args hargs
      rw [call_stored hmember hkind, if_neg (by simpa using hargs)]
  case method =>
    intro m hm body hkind label hget
    have hmember := hcalled hm hget
    refine ⟨?_, call_method hmember hkind⟩
    rw [← htype, ownerOf?, hmember, Option.map_some]
  case other =>
    intro label hother args
    have hnone : s.memberCalled? object.type label = none := by
      rw [htype, Option.eq_none_iff_forall_ne_some]
      intro m hm
      obtain ⟨hmem, hget⟩ := memberCalled?_eq_some_iff.mp hm
      exact hother m (hmembers ▸ hmem) hget
    rw [call_of_memberCalled?_eq_none hnone, htype, display,
      hr.typeName?_of_instantiate hmade hrun, display]
  case settled => exact fun label hsettled m hm => hsettled.get?_iff hgrows hm

/-- Of two ages that are written for a duck the second one counts, and whatever is done next, the
duck is of that age and does not fly. -/
theorem farm_call : ∃ object after,
    farm.instantiate ⟨3⟩ [("age", .int 1), ("age", .int 2)] = .ok (object, after) ∧
    ∀ o : Operation,
      (o.after after).call object "age" [] = .ok (.int 2) ∧
      (o.after after).call object "fly" [] = .error (.noMember (farm.display ⟨3⟩) "fly") := by
  have hok : (farm.instantiate ⟨3⟩ [("age", .int 1), ("age", .int 2)]).isOk := by decide +kernel
  obtain ⟨object, after, hmade⟩ := exists_instantiate_eq_ok hok
  refine ⟨object, after, hmade, fun o => ?_⟩
  have hanswers := reachable_call reachable_farm hmade (.perform (.start _) o)
  have hage : (farm.membersInForce ⟨3⟩).any fun m =>
      farm.names.get? "age" == some m.member.name && m.member.kind.attribute?.isSome := by
    decide +kernel
  have hfly : (farm.membersInForce ⟨3⟩).all fun m =>
      farm.names.get? "fly" != some m.member.name := by decide +kernel
  have hissued : ∀ m ∈ farm.membersInForce ⟨3⟩, farm.names.Issued m.member.name := by
    decide +kernel
  simp only [List.any_eq_true, List.all_eq_true, Bool.and_eq_true, beq_iff_eq, bne_iff_ne]
    at hage hfly
  obtain ⟨m, hm, hget, hkind⟩ := hage
  constructor
  · cases hstored : m.member.kind with
    | method body =>
      rw [hstored] at hkind
      cases hkind
    | stored rules =>
      have hvalue : farm.suppliedUnder? [("age", .int 1), ("age", .int 2)] "age" =
          some (.int 2) := if_pos (by decide +kernel)
      have hread := (hanswers.stored m hm rules hstored "age" (hanswers.keepsName _ _ hget)).1
      rw [hvalue] at hread
      exact hread
  · have hsettled : farm.CallSettled (o.after after) ⟨3⟩ "fly" :=
      .inr fun m hm _ => hissued m hm
    exact hanswers.other "fly" (fun m hm hcalls =>
      hfly m hm ((hanswers.settled "fly" hsettled m hm).mp hcalls)) []

/-- A duck of the fen answers to nothing that is called a cow until there are cows. -/
theorem fen_not_call : Reachable fen ∧ ∃ object after,
    fen.instantiate ⟨0⟩ [] = .ok (object, after) ∧
    after.call object "Cow" [] = .error (.noMember "Duck" "Cow") ∧
    Run after (declareCow.after after) ∧
    (declareCow.after after).call object "Cow" [] = .ok .nil :=
  ⟨reachable_fen, _, _, rfl, rfl, .perform (.start _) declareCow, rfl⟩

end ObjectSystem.Registry
