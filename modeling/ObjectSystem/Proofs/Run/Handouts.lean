import ObjectSystem.Proofs.Run.Instances

/-!
# Instances that outlive a transaction

An instance that is made in the body of a transaction can be handed out of it. The seals that it
leaves belong to the scratch copy: they are kept when the transaction succeeds and dropped when it
fails, together with the types that the body declared. A `Course` is a run with the instances that
are made on the way and, of these, the ones that no failed transaction takes back. The classes of
the latter are sealed for good (`reachable_keeps`); of the former that need not hold
(`pasture_forgets`).
-/

namespace ObjectSystem

/-- An instance that has been made, with the registry in which it was made. -/
structure Handout where
  maker : Registry
  object : Instance

def Operation.handouts (r : Registry) : Operation → List Handout
  | .instantiate type fields =>
    match r.instantiate type fields with
    | .ok (object, _) => [⟨r, object⟩]
    | .error _ => []
  | _ => []

theorem Operation.mem_handouts {r : Registry} {o : Operation} {d : Handout}
    (hd : d ∈ o.handouts r) :
    d.maker = r ∧ ∃ type fields, r.instantiate type fields = .ok (d.object, o.after r) := by
  cases o with
  | instantiate type fields =>
    rw [handouts] at hd
    cases hmade : r.instantiate type fields with
    | error e =>
      rw [hmade] at hd
      cases hd
    | ok made =>
      rw [hmade] at hd
      obtain rfl := List.mem_singleton.mp hd
      exact ⟨rfl, type, fields, by rw [after, hmade]⟩
  | edit => cases hd
  | sealType => cases hd
  | sealAll => cases hd
  | intern => cases hd

namespace Registry

open Catalog

/-- A run with the instances that are handed out in it, in order, and those of them that are kept:
made in the body of a transaction, an instance is kept if the transaction succeeds. -/
inductive Course : Registry → Registry → List Handout → List Handout → Prop
  | start (r : Registry) : Course r r [] []
  | perform {r s : Registry} {handed kept : List Handout} (h : Course r s handed kept)
      (o : Operation) : Course r (o.after s) (handed ++ o.handouts s) (kept ++ o.handouts s)
  | transaction {r s scratch : Registry} {handed kept handed' kept' : List Handout} {ε α : Type}
      (h : Course r s handed kept) (body : Course s scratch handed' kept')
      (outcome : Except ε α) :
      Course r (s.settle outcome scratch) (handed ++ handed')
        (kept ++ if outcome.isOk then kept' else [])

variable {r s : Registry} {handed kept : List Handout} {d : Handout}

theorem Course.run (h : Course r s handed kept) : Run r s := by
  induction h with
  | start => exact .start _
  | perform _ o ih => exact ih.perform o
  | transaction _ _ outcome ih ihbody => exact ih.transaction ihbody outcome

theorem Run.exists_course (h : Run r s) : ∃ handed kept, Course r s handed kept := by
  induction h with
  | start => exact ⟨_, _, .start _⟩
  | perform _ o ih =>
    obtain ⟨_, _, h⟩ := ih
    exact ⟨_, _, h.perform o⟩
  | transaction _ _ outcome ih ihbody =>
    obtain ⟨_, _, h⟩ := ih
    obtain ⟨_, _, hbody⟩ := ihbody
    exact ⟨_, _, h.transaction hbody outcome⟩

theorem Course.sublist (h : Course r s handed kept) : kept.Sublist handed := by
  induction h with
  | start => exact .slnil
  | perform _ _ ih => exact ih.append (.refl _)
  | transaction _ _ outcome ih ihbody =>
    refine ih.append ?_
    split
    · exact ihbody
    · exact List.nil_sublist _

/-- A kept instance was made by a state of the run, and what came after is later than the making. -/
theorem Course.exists_instantiate (h : Course r s handed kept) (hd : d ∈ kept) :
    Run r d.maker ∧ ∃ type fields after,
      d.maker.instantiate type fields = .ok (d.object, after) ∧ Run after s := by
  induction h with
  | start => cases hd
  | perform h o ih =>
    rcases List.mem_append.mp hd with hd | hd
    · obtain ⟨hmaker, type, fields, after, hmade, hrun⟩ := ih hd
      exact ⟨hmaker, type, fields, after, hmade, hrun.perform o⟩
    · obtain ⟨hmaker, type, fields, hmade⟩ := Operation.mem_handouts hd
      rw [hmaker]
      exact ⟨h.run, type, fields, _, hmade, .start _⟩
  | transaction h body outcome ih ihbody =>
    rcases List.mem_append.mp hd with hd | hd
    · obtain ⟨hmaker, type, fields, after, hmade, hrun⟩ := ih hd
      exact ⟨hmaker, type, fields, after, hmade, hrun.transaction body.run outcome⟩
    · cases outcome with
      | error e => cases hd
      | ok a =>
        -- what is left of a transaction that succeeds is the scratch copy
        obtain ⟨hmaker, hmade⟩ := ihbody hd
        exact ⟨h.run.trans hmaker, hmade⟩

/-- The class of an instance that is kept is in every later state the class that it was when the
instance was made, under the same name, and it is sealed; its ancestors and members stay. -/
theorem reachable_keeps (hr : Reachable r) (h : Course r s handed kept) (hd : d ∈ kept) :
    (∃ t, d.maker.typeAt? d.object.type = some t ∧ t.isClass ∧
      s.typeAt? d.object.type = some t.asSealed) ∧
    s.typeName? d.object.type = d.maker.typeName? d.object.type ∧
    s.isSealed d.object.type ∧
    s.lineage d.object.type = d.maker.lineage d.object.type ∧
    s.membersInForce d.object.type = d.maker.membersInForce d.object.type := by
  obtain ⟨hmaker, type, fields, after, hmade, hrun⟩ := h.exists_instantiate hd
  obtain ⟨-, hobject⟩ := construct_eq_ok (construct_of_instantiate hmade)
  have htype : d.object.type = type := by rw [hobject]
  have hr' := hr.run hmaker
  obtain ⟨t, ht, hclass, hlater⟩ := hr'.typeAt?_of_instantiate hmade hrun
  rw [htype]
  exact ⟨⟨t, ht, hclass, hlater⟩, hr'.typeName?_of_instantiate hmade hrun,
    isSealed_iff.mpr ⟨_, hlater, rfl⟩, hr'.lineage_of_instantiate hmade hrun,
    hr'.membersInForce_of_instantiate hmade hrun⟩

def pasture : Registry :=
  (Operation.edit (.declareClass (some "Cow") none false [])).after (.new {} .empty)

theorem reachable_pasture : Reachable pasture := (reachable_new {}).run (.perform (.start _) _)

theorem exists_cow : ∃ d : Handout, d.object.type = ⟨0⟩ ∧
    (Operation.instantiate ⟨0⟩ []).handouts pasture = [d] := by
  have hok : (pasture.instantiate ⟨0⟩ []).isOk := by decide +kernel
  obtain ⟨object, after, hmade⟩ := exists_instantiate_eq_ok hok
  refine ⟨⟨pasture, object⟩, ?_, by rw [Operation.handouts, hmade]⟩
  rw [(construct_eq_ok (construct_of_instantiate hmade)).2]

/-- A cow that is made in a transaction which succeeds leaves its class sealed, whatever is done
next. -/
theorem pasture_keeps : ∃ d : Handout, d.object.type = ⟨0⟩ ∧ ∀ o : Operation,
    (o.after (pasture.settle (.ok () : Except EditError Unit)
      ((Operation.instantiate ⟨0⟩ []).after pasture))).isSealed d.object.type := by
  obtain ⟨d, htype, hd⟩ := exists_cow
  refine ⟨d, htype, fun o => ?_⟩
  have hbody := (Course.start pasture).perform (.instantiate ⟨0⟩ [])
  rw [hd] at hbody
  have hcourse := ((Course.start pasture).transaction hbody
    (.ok () : Except EditError Unit)).perform o
  obtain ⟨-, -, hsealed, -⟩ := reachable_keeps reachable_pasture hcourse (d := d)
    (List.mem_append_left _ List.mem_cons_self)
  exact hsealed

/-- A cow that is made in a transaction which fails leaves its class open. -/
theorem pasture_forgets : ¬ ∀ (r s : Registry) (handed kept : List Handout), Reachable r →
    Course r s handed kept → ∀ d ∈ handed,
      s.isSealed d.object.type ∧ s.typeName? d.object.type = d.maker.typeName? d.object.type := by
  intro hall
  obtain ⟨d, htype, hd⟩ := exists_cow
  have hbody := ((Course.start pasture).perform (.instantiate ⟨0⟩ [])).perform
    (.edit (.declareClass (some "Cow") none false []))
  rw [hd] at hbody
  have hcourse := (Course.start pasture).transaction hbody
    (.error (.nameTaken "Cow") : Except EditError Unit)
  obtain ⟨hsealed, -⟩ := hall _ _ _ _ reachable_pasture hcourse d
    (List.mem_append_right _ (List.mem_append_left _ List.mem_cons_self))
  rw [htype] at hsealed
  have hopen : pasture.isSealed ⟨0⟩ = false := by decide +kernel
  exact Bool.false_ne_true (hopen.symm.trans hsealed)

end Registry

end ObjectSystem
