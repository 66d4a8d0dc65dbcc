import ObjectSystem.Proofs.Run.Editing

/-!
# Edits that are refused

An edit that is refused leaves the catalog as it was (`cautious_edit`). It interns strings before it
changes anything and makes one change at most, which is refused as a whole; where it makes several,
it works on a scratch copy.
-/

namespace ObjectSystem

open Registry

namespace Editing

variable {α β : Type}

/-- The computation changes nothing but the interner, whatever its outcome. -/
def Quiet (act : Editing α) : Prop := ∀ r, (act.outcome r).2.toCatalog = r.toCatalog

/-- The computation changes nothing but the interner when it fails. -/
def Cautious (act : Editing α) : Prop :=
  ∀ r e, (act.outcome r).1 = .error e → (act.outcome r).2.toCatalog = r.toCatalog

/-! ## Sequencing -/

theorem quiet_pure (a : α) : Quiet (pure a) := fun _ => rfl

theorem quiet_throw (e : EditError) : Quiet (throw e : Editing α) := fun _ => rfl

theorem quiet_get : Quiet (get : Editing Registry) := fun _ => rfl

theorem quiet_intern (s : String) : (intern s).Quiet := fun _ => rfl

theorem quiet_bind {act : Editing α} {f : α → Editing β} (hact : act.Quiet)
    (hf : ∀ a, (f a).Quiet) : (act >>= f).Quiet := by
  intro r
  have hfirst := hact r
  rw [outcome_bind]
  generalize act.outcome r = out at hfirst
  obtain ⟨_ | a, s⟩ := out
  · exact hfirst
  · exact (hf a s).trans hfirst

theorem quiet_mapM {f : α → Editing β} (hf : ∀ a, (f a).Quiet) (as : List α) :
    (as.mapM f).Quiet := by
  induction as with
  | nil => exact quiet_pure []
  | cons a as ih =>
    rw [List.mapM_cons]
    exact quiet_bind (hf a) fun b => quiet_bind ih fun bs => quiet_pure (b :: bs)

theorem Quiet.cautious {act : Editing α} (h : act.Quiet) : act.Cautious := fun r _ _ => h r

theorem cautious_bind {act : Editing α} {f : α → Editing β} (hact : act.Quiet)
    (hf : ∀ a, (f a).Cautious) : (act >>= f).Cautious := by
  intro r e he
  have hfirst := hact r
  rw [outcome_bind] at he ⊢
  generalize act.outcome r = out at hfirst he
  obtain ⟨_ | a, s⟩ := out
  · exact hfirst
  · exact (hf a s e he).trans hfirst

theorem cautious_map {act : Editing α} (hact : act.Cautious) (g : α → β) :
    Cautious (act >>= fun a => pure (g a)) := by
  intro r e he
  have hfirst := hact r
  rw [outcome_bind] at he ⊢
  generalize act.outcome r = out at hfirst he
  obtain ⟨e' | a, s⟩ := out
  · exact hfirst e' rfl
  · cases he

theorem cautious_guard {c : Prop} [Decidable c] {e : EditError} {act : Editing α}
    (hact : act.Cautious) : Cautious (if c then (throw e >>= fun _ : PUnit => act) else act) := by
  split
  · exact cautious_bind (quiet_throw e) fun _ => hact
  · exact hact

theorem cautious_step (next : Registry → Except EditError Registry) : (step next).Cautious := by
  intro r e he
  rw [outcome_step] at he ⊢
  cases hr : next r with
  | ok s =>
    rw [hr] at he
    cases he
  | error e => rfl

theorem cautious_atomically (act : Editing α) : (atomically act).Cautious := by
  intro r e he
  rw [outcome_atomically] at he ⊢
  dsimp only at he ⊢
  rw [he]
  rfl

/-! ## Edits -/

theorem quiet_internMember (m : WrittenMember) : (internMember m).Quiet :=
  quiet_bind (quiet_intern m.name) fun _ => quiet_pure _

theorem quiet_nameMember (m : GivenMember) : (nameMember m).Quiet := by
  cases m with
  | named m => exact quiet_pure m
  | written m => exact quiet_internMember m

theorem quiet_internTypeName (kind : Kind) (name : Option String) :
    (internTypeName kind name).Quiet := by
  intro r
  rcases outcome_internTypeName r kind name with ⟨e, he⟩ | ⟨-, heq⟩
  · rw [he]
  · rw [heq]
    exact quiet_intern _ r

theorem cautious_declareType (name : Option String) (form : Form) (members : List Member) :
    (declareType name form members).Cautious :=
  cautious_bind (quiet_internTypeName form.kind name) fun _ =>
    cautious_bind quiet_get fun _ => cautious_map (cautious_step _) _

theorem cautious_consume (type role : Handle) : (consume type role).Cautious := cautious_step _

theorem cautious_addMember (type : Handle) (m : Member) : (addMember type m).Cautious :=
  cautious_step _

theorem cautious_tag (type : Handle) (qualified : String) : (tag type qualified).Cautious := by
  refine cautious_bind quiet_get fun r => ?_
  split
  · exact cautious_guard (cautious_map (cautious_consume type _) _)
  · split
    · exact cautious_guard (cautious_atomically _)
    · exact (quiet_throw _).cautious

end Editing

open Editing in
theorem cautious_edit (e : Edit) : Cautious e.run := by
  cases e with
  | declareClass name parent isAbstract members =>
    exact cautious_bind (quiet_mapM quiet_nameMember members) fun ms =>
      cautious_map (cautious_declareType name _ ms) _
  | declareRole name members =>
    exact cautious_bind (quiet_mapM quiet_nameMember members) fun ms =>
      cautious_map (cautious_declareType name _ ms) _
  | extend type parent => exact cautious_map (cautious_step _) _
  | consume type role => exact cautious_map (cautious_consume type role) _
  | addMember type m =>
    exact cautious_bind (quiet_nameMember m) fun m => cautious_map (cautious_addMember type m) _
  | tag type qualified => exact cautious_map (cautious_tag type qualified) _
  | declare scope b => exact cautious_map (cautious_atomically _) _
  | declareAll scope bs => exact cautious_map (cautious_atomically _) _

end ObjectSystem
