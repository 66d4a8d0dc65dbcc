import ObjectSystem.Proofs.Conflict.Lookup
import ObjectSystem.Proofs.Linearization.Agreement

/-!
# Catalogs with more consumed roles

`Widens c d` says that `d` differs from `c` only in that its types may consume more roles. What
roles provide, offer and reach then only grows, so a conflict or a cycle of `c` is one of `d` too
(`Widens.conflictFree`, `Widens.not_reaches`).

Catalogs that widen each other consume the same roles, perhaps in another order. The order shows in
linearizations, but not in what is looked up in a class when neither catalog has conflicts
(`Widens.inForce?_eq`).
-/

namespace ObjectSystem

def TypeEntry.withoutRoles (t : TypeEntry) : TypeEntry := { t with roles := [] }

namespace Catalog

open Relation

variable {c d e : Catalog} {m : Name} {k r p type role : Handle}

structure Widens (c d : Catalog) : Prop where
  rest : Agree TypeEntry.withoutRoles c d
  consumes : ∀ {a b}, c.Consumes a b → d.Consumes a b

namespace Widens

theorem refl (c : Catalog) : Widens c c := ⟨⟨rfl, fun _ => rfl⟩, id⟩

theorem trans (hcd : Widens c d) (hde : Widens d e) : Widens c e where
  rest := ⟨hde.rest.size_eq.trans hcd.rest.size_eq, fun h =>
    (hde.rest.map_typeAt?_eq h).trans (hcd.rest.map_typeAt?_eq h)⟩
  consumes hab := hde.consumes (hcd.consumes hab)

theorem of_common (hcd : Widens c d) (hce : Widens c e)
    (hedges : ∀ {a b}, d.Consumes a b → e.Consumes a b) : Widens d e where
  rest := ⟨hce.rest.size_eq.trans hcd.rest.size_eq.symm, fun h =>
    (hce.rest.map_typeAt?_eq h).trans (hcd.rest.map_typeAt?_eq h).symm⟩
  consumes := hedges

theorem addRole (hk : c.Known type) : Widens c (c.addRole type role) where
  rest := agree_addRole fun _ => rfl
  consumes hab := (consumes_addRole hk).mpr (.inl hab)

theorem agree {α : Type} {view : TypeEntry → α} (hcd : Widens c d)
    (hview : ∀ t, view t.withoutRoles = view t) : Agree view c d := by
  refine ⟨hcd.rest.size_eq, fun h => ?_⟩
  have heq := congrArg (Option.map view) (hcd.rest.map_typeAt?_eq h)
  have hcomp : view ∘ TypeEntry.withoutRoles = view := funext hview
  rwa [Option.map_map, Option.map_map, hcomp] at heq

theorem parent (hcd : Widens c d) : Agree TypeEntry.parent c d := hcd.agree fun _ => rfl

theorem kind (hcd : Widens c d) : Agree (·.form.kind) c d := hcd.agree fun _ => rfl

theorem members (hcd : Widens c d) : Agree TypeEntry.members c d := hcd.agree fun _ => rfl

theorem isOpen_eq (hcd : Widens c d) (h : Handle) : d.isOpen h = c.isOpen h := by
  have hseals : Agree TypeEntry.isSealed c d := hcd.agree fun _ => rfl
  exact hseals.any_eq not h

/-! ## What grows -/

theorem reaches (hcd : Widens c d) {a b : Handle} (h : ReflTransGen c.Consumes a b) :
    ReflTransGen d.Consumes a b :=
  ReflTransGen.mono (fun _ _ => hcd.consumes) a b h

theorem not_reaches (hcd : Widens c d) (wf : d.WellFormed) (h : d.Consumes type role) :
    ¬ ReflTransGen c.Consumes role type :=
  fun hback => wf.consumes_acyclic type (.head' h (hcd.reaches hback))

theorem provides (hcd : Widens c d) (h : c.Provides m r p) : d.Provides m r p := by
  induction h with
  | own h =>
    rw [← hcd.members.declares_eq] at h
    exact .own h
  | consumed h hrs _ ih =>
    rw [← hcd.members.declares_eq] at h
    exact .consumed h (hcd.consumes hrs) ih

theorem offers (hcd : Widens c d) (h : c.Offers m k p) : d.Offers m k p := by
  obtain ⟨r, hkr, hp⟩ := h
  exact ⟨r, hcd.consumes hkr, hcd.provides hp⟩

theorem settles_eq (hcd : Widens c d) (k : Handle) (m : Name) : d.settles k m = c.settles k m := by
  simp only [settles, hcd.parent.lineage_eq, hcd.members.declares_eq]

/-- A class without conflicts had none when fewer roles were consumed. -/
theorem conflictFree (hcd : Widens c d) (hfree : d.ConflictFree k) : c.ConflictFree k := by
  intro m p q hp hq
  rw [← hcd.settles_eq]
  exact hfree m p q (hcd.offers hp) (hcd.offers hq)

/-! ## Catalogs that widen each other -/

theorem offers_iff (hcd : Widens c d) (hdc : Widens d c) : d.Offers m k p ↔ c.Offers m k p :=
  ⟨hdc.offers, hcd.offers⟩

theorem does_eq (hcd : Widens c d) (hdc : Widens d c) (wf : c.WellFormed) (wf' : d.WellFormed)
    (subject target : Handle) : d.does subject target = c.does subject target := by
  have hreach : target ∈ d.reachableRoles subject ↔ target ∈ c.reachableRoles subject := by
    rw [wf.mem_reachableRoles, wf'.mem_reachableRoles, hcd.parent.lineage_eq]
    exact and_congr_right fun _ => exists_congr fun k => and_congr_right fun _ =>
      ⟨hdc.reaches, hcd.reaches⟩
  simp only [does, hcd.kind.isRole_eq, hreach]

theorem ownMember?_eq (hcd : Widens c d) (h : Handle) (m : Name) :
    d.ownMember? h m = c.ownMember? h m := by
  have hfind := hcd.members.bind_eq (List.find? (·.name == m)) h
  exact congrArg (Option.map (OwnedMember.mk h)) hfind

end Widens

theorem exists_isFirst_or (P : Handle → Prop) (hs : List Handle) :
    (∃ j, IsFirst P hs j) ∨ ∀ j ∈ hs, ¬ P j := by
  induction hs with
  | nil => exact .inr (by simp)
  | cons h hs ih =>
    by_cases hp : P h
    · exact .inl ⟨h, .head hp⟩
    · rcases ih with ⟨j, hj⟩ | hnone
      · exact .inl ⟨j, .tail hp hj⟩
      · exact .inr (List.forall_mem_cons.mpr ⟨hp, hnone⟩)

/-- The order in which roles are consumed does not matter to what is in force in a class. -/
theorem Widens.inForce?_eq (hcd : Widens c d) (hdc : Widens d c) (hc : c.Settled) (hd : d.Settled)
    (hclass : c.isClass k) (m : Name) : d.inForce? k m = c.inForce? k m := by
  have hclass' : d.isClass k := by rwa [hcd.kind.isClass_eq]
  have hlineage := hcd.parent.lineage_eq k
  have hdeclares := hcd.members.declares_eq
  rcases exists_isFirst_or (c.declares · m = true) (c.lineage k) with ⟨j, hj⟩ | hnone
  · -- the nearest class that declares the name
    rw [hc.wellFormed.inForce?_of_declares hj, ← hcd.ownMember?_eq]
    apply hd.wellFormed.inForce?_of_declares
    rw [hlineage]
    simpa only [hdeclares] using hj
  · have hsilent : ∀ x ∈ c.lineage k, c.declares x m = false := fun x hx => by
      simpa using hnone x hx
    have hsilent' : ∀ x ∈ d.lineage k, d.declares x m = false := fun x hx => by
      rw [hdeclares]
      exact hsilent x (hlineage ▸ hx)
    have hoffered : d.IsOffered m = c.IsOffered m := by
      funext x
      exact propext (exists_congr fun p => hcd.offers_iff hdc)
    rcases exists_isFirst_or (c.IsOffered m) (c.lineage k) with ⟨j, hj⟩ | hnot
    · -- the one role that is offered to the nearest class to which any is
      obtain ⟨p, hp, heq⟩ := hc.inForce?_of_isOffered hclass hsilent hj
      obtain ⟨p', hp', heq'⟩ := hd.inForce?_of_isOffered hclass' hsilent' (j := j)
        (by rwa [hoffered, hlineage])
      obtain rfl : p = p' := (hp' p).mp ((hcd.offers_iff hdc).mpr ((hp p).mpr rfl))
      rw [heq, heq', hcd.ownMember?_eq]
    · rw [hc.wellFormed.inForce?_eq_none hclass hsilent hnot,
        hd.wellFormed.inForce?_eq_none hclass' hsilent' (by rwa [hoffered, hlineage])]

end Catalog

end ObjectSystem
