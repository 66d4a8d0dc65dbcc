import ObjectSystem.Proofs.Run.Blocks

/-!
# What is referred to

A block refers to types by written names and by handles. A written name means the type to which the
name of its qualified form is bound (`Refers`). Looking it up finds this type, and what it means
does not change later (`Refers.mono`).
-/

namespace ObjectSystem

open Registry

namespace Registry

variable {r s : Registry} {scope : Scope} {q written : String} {h k : Handle}

/-- The type is the one to which the name of the string is bound. -/
def Means (r : Registry) (q : String) (h : Handle) : Prop :=
  ∃ name, r.names.Holds q name ∧ r.symbols.resolve? name = some h

def Refers (r : Registry) (scope : Scope) (written : String) (h : Handle) : Prop :=
  ∃ q, scope.qualify written = .ok q ∧ r.Means q h

theorem Means.of_resolve? (hq : r.resolve? q = some h) : r.Means q h := by
  obtain ⟨name, hget, hsymbol⟩ := resolve?_eq_some.mp hq
  exact ⟨name, Interner.holds_iff.mpr (.inl hget), hsymbol⟩

/-- Where there is room for every string, a string means the type that it resolves to. -/
theorem means_iff (hroom : r.names.HasRoom) : r.Means q h ↔ r.resolve? q = some h := by
  refine ⟨?_, .of_resolve?⟩
  rintro ⟨name, hname, hsymbol⟩
  exact resolve?_eq_some.mpr ⟨name, hname.get?_eq hroom, hsymbol⟩

theorem Means.mono (hq : r.Means q h) (hrs : Evolves r s) : s.Means q h := by
  obtain ⟨name, hname, hsymbol⟩ := hq
  exact ⟨name, hrs.succeeds.grows.holds hname, hrs.grows.resolve? hsymbol⟩

theorem Refers.mono (hh : r.Refers scope written h) (hrs : Evolves r s) :
    s.Refers scope written h := by
  obtain ⟨q, hqualify, hq⟩ := hh
  exact ⟨q, hqualify, hq.mono hrs⟩

end Registry

def ParentRef.PointsTo (r : Registry) (scope : Scope) : ParentRef → Handle → Prop
  | .named written, h => r.Refers scope written h
  | .handle k, h => k = h

def RoleUse.PointsTo (r : Registry) (scope : Scope) : RoleUse → Handle → Prop
  | .named written, h => r.Refers scope written h
  | .tag written, h => r.Refers scope written h
  | .handle k, h => k = h

variable {r s : Registry} {scope : Scope} {h : Handle}

theorem ParentRef.PointsTo.mono {ref : ParentRef} (href : ref.PointsTo r scope h)
    (hrs : Evolves r s) : ref.PointsTo s scope h := by
  cases ref with
  | named written => exact Refers.mono href hrs
  | handle k => exact href

theorem RoleUse.PointsTo.mono {use : RoleUse} (huse : use.PointsTo r scope h)
    (hrs : Evolves r s) : use.PointsTo s scope h := by
  cases use with
  | named written => exact Refers.mono huse hrs
  | tag written => exact Refers.mono huse hrs
  | handle k => exact huse

namespace Editing

variable {α β : Type} {written q : String}

theorem Evolving.evolves {act : Editing α} {out : Except EditError α} (hact : act.Evolving)
    (hok : act.outcome r = (out, s)) : Evolves r s := by
  have hevolves := hact r
  rwa [hok] at hevolves

theorem guard_eq_ok {c : Prop} [Decidable c] {e : EditError} {act : Editing α} {a : α}
    (hok : outcome (if c then (throw e >>= fun _ : PUnit => act) else act) r = (.ok a, s)) :
    ¬ c ∧ act.outcome r = (.ok a, s) := by
  split at hok
  · cases hok
  · exact ⟨‹_›, hok⟩

theorem optionMapM_eq_ok {f : α → Editing β} {R : α → β → Prop} {a : Option α} {b : Option β}
    (hf : ∀ a b t, (f a).outcome r = (.ok b, t) → R a b ∧ t = r)
    (hok : (a.mapM f).outcome r = (.ok b, s)) : Option.Rel R a b ∧ s = r := by
  cases a with
  | none =>
    cases hok
    exact ⟨.none, rfl⟩
  | some a =>
    obtain ⟨b, t, hfirst, hpure⟩ := outcome_bind_eq_ok.mp hok
    cases hpure
    obtain ⟨hb, rfl⟩ := hf a b _ hfirst
    exact ⟨.some hb, rfl⟩

theorem qualify_eq_ok (hok : (qualify scope written).outcome r = (.ok q, s)) :
    scope.qualify written = .ok q ∧ s = r := by
  rw [qualify] at hok
  split at hok
  · cases hok
    exact ⟨‹_›, rfl⟩
  · cases hok

theorem lookUp_eq_ok (hok : (lookUp scope written).outcome r = (.ok h, s)) :
    r.Refers scope written h ∧ s = r := by
  obtain ⟨q, _, hqualify, hrest⟩ := outcome_bind_eq_ok.mp hok
  obtain ⟨hq, rfl⟩ := qualify_eq_ok hqualify
  obtain ⟨_, _, hget, hfound⟩ := outcome_bind_eq_ok.mp hrest
  cases hget
  split at hfound
  · cases hfound
    exact ⟨⟨q, hq, .of_resolve? ‹_›⟩, rfl⟩
  · cases hfound

theorem parentHandle_eq_ok {ref : ParentRef}
    (hok : (parentHandle scope ref).outcome r = (.ok h, s)) :
    ref.PointsTo r scope h ∧ s = r := by
  have hclass {k : Handle} {t : Registry} (hk : Editing.outcome (do
      let r ← get
      if r.isRole k then throw (r.wrongKind k .cls)
      return k) t = (.ok h, s)) : k = h ∧ s = t := by
    obtain ⟨_, _, hget, hguard⟩ := outcome_bind_eq_ok.mp hk
    cases hget
    obtain ⟨-, hpure⟩ := guard_eq_ok hguard
    cases hpure
    exact ⟨rfl, rfl⟩
  cases ref with
  | named written =>
    obtain ⟨k, t, hlookUp, hrest⟩ := outcome_bind_eq_ok.mp hok
    obtain ⟨hrefers, rfl⟩ := lookUp_eq_ok hlookUp
    obtain ⟨rfl, rfl⟩ := hclass hrest
    exact ⟨hrefers, rfl⟩
  | handle k => exact hclass hok

end Editing

end ObjectSystem
