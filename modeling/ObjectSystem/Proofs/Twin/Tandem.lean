import ObjectSystem.Proofs.Twin.Change

/-!
# Computations in tandem

A computation on a registry and one on its twin have the same outcome and leave twins, as long as
neither interner runs full on the way (`Tandem`). Where nothing is interned this holds without a
condition (`Alongside`). Computations in tandem can be put in sequence, and run on scratch copies.
-/

namespace ObjectSystem

open Registry

namespace Registry

variable {r r' s s' : Registry}

namespace Twin

theorem of_evolves (h : Twin r r') (hrs : Evolves r s) (hrs' : Evolves r' s') (hakin : Akin s s') :
    Twin s s' :=
  ⟨hakin, hrs.labelled h.left, hrs'.labelled h.right⟩

theorem grows (h : Twin r r') {names names' : Interner} (hgrows : r.names.Grows names)
    (hgrows' : r'.names.Grows names') : Twin { r with names } { r' with names := names' } :=
  ⟨h.akin.grows hgrows hgrows', h.left.grows hgrows, h.right.grows hgrows'⟩

theorem keepingNames (h : Twin r r') (hrs : Evolves r s) (hrs' : Evolves r' s') :
    Twin (r.keepingNames s) (r'.keepingNames s') :=
  h.grows hrs.succeeds.grows hrs'.succeeds.grows

theorem settle {ε ε' α α' : Type} {outcome : Except ε α} {outcome' : Except ε' α'}
    (h : Twin r r') (hrs : Evolves r s) (hrs' : Evolves r' s') (hscratch : Twin s s')
    (hsame : outcome.isOk = outcome'.isOk) :
    Twin (r.settle outcome s) (r'.settle outcome' s') := by
  cases outcome with
  | ok a =>
    cases outcome' with
    | ok a' => exact hscratch
    | error e' => cases hsame
  | error e =>
    cases outcome' with
    | ok a' => cases hsame
    | error e' => exact h.keepingNames hrs hrs'

end Twin

theorem names_settle {ε α : Type} (r scratch : Registry) (outcome : Except ε α) :
    (r.settle outcome scratch).names = scratch.names := by
  cases outcome <;> rfl

end Registry

namespace Editing

variable {α β : Type} {r r' : Registry} {act act' : Editing α}

/-- The outcomes are the same, and the registries that are left are twins. -/
structure Alongside (out out' : Except EditError α × Registry) : Prop where
  result_eq : out.1 = out'.1
  twin : Twin out.2 out'.2

/-- The computations have the same outcome unless an interner has run full. -/
def Tandem (r r' : Registry) (act act' : Editing α) : Prop :=
  (act.outcome r).2.names.HasRoom → (act'.outcome r').2.names.HasRoom →
    Alongside (act.outcome r) (act'.outcome r')

/-! ## Sequencing -/

theorem Alongside.tandem (h : Alongside (act.outcome r) (act'.outcome r')) : Tandem r r' act act' :=
  fun _ _ => h

theorem Alongside.of_akin (h : Twin r r') (hact : act.Evolving) (hact' : act'.Evolving)
    (hresult : (act.outcome r).1 = (act'.outcome r').1)
    (hakin : Akin (act.outcome r).2 (act'.outcome r').2) :
    Alongside (act.outcome r) (act'.outcome r') :=
  ⟨hresult, h.of_evolves (hact r) (hact' r') hakin⟩

theorem alongside_pure (h : Twin r r') (a : α) :
    Alongside (outcome (pure a) r) (outcome (pure a) r') := ⟨rfl, h⟩

theorem alongside_throw (h : Twin r r') (e : EditError) :
    Alongside (outcome (throw e : Editing α) r) (outcome (throw e : Editing α) r') := ⟨rfl, h⟩

theorem Alongside.exists_eq {out out' : Except EditError α × Registry} (h : Alongside out out') :
    ∃ result s s', out = (result, s) ∧ out' = (result, s') ∧ Twin s s' := by
  obtain ⟨result, s⟩ := out
  obtain ⟨result', s'⟩ := out'
  obtain ⟨rfl, htwin⟩ := h
  exact ⟨result, s, s', rfl, rfl, htwin⟩

theorem alongside_bind (hact : Alongside (act.outcome r) (act'.outcome r'))
    {f f' : α → Editing β}
    (hf : ∀ {s s'} a, Twin s s' → Alongside ((f a).outcome s) ((f' a).outcome s')) :
    Alongside ((act >>= f).outcome r) ((act' >>= f').outcome r') := by
  obtain ⟨result, s, s', hs, hs', htwin⟩ := hact.exists_eq
  rw [outcome_bind, outcome_bind, hs, hs']
  cases result with
  | error e => exact ⟨rfl, htwin⟩
  | ok a => exact hf a htwin

theorem tandem_get_bind {f f' : Registry → Editing α} (h : Tandem r r' (f r) (f' r')) :
    Tandem r r' (get >>= f) (get >>= f') := by
  intro hroom hroom'
  rw [outcome_bind, outcome_get] at hroom hroom' ⊢
  exact h hroom hroom'

theorem tandem_bind_left (hact : Alongside (act.outcome r) (act'.outcome r'))
    {f f' : α → Editing β} (hf : ∀ {s s'} a, Twin s s' → Tandem s s' (f a) (f' a)) :
    Tandem r r' (act >>= f) (act' >>= f') := by
  intro hroom hroom'
  obtain ⟨result, s, s', hs, hs', htwin⟩ := hact.exists_eq
  rw [outcome_bind, hs] at hroom ⊢
  rw [outcome_bind, hs'] at hroom' ⊢
  cases result with
  | error e => exact ⟨rfl, htwin⟩
  | ok a => exact hf a htwin hroom hroom'

theorem hasRoom_of_bind {f : α → Editing β} (hf : ∀ a, (f a).Evolving)
    (hroom : ((act >>= f).outcome r).2.names.HasRoom) : (act.outcome r).2.names.HasRoom := by
  rw [outcome_bind] at hroom
  generalize act.outcome r = out at hroom
  obtain ⟨e | a, s⟩ := out
  · exact hroom
  · exact (hf a s).succeeds.grows.hasRoom hroom

theorem tandem_bind (hact : Tandem r r' act act') {f f' : α → Editing β}
    (hgrows : ∀ a, (f a).Evolving) (hgrows' : ∀ a, (f' a).Evolving)
    (hf : ∀ {s s'} a, Twin s s' → Tandem s s' (f a) (f' a)) :
    Tandem r r' (act >>= f) (act' >>= f') := by
  intro hroom hroom'
  have hfirst := hact (hasRoom_of_bind hgrows hroom) (hasRoom_of_bind hgrows' hroom')
  exact tandem_bind_left hfirst hf hroom hroom'

theorem tandem_map (hact : Tandem r r' act act') (g : α → β) :
    Tandem r r' (act >>= fun a => pure (g a)) (act' >>= fun a => pure (g a)) :=
  tandem_bind hact (fun a => evolving_pure (g a)) (fun a => evolving_pure (g a)) fun a h =>
    (alongside_pure h (g a)).tandem

theorem tandem_guard (h : Twin r r') {c : Prop} [Decidable c] {e : EditError}
    (hact : ¬ c → Tandem r r' act act') :
    Tandem r r' (if c then (throw e >>= fun _ : PUnit => act) else act)
      (if c then (throw e >>= fun _ : PUnit => act') else act') := by
  split
  · exact Alongside.tandem ⟨rfl, h⟩
  · rename_i hc
    exact hact hc

theorem tandem_atomically (h : Twin r r') (hevolving : act.Evolving) (hevolving' : act'.Evolving)
    (hact : Tandem r r' act act') : Tandem r r' (atomically act) (atomically act') := by
  intro hroom hroom'
  have hscratch := hevolving r
  have hscratch' := hevolving' r'
  rw [Tandem] at hact
  rw [outcome_atomically] at hroom hroom' ⊢
  rw [outcome_atomically]
  generalize act.outcome r = out at hact hroom hscratch
  generalize act'.outcome r' = out' at hact hroom' hscratch'
  obtain ⟨result, s⟩ := out
  obtain ⟨result', s'⟩ := out'
  dsimp only at hroom hroom'
  rw [names_settle] at hroom hroom'
  obtain ⟨hresult, htwin⟩ := hact hroom hroom'
  dsimp only at hresult htwin
  subst hresult
  exact ⟨rfl, h.settle hscratch hscratch' htwin rfl⟩

theorem outcome_map (act : Editing α) (g : α → β) (r : Registry) :
    (act >>= fun a => pure (g a)).outcome r = ((act.outcome r).1.map g, (act.outcome r).2) := by
  rw [outcome_bind]
  generalize act.outcome r = out
  obtain ⟨e | a, s⟩ := out <;> rfl

theorem alongside_optionMapM {f : α → Editing β} (h : Twin r r')
    (hf : ∀ a, Alongside ((f a).outcome r) ((f a).outcome r')) (a : Option α) :
    Alongside ((a.mapM f).outcome r) ((a.mapM f).outcome r') := by
  cases a with
  | none => exact alongside_pure h none
  | some a => exact alongside_bind (hf a) fun b hs => alongside_pure hs (some b)

theorem tandem_forM {f : α → Editing PUnit} (hevolving : ∀ a, (f a).Evolving)
    (hf : ∀ {s s'} a, Twin s s' → Tandem s s' (f a) (f a)) (as : List α) (h : Twin r r') :
    Tandem r r' (as.forM f) (as.forM f) := by
  induction as generalizing r r' with
  | nil => exact (alongside_pure h _).tandem
  | cons a as ih =>
    exact tandem_bind (hf a h) (fun _ => evolving_forM hevolving as)
      (fun _ => evolving_forM hevolving as) fun _ hs => ih hs

theorem tandem_mapM {f : α → Editing β} (hevolving : ∀ a, (f a).Evolving) {R : α → α → Prop}
    (hf : ∀ {s s' a a'}, R a a' → Twin s s' → Tandem s s' (f a) (f a')) {as as' : List α}
    (has : List.Forall₂ R as as') (h : Twin r r') : Tandem r r' (as.mapM f) (as'.mapM f) := by
  induction has generalizing r r' with
  | nil => exact (alongside_pure h []).tandem
  | @cons a a' as as' ha _ ih =>
    have hrest (as : List α) (b : β) : Evolving (as.mapM f >>= fun bs => pure (b :: bs)) :=
      evolving_bind (evolving_mapM hevolving as) fun bs => evolving_pure (b :: bs)
    rw [List.mapM_cons, List.mapM_cons]
    exact tandem_bind (hf ha h) (hrest as) (hrest as') fun b hs => tandem_map (ih hs) (b :: ·)

end Editing

end ObjectSystem
