import ObjectSystem.Proofs.Twin.Registry

/-!
# Changes of twins

A change that is asked of two registries that are akin is granted by both or refused by both, with
the same words (`Both`). What is granted leaves them akin.
-/

namespace ObjectSystem

/-- Both succeed, with results that are related, or both fail for the same reason. -/
inductive Both {ε α β : Type} (R : α → β → Prop) : Except ε α → Except ε β → Prop
  | ok {a : α} {b : β} (h : R a b) : Both R (.ok a) (.ok b)
  | error (e : ε) : Both R (.error e) (.error e)

namespace Both

variable {ε α β γ δ : Type} {R : α → β → Prop} {S : γ → δ → Prop} {x : Except ε α}
  {y : Except ε β}

theorem bind (h : Both R x y) {f : α → Except ε γ} {g : β → Except ε δ}
    (hfg : ∀ {a b}, R a b → Both S (f a) (g b)) : Both S (x >>= f) (y >>= g) := by
  cases h with
  | ok h => exact hfg h
  | error e => exact .error e

theorem imp_eq {S : α → β → Prop} (h : Both R x y)
    (hRS : ∀ {a b}, R a b → x = .ok a → y = .ok b → S a b) : Both S x y := by
  cases h with
  | ok h => exact .ok (hRS h rfl rfl)
  | error e => exact .error e

theorem guard {c : Prop} [Decidable c] {e : ε} (h : ¬ c → Both R x y) :
    Both R (if c then (throw e >>= fun _ : PUnit => x) else x)
      (if c then (throw e >>= fun _ : PUnit => y) else y) := by
  split
  · exact .error e
  · rename_i hc
    exact h hc

end Both

namespace Registry

open Catalog Relator

variable {r r' : Registry} {type parent role : Handle}

theorem Akin.checked (h : Akin r r') {next next' : Catalog}
    (hnext : next.Alike (r.names.Matches r'.names) next') (type : Handle) :
    Both Akin (r.checked type next) (r'.checked type next') := by
  have hconflict := hnext.firstConflict? (Interner.biUnique_matches _ _) type
  rw [Registry.checked, Registry.checked]
  rcases cases_rel hconflict with ⟨hx, hx'⟩ | ⟨⟨cls, p⟩, ⟨cls', p'⟩, hx, hx', hcls, hp⟩
  · rw [hx, hx']
    exact .ok hnext
  · rw [hx, hx']
    dsimp only at hcls hp ⊢
    rw [hcls, hp.roles_eq, h.display_eq, ← hp.member.lookup_eq]
    exact .error _

theorem Akin.extend (h : Akin r r') (type parent : Handle) :
    Both Akin (r.extend type parent) (r'.extend type parent) := by
  rw [Registry.extend, Registry.extend, h.unknownType_eq, h.typeSealed_eq, h.wrongKind_eq,
    h.display_eq, h.lineage_eq]
  rcases cases_rel (h.typeAt? type) with ⟨ht, ht'⟩ | ⟨t, t', ht, ht', halike⟩
  · rw [ht, ht']
    exact .error _
  · rw [ht, ht']
    dsimp only
    rw [halike.isRole_eq, halike.isSealed_eq, halike.parent_eq]
    refine .guard fun _ => .guard fun _ => ?_
    cases t.parent with
    | some existing => exact .error _
    | none =>
      dsimp only
      rcases cases_rel (h.typeAt? parent) with ⟨hp, hp'⟩ | ⟨p, p', hp, hp', hparent⟩
      · rw [hp, hp']
        exact .error _
      · rw [hp, hp']
        dsimp only
        rw [hparent.isRole_eq]
        refine .guard fun _ => .guard fun _ => .ok ?_
        exact h.addParent type parent

theorem Akin.proposeRole (h : Akin r r') (type role : Handle) :
    Both (Option.Rel (Alike (r.names.Matches r'.names))) (r.proposeRole type role)
      (r'.proposeRole type role) := by
  rw [Registry.proposeRole, Registry.proposeRole, h.unknownType_eq, h.typeSealed_eq, h.wrongKind_eq,
    h.display_eq, h.reachableRoles_eq]
  rcases cases_rel (h.typeAt? type) with ⟨ht, ht'⟩ | ⟨t, t', ht, ht', halike⟩
  · rw [ht, ht']
    exact .error _
  · rw [ht, ht']
    dsimp only
    rcases cases_rel (h.typeAt? role) with ⟨hq, hq'⟩ | ⟨q, q', hq, hq', hrole⟩
    · rw [hq, hq']
      exact .error _
    · rw [hq, hq']
      dsimp only
      rw [halike.isRole_eq, halike.isSealed_eq, halike.roles_eq, hrole.isRole_eq]
      refine .guard fun _ => .guard fun _ => .guard fun _ => ?_
      split
      · exact .ok .none
      · refine .guard fun _ => .ok (.some ?_)
        exact h.addRole type role

theorem Akin.consume (h : Akin r r') (type role : Handle) :
    Both Akin (r.consume type role) (r'.consume type role) := by
  refine (h.proposeRole type role).bind fun hproposal => ?_
  cases hproposal with
  | none => exact .ok h
  | some hnext => exact h.checked hnext type

theorem Akin.proposeMember (h : Akin r r') (type : Handle) {m m' : Member}
    (hm : m.Alike (r.names.Matches r'.names) m') :
    Both (Alike (r.names.Matches r'.names)) (r.proposeMember type m)
      (r'.proposeMember type m') := by
  rw [Registry.proposeMember, Registry.proposeMember, h.unknownType_eq, h.typeSealed_eq,
    h.display_eq, ← hm.name.lookup_eq]
  rcases cases_rel (h.typeAt? type) with ⟨ht, ht'⟩ | ⟨t, t', ht, ht', halike⟩
  · rw [ht, ht']
    exact .error _
  · rw [ht, ht']
    dsimp only
    rw [halike.isSealed_eq, halike.declares_eq (Interner.biUnique_matches _ _) hm.name]
    refine .guard fun _ => .guard fun _ => .ok ?_
    exact h.addMember type hm

theorem Akin.insertMember (h : Akin r r') (type : Handle) {m m' : Member}
    (hm : m.Alike (r.names.Matches r'.names) m') :
    Both Akin (r.insertMember type m) (r'.insertMember type m') :=
  (h.proposeMember type hm).bind fun hnext => h.checked hnext type

/-! ## Declarations -/

theorem rel_repeatedMember? {N : Name → Name → Prop} (hN : BiUnique N) {ms ms' : List Member}
    (hms : List.Forall₂ (Member.Alike N) ms ms') :
    Option.Rel (Member.Alike N) (repeatedMember? ms) (repeatedMember? ms') := by
  have hfrom {seen seen' : List Name} (hseen : List.Forall₂ N seen seen') :
      Option.Rel (Member.Alike N) (repeatedAfter? seen ms) (repeatedAfter? seen' ms') := by
    induction hms generalizing seen seen' with
    | nil => exact .none
    | @cons m m' _ _ hm _ ih =>
      have hmem : m.name ∈ seen ↔ m'.name ∈ seen' := List.rel_mem hN hm.name hseen
      rw [repeatedAfter?, repeatedAfter?]
      by_cases hold : m.name ∈ seen
      · rw [if_pos hold, if_pos (hmem.mp hold)]
        exact .some hm
      · rw [if_neg hold, if_neg (hmem.not.mp hold)]
        exact ih (.cons hm.name hseen)
  exact hfrom .nil

variable {name name' : Name} {ms ms' : List Member}

theorem Akin.newEntry (h : Akin r r') (hname : r.names.Matches r'.names name name')
    (isAnonymous : Bool) (form : Form)
    (hms : List.Forall₂ (Member.Alike (r.names.Matches r'.names)) ms ms') :
    (r.newEntry name isAnonymous form ms).Alike (r.names.Matches r'.names)
      (r'.newEntry name' isAnonymous form ms') where
  handle_eq := h.nextHandle_eq
  name := hname
  isAnonymous_eq := rfl
  form_eq := rfl
  roles_eq := rfl
  members := hms
  isSealed_eq := rfl

theorem Twin.place (h : Twin r r') {t t' : TypeEntry}
    (ht : t.Alike (r.names.Matches r'.names) t') : Both Akin (r.place t) (r'.place t') := by
  rw [Registry.place, Registry.place, ht.isAnonymous_eq, ht.handle_eq]
  split
  · have hcount := congrArg (· + 1) h.akin.anonymousCount_eq
    exact .ok (h.akin.append ht rfl rfl h.akin.config_eq hcount)
  · rw [SymbolTable.register, SymbolTable.register, h.symbol_eq ht.name]
    cases r.symbols.resolve? t.name with
    | none => exact .ok (h.akin.append ht rfl rfl h.akin.config_eq h.akin.anonymousCount_eq)
    | some existing =>
      dsimp only
      rw [← ht.name.lookup_eq]
      exact .error _

theorem Twin.insertType (h : Twin r r') (hname : r.names.Matches r'.names name name')
    (isAnonymous : Bool) (form : Form)
    (hms : List.Forall₂ (Member.Alike (r.names.Matches r'.names)) ms ms') :
    Both Akin (r.insertType name isAnonymous form ms)
      (r'.insertType name' isAnonymous form ms') := by
  have hentry := h.akin.newEntry hname isAnonymous form hms
  rw [Registry.insertType, Registry.insertType, h.akin.unknownType_eq, h.akin.wrongKind_eq]
  dsimp only
  rw [hentry.parent_eq]
  rcases cases_rel (rel_repeatedMember? (Interner.biUnique_matches _ _) hms) with
    ⟨hm, hm'⟩ | ⟨m, m', hm, hm', hmember⟩
  · rw [hm, hm']
    dsimp only
    cases (r.newEntry name isAnonymous form ms).parent with
    | none => exact h.place hentry
    | some p =>
      dsimp only
      rcases cases_rel (h.akin.typeAt? p) with ⟨ht, ht'⟩ | ⟨t, t', ht, ht', halike⟩
      · rw [ht, ht']
        exact .error _
      · rw [ht, ht']
        dsimp only
        rw [halike.isRole_eq]
        exact .guard fun _ => h.place hentry
  · rw [hm, hm', ← hname.lookup_eq]
    dsimp only
    rw [← hmember.name.lookup_eq]
    exact .error _

end Registry

end ObjectSystem
