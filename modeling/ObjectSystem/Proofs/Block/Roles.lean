import ObjectSystem.Proofs.Block.Heads
import ObjectSystem.Proofs.Linearization.FirstOccurrences
import ObjectSystem.Proofs.Registry.Granting

/-!
# The roles of blocks

The roles that a block lists are consumed one after another. What is added for each of them depends
on what is there: a role that is consumed already is not consumed again, and a tag that means no
type yet is declared, which makes it the newest type. `ConsumesAsWritten` says what has become of
the list so far; it is kept by each further role (`consumeUse_eq_ok`) and so holds for the whole
list (`consumesAsWritten_forM`).
-/

namespace ObjectSystem

open Registry Catalog

namespace Registry

variable {r s m : Registry} {scope : Scope} {type role k : Handle} {uses : List RoleUse}
  {use : RoleUse} {first last : Nat}

def IsEmptyTag (s : Registry) (h : Handle) : Prop :=
  ∃ t, s.typeAt? h = some t ∧ t.form = .role true ∧ t.isAnonymous = false ∧ t.roles = [] ∧
    t.members = [] ∧ t.isSealed = false

/-- The type consumes the listed roles in the order in which they are listed, each once. Those of
them that have been declared for it have the places from `first` to `last`, in this order. They are
empty tags, each under the name that it has in the list. -/
structure ConsumesAsWritten (s : Registry) (scope : Scope) (uses : List RoleUse) (type : Handle)
    (first last : Nat) : Prop where
  le : first ≤ last
  roles : ∃ targets, uses.Forall₂ (·.PointsTo s scope ·) targets ∧
    s.rolesOf type = targets.eraseDups
  declared : (s.rolesOf type).filter (first ≤ ·.index) =
    (List.range' first (last - first)).map Handle.mk
  isEmptyTag : ∀ h, first ≤ h.index → h.index < last →
    s.IsEmptyTag h ∧ ∃ written, .tag written ∈ uses ∧ s.Refers scope written h

/-- The type may have come to consume roles, and stays what it is otherwise; so do the other types.
-/
structure KeepsRest (r s : Registry) (type : Handle) : Prop where
  typeAt?_ne : ∀ h, h ≠ type → r.Known h → s.typeAt? h = r.typeAt? h
  typeAt?_self : ∃ roles, s.typeAt? type = (r.typeAt? type).map fun t => { t with roles }

theorem KeepsRest.refl (r : Registry) (type : Handle) : KeepsRest r r type := by
  refine ⟨fun _ _ _ => rfl, r.rolesOf type, ?_⟩
  cases ht : r.typeAt? type with
  | none => rfl
  | some t => rw [Option.map_some, rolesOf_of_entry ht]

theorem KeepsRest.trans (hrm : KeepsRest r m type) (hms : KeepsRest m s type)
    (hgrows : r.toCatalog.Grows m.toCatalog) : KeepsRest r s type := by
  obtain ⟨roles, hself⟩ := hrm.typeAt?_self
  obtain ⟨roles', hself'⟩ := hms.typeAt?_self
  refine ⟨fun h hne hk => ?_, roles', ?_⟩
  · rw [hms.typeAt?_ne h hne (hgrows.known hk), hrm.typeAt?_ne h hne hk]
  · rw [hself', hself, Option.map_map]
    rfl

/-- What a role that a type lists comes to: the type consumes it, at the end of its roles unless it
does so already. If the list says that it is a tag, the role may have been declared for the type. -/
structure Takes (r s : Registry) (scope : Scope) (type : Handle) (use : RoleUse) (role : Handle) :
    Prop extends KeepsRest r s type where
  pointsTo : use.PointsTo s scope role
  rolesOf_eq : s.rolesOf type =
    if role ∈ r.rolesOf type then r.rolesOf type else r.rolesOf type ++ [role]
  origin : r.Known role ∧ s.size = r.size ∨
    role = r.nextHandle ∧ s.size = r.size + 1 ∧ s.IsEmptyTag role ∧ ∃ written, use = .tag written

theorem takes_of_consume (h : r.consume type role = .ok s) (huse : use.PointsTo s scope role) :
    Takes r s scope type use role := by
  rcases consume_eq_ok_iff.mp h with ⟨hadmits, hold, rfl⟩ | ⟨hmay, -, rfl⟩
  · exact ⟨.refl s type, huse, (if_pos hold).symm, .inl ⟨known_of_isRole hadmits.isRole, rfl⟩⟩
  · have hk := known_of_isOpen hmay.isOpen
    obtain ⟨t, ht⟩ := hk.exists_entry
    refine ⟨⟨fun h hne _ => typeAt?_modify_of_ne (Ne.symm hne), t.roles ++ [role], ?_⟩, huse, ?_,
      .inl ⟨known_of_isRole hmay.isRole, size_modify _ _ _⟩⟩
    · rw [ht]
      exact typeAt?_modify_self ht
    · rw [if_neg (show role ∉ r.rolesOf type from hmay.not_consumes)]
      exact (rolesOf_addRole hk type).trans (if_pos rfl)

theorem Takes.of_declared {t : TypeEntry} {q written : String}
    (hdeclared : Editing.Declares r m (some q) (.role true) [] t) (hms : Evolves m s)
    (hk : r.Known type) (hq : scope.qualify written = .ok q)
    (hconsume : m.consume type r.nextHandle = .ok s) :
    Takes r s scope type (.tag written) r.nextHandle := by
  have hne : r.nextHandle ≠ type := by
    rintro rfl
    exact not_known_nextHandle _ hk
  have hmeans : m.Means q r.nextHandle := hdeclared.means q rfl
  have hrefers : s.Refers scope written r.nextHandle := ⟨q, hq, hmeans.mono hms⟩
  have htakes : Takes m s scope type (.tag written) r.nextHandle :=
    takes_of_consume hconsume hrefers
  have hknown : m.Known r.nextHandle := hdeclared.appends.known_iff.mpr (.inr rfl)
  have hold {h : Handle} (hk : r.Known h) : m.typeAt? h = r.typeAt? h :=
    hdeclared.appends.typeAt?_old hk
  have hroles : m.rolesOf type = r.rolesOf type := by rw [rolesOf, hold hk, rolesOf]
  refine ⟨⟨fun h hh hk => ?_, ?_⟩, htakes.pointsTo, ?_, .inr ⟨rfl, ?_, ⟨t, ?_, hdeclared.form_eq,
    hdeclared.isAnonymous_eq, hdeclared.roles_eq, ?_, hdeclared.isSealed_eq⟩, written, rfl⟩⟩
  · rw [htakes.typeAt?_ne h hh (hdeclared.appends.known_iff.mpr (.inl hk)), hold hk]
  · rw [← hold hk]
    exact htakes.typeAt?_self
  · rw [htakes.rolesOf_eq, hroles]
  · rcases htakes.origin with ⟨-, hsize⟩ | ⟨hnext, -⟩
    · rw [hsize, hdeclared.appends.size_eq]
    · exact absurd hknown (hnext ▸ not_known_nextHandle m.toCatalog)
  · rw [htakes.typeAt?_ne _ hne hknown, hdeclared.appends.typeAt?_new]
  · exact List.forall₂_nil_left_iff.mp hdeclared.members

/-! ## The list so far -/

theorem IsEmptyTag.of_typeAt?_eq {h : Handle} (htag : r.IsEmptyTag h)
    (heq : s.typeAt? h = r.typeAt? h) : s.IsEmptyTag h := by
  obtain ⟨t, ht, hrest⟩ := htag
  exact ⟨t, heq.trans ht, hrest⟩

theorem consumesAsWritten_nil (hroles : r.rolesOf type = []) (n : Nat) :
    r.ConsumesAsWritten scope [] type n n where
  le := Nat.le_refl n
  roles := ⟨[], .nil, hroles⟩
  declared := by rw [hroles, Nat.sub_self]; rfl
  isEmptyTag h hle hlt := absurd (Nat.lt_of_le_of_lt hle hlt) (Nat.lt_irrefl _)

theorem ConsumesAsWritten.declared_concat
    (hr : r.ConsumesAsWritten scope uses type first r.size) (wf : r.WellFormed)
    (htakes : Takes r s scope type use role) :
    (s.rolesOf type).filter (first ≤ ·.index) =
      (List.range' first (s.size - first)).map Handle.mk := by
  have hle := hr.le
  rw [htakes.rolesOf_eq]
  rcases htakes.origin with ⟨hk, hsize⟩ | ⟨rfl, hsize, -⟩
  · rw [hsize, ← hr.declared]
    split
    · rfl
    · -- a role with one of these places would be consumed already
      rename_i hnew
      have hlow : ¬ first ≤ role.index := by
        intro hhigh
        have hmem : role ∈ (r.rolesOf type).filter (first ≤ ·.index) := by
          rw [hr.declared]
          have hlt : role.index < r.size := hk
          exact List.mem_map.mpr ⟨role.index, List.mem_range'_1.mpr ⟨hhigh, by omega⟩, rfl⟩
        exact hnew (List.mem_of_mem_filter hmem)
      rw [List.filter_append, List.filter_cons_of_neg (by simpa using hlow), List.filter_nil,
        List.append_nil]
  · have hnew : r.nextHandle ∉ r.rolesOf type := fun hmem =>
      not_known_nextHandle _ (wf.known_of_consumes hmem)
    have hhigh : first ≤ r.nextHandle.index := hle
    have hcount : s.size - first = (r.size - first) + 1 := by omega
    have hlast : first + (r.size - first) = r.nextHandle.index := by
      rw [Nat.add_sub_cancel' hle]
      rfl
    rw [if_neg hnew, List.filter_append, hr.declared,
      List.filter_cons_of_pos (by simpa using hhigh), List.filter_nil, hcount,
      List.range'_1_concat, List.map_append, hlast]
    rfl

theorem ConsumesAsWritten.concat (hr : r.ConsumesAsWritten scope uses type first r.size)
    (wf : r.WellFormed) (htype : type.index < first) (hrs : Evolves r s)
    (htakes : Takes r s scope type use role) :
    s.ConsumesAsWritten scope (uses ++ [use]) type first s.size := by
  obtain ⟨targets, htargets, hroles⟩ := hr.roles
  have hsize : r.size ≤ s.size := by
    rcases htakes.origin with ⟨-, hsize⟩ | ⟨-, hsize, -⟩ <;> omega
  have hold {h : Handle} (hle : first ≤ h.index) (hlt : h.index < r.size) :
      s.typeAt? h = r.typeAt? h := by
    refine htakes.typeAt?_ne h ?_ hlt
    rintro rfl
    omega
  refine ⟨hr.le.trans hsize, ⟨targets ++ [role], ?_, ?_⟩, hr.declared_concat wf htakes,
    fun h hle hlt => ?_⟩
  · have hlater := List.Forall₂.imp (fun _ _ h => h.mono hrs) htargets
    exact List.rel_append hlater (.cons htakes.pointsTo .nil)
  · rw [htakes.rolesOf_eq, hroles, eraseDups_concat]
    simp only [List.mem_eraseDups]
  · rcases Nat.lt_or_ge h.index r.size with hlt' | hge
    · obtain ⟨htag, written, hmem, hrefers⟩ := hr.isEmptyTag h hle hlt'
      exact ⟨htag.of_typeAt?_eq (hold hle hlt'), written, List.mem_append_left _ hmem,
        hrefers.mono hrs⟩
    · -- only the tag that has been declared last has a place so high
      rcases htakes.origin with ⟨-, hsame⟩ | ⟨rfl, hnext, htag, written, rfl⟩
      · omega
      · obtain rfl : h = r.nextHandle := by
          have hindex : h.index = r.size := by omega
          exact congrArg Handle.mk hindex
        exact ⟨htag, written, List.mem_append_right _ (List.mem_singleton_self _),
          htakes.pointsTo⟩

end Registry

namespace Editing

variable {r s : Registry} {scope : Scope} {type : Handle}

theorem consume_eq_ok {role : Handle} (hok : (consume type role).outcome r = (.ok (), s)) :
    r.consume type role = .ok s := by
  rw [consume, outcome_step] at hok
  split at hok <;> cases hok
  assumption

theorem tag_eq_ok {q written : String} {role : Handle} (hq : scope.qualify written = .ok q)
    (hok : (tag type q).outcome r = (.ok role, s)) :
    Takes r s scope type (.tag written) role := by
  obtain ⟨_, _, hget, hrest⟩ := outcome_bind_eq_ok.mp hok
  cases hget
  split at hrest
  · rename_i found hfound
    obtain ⟨-, hfirst⟩ := guard_eq_ok hrest
    obtain ⟨_, _, hconsume, hpure⟩ := outcome_bind_eq_ok.mp hfirst
    cases hpure
    have hmeans := (Means.of_resolve? hfound).mono ((evolving_consume type role).evolves hconsume)
    exact takes_of_consume (consume_eq_ok hconsume) ⟨q, hq, hmeans⟩
  · split at hrest
    · rename_i entry hentry
      obtain ⟨-, hdeclare⟩ := guard_eq_ok hrest
      obtain ⟨k, m, hdeclared, hconsumed⟩ :=
        outcome_bind_eq_ok.mp (outcome_of_atomically_eq_ok hdeclare)
      have hmembers : (([] : List WrittenMember).mapM internMember).outcome r = (.ok [], r) := rfl
      obtain ⟨rfl, t, ht⟩ :=
        declareWritten_eq_ok (outcome_bind_eq_ok.mpr ⟨_, _, hmembers, hdeclared⟩)
      obtain ⟨_, _, hconsume, hpure⟩ := outcome_bind_eq_ok.mp hconsumed
      cases hpure
      have hevolves := (evolving_consume type r.nextHandle).evolves hconsume
      exact .of_declared ht hevolves (known_of_typeAt? hentry) hq (consume_eq_ok hconsume)
    · cases hrest

theorem consumeUse_eq_ok {use : RoleUse}
    (hok : (consumeUse scope type use).outcome r = (.ok (), s)) :
    ∃ role, Takes r s scope type use role := by
  cases use with
  | named written =>
    obtain ⟨role, _, hlookUp, hconsume⟩ := outcome_bind_eq_ok.mp hok
    obtain ⟨hrefers, rfl⟩ := lookUp_eq_ok hlookUp
    have hevolves := (evolving_consume type role).evolves hconsume
    exact ⟨role, takes_of_consume (consume_eq_ok hconsume) (hrefers.mono hevolves)⟩
  | tag written =>
    obtain ⟨q, _, hqualify, hrest⟩ := outcome_bind_eq_ok.mp hok
    obtain ⟨hq, rfl⟩ := qualify_eq_ok hqualify
    obtain ⟨role, _, htag, hpure⟩ := outcome_bind_eq_ok.mp hrest
    cases hpure
    exact ⟨role, tag_eq_ok hq htag⟩
  | handle role => exact ⟨role, takes_of_consume (consume_eq_ok hok) rfl⟩

/-- A list of roles is consumed, after those that have been. -/
theorem consumesAsWritten_forM {uses done : List RoleUse} {first : Nat}
    (hok : (uses.forM (consumeUse scope type)).outcome r = (.ok (), s)) (wf : r.WellFormed)
    (htype : type.index < first) (hr : r.ConsumesAsWritten scope done type first r.size) :
    s.ConsumesAsWritten scope (done ++ uses) type first s.size ∧ KeepsRest r s type := by
  induction uses generalizing r done with
  | nil =>
    cases hok
    rw [List.append_nil]
    exact ⟨hr, .refl s type⟩
  | cons use uses ih =>
    obtain ⟨_, m, hfirst, hrest⟩ := outcome_bind_eq_ok.mp hok
    have hevolves := (evolving_consumeUse scope type use).evolves hfirst
    obtain ⟨role, htakes⟩ := consumeUse_eq_ok hfirst
    obtain ⟨hdone, hkeeps⟩ := ih hrest (hevolves.wellFormed wf) (hr.concat wf htype hevolves htakes)
    rw [List.append_assoc, List.singleton_append] at hdone
    exact ⟨hdone, htakes.toKeepsRest.trans hkeeps hevolves.grows⟩

end Editing

end ObjectSystem
