import ObjectSystem.Proofs.Run.Consumption
import ObjectSystem.Proofs.Run.InPlace
import ObjectSystem.Proofs.Run.Naming
import ObjectSystem.Proofs.Run.Validity

/-!
# Tags

To tag a type with a string is to let it consume the role that the string resolves to. If there is
none, an empty role is declared and bound to the string first (`withTag`). Nothing stands in its
way: a string that resolves to nothing has a name that is bound to nothing
(`resolve?_intern_eq_none`), and a role that provides nothing can always be consumed
(`exists_consume_declared`). Either way the type ends up with the role among its roles, and tagging
it again finds both there (`Tags.of_consume`).
-/

namespace ObjectSystem.Registry

open Catalog Editing

variable {r s : Registry} {type role : Handle} {q : String}

/-- The registry with an empty role at the end that is a tag. The string is bound to it. -/
def withTag (r : Registry) (q : String) : Registry :=
  let (name, names) := r.names.intern q
  { r with
    names
    toCatalog := r.push (r.newEntry name false (.role true) [])
      ⟨r.symbols.bindings.insert name r.nextHandle⟩ }

/-- The registry in which the string resolves to something, to a new tag if there is nothing else.
-/
def resolving (r : Registry) (q : String) : Registry :=
  if (r.resolve? q).isSome then r else r.withTag q

def consuming (r : Registry) (type role : Handle) : Registry :=
  if role ∈ r.rolesOf type then r else { r with toCatalog := r.addRole type role }

/-- What comes of tagging a type with a string: the string resolves to a role, which the type
consumes once. At most, a tag has been declared and the role has been added to the type's roles.
Tagging the type again changes nothing. -/
structure Tags (r s : Registry) (type : Handle) (q : String) (role : Handle) : Prop where
  isRole : s.isRole role
  resolve?_eq : s.resolve? q = some role
  count_rolesOf : (s.rolesOf type).count role = 1
  eq_consuming : s = (r.resolving q).consuming type role
  again : (tag type q).outcome s = (.ok role, s)

/-! ## Strings that resolve -/

theorem outcome_tag_of_resolved (hq : r.resolve? q = some role) :
    (tag type q).outcome r =
      if r.isRole role then
        match r.consume type role with
        | .ok s => (.ok role, s)
        | .error e => (.error e, r)
      else (.error (.wrongKind q .role), r) := by
  rw [tag, outcome_bind, outcome_get]
  dsimp only
  rw [hq]
  dsimp only
  by_cases hrole : r.isRole role
  · simp only [hrole, Bool.not_true, Bool.false_eq_true, if_false, if_true]
    rw [outcome_bind, Editing.consume, outcome_step]
    cases r.consume type role <;> rfl
  · simp only [hrole, Bool.not_false, if_true]
    rfl

theorem tag_eq_ok_iff (hq : r.resolve? q = some role) (k : Handle) (s : Registry) :
    (tag type q).outcome r = (.ok k, s) ↔ k = role ∧ r.consume type role = .ok s := by
  rw [outcome_tag_of_resolved hq]
  by_cases hrole : r.isRole role
  · rw [if_pos hrole]
    cases r.consume type role with
    | error e => simp
    | ok next => simp [eq_comm]
  · have hrefused : r.consume type role ≠ .ok s :=
      fun hconsume => hrole (consume_admits hconsume).isRole
    simp [hrole, hrefused]

theorem Tags.of_consume (hr : (r.resolving q).Settled)
    (hq : (r.resolving q).resolve? q = some role)
    (hconsume : (r.resolving q).consume type role = .ok s) : Tags r s type q role := by
  obtain ⟨hwidens, hedges⟩ := consume_widens hconsume
  have hconsumes : s.Consumes type role := (hedges type role).mpr (.inr ⟨rfl, rfl⟩)
  have hadmits : s.Admits type role := hwidens.admits_iff.mpr (consume_admits hconsume)
  have hnodup := (consume_settled hconsume hr).wellFormed.nodup_roles type
  have hagain : s.consume type role = .ok s :=
    consume_eq_ok_iff.mpr (.inl ⟨hadmits, hconsumes, rfl⟩)
  obtain ⟨hs, heq⟩ : s.resolve? q = some role ∧ s = (r.resolving q).consuming type role := by
    rcases consume_eq_ok_iff.mp hconsume with ⟨-, hold, rfl⟩ | ⟨hmay, -, rfl⟩
    · exact ⟨hq, (if_pos hold).symm⟩
    · exact ⟨hq, (if_neg hmay.not_consumes).symm⟩
  exact ⟨hadmits.isRole, hs, List.count_eq_one_of_mem hnodup hconsumes, heq,
    (tag_eq_ok_iff hs role s).mpr ⟨rfl, hagain⟩⟩

/-! ## Strings that do not resolve -/

/-- The name of a string that resolves to nothing is bound to nothing, whether the string has it
already or not. -/
theorem resolve?_intern_eq_none (hnamed : r.Named) (hbound : r.Bound) (hroom : r.names.HasRoom)
    (hq : r.resolve? q = none) : r.symbols.resolve? (r.names.intern q).1 = none := by
  rw [Option.eq_none_iff_forall_ne_some]
  intro h hsymbol
  obtain ⟨t, ht, -, hname⟩ := hbound.resolve?_iff.mp hsymbol
  -- the type had the name before, so the string had it too
  have hissued : r.names.Issued (r.names.intern q).1 := hname ▸ hnamed.type ht
  have hget := ((r.names.grows_intern q).get?_eq_some_iff hissued).mp (hroom.get?_intern q)
  rw [resolve?_eq_some.mpr ⟨_, hget, hsymbol⟩] at hq
  cases hq

theorem outcome_declareType_tag (hnamed : r.Named) (hbound : r.Bound) (hroom : r.names.HasRoom)
    (hq : r.resolve? q = none) (hfree : r.isReserved q = false) :
    (declareType (some q) (.role true) []).outcome r = (.ok r.nextHandle, r.withTag q) := by
  have hname : (internTypeName .role (some q)).outcome r = (intern q).outcome r := by
    simp only [internTypeName, outcome_bind, outcome_get, hfree, Bool.false_eq_true, if_false]
  have hregister : r.symbols.register (r.names.intern q).1 r.nextHandle =
      .ok ⟨r.symbols.bindings.insert (r.names.intern q).1 r.nextHandle⟩ :=
    SymbolTable.register_eq_ok_iff.mpr ⟨resolve?_intern_eq_none hnamed hbound hroom hq, rfl⟩
  have hinsert : insertType { r with names := (r.names.intern q).2 } (r.names.intern q).1 false
      (.role true) [] = .ok (r.withTag q) := by
    show place { r with names := (r.names.intern q).2 }
      (r.newEntry (r.names.intern q).1 false (.role true) []) = _
    simp only [place, newEntry, Bool.false_eq_true, if_false, hregister]
    rfl
  rw [declareType, outcome_bind, Form.kind, hname, outcome_intern]
  dsimp only
  rw [outcome_bind, outcome_get]
  dsimp only
  rw [outcome_bind, outcome_step, Option.isNone_some, hinsert]
  rfl

theorem resolve?_withTag (hroom : r.names.HasRoom) :
    (r.withTag q).resolve? q = some r.nextHandle := by
  refine resolve?_eq_some.mpr ⟨_, hroom.get?_intern q, ?_⟩
  show (r.symbols.bindings.insert (r.names.intern q).1 r.nextHandle)[(r.names.intern q).1]? = _
  exact Std.TreeMap.getElem?_insert_self

theorem outcome_tag_of_unresolved (hq : r.resolve? q = none) (type : Handle) :
    (tag type q).outcome r =
      match r.typeAt? type with
      | none => (.error (r.unknownType type), r)
      | some t =>
        if t.isSealed then (.error (r.typeSealed type), r) else (declareTag type q).outcome r := by
  rw [tag, outcome_bind, outcome_get]
  dsimp only
  rw [hq]
  cases r.typeAt? type with
  | none => rfl
  | some t =>
    dsimp only
    split <;> rfl

theorem outcome_tag_of_isOpen (hq : r.resolve? q = none) (hopen : r.isOpen type) :
    (tag type q).outcome r = (declareTag type q).outcome r := by
  obtain ⟨t, ht⟩ := (known_of_isOpen hopen).exists_entry
  have hunsealed : t.isSealed = false := by simpa [isOpen, ht] using hopen
  simp only [outcome_tag_of_unresolved hq, ht, hunsealed, Bool.false_eq_true, if_false]

theorem exists_outcome_tag_of_not_isOpen (hq : r.resolve? q = none) (hopen : ¬ r.isOpen type) :
    ∃ e, (tag type q).outcome r = (.error e, r) := by
  rw [outcome_tag_of_unresolved hq]
  cases ht : r.typeAt? type with
  | none => exact ⟨_, rfl⟩
  | some t =>
    have hsealed : t.isSealed := by simpa [isOpen, ht] using hopen
    exact ⟨_, if_pos hsealed⟩

theorem exists_outcome_declareTag_of_isReserved (hreserved : r.isReserved q) (type : Handle) :
    ∃ e, (declareTag type q).outcome r = (.error e, r) := by
  have hname : (internTypeName .role (some q)).outcome r =
      (.error (.invalidName (.reserved q r.config.generatedSpace)), r) := by
    simp only [internTypeName, outcome_bind, outcome_get, hreserved, if_true]
    rfl
  rw [declareTag, outcome_atomically, outcome_bind, declareType, outcome_bind, Form.kind, hname]
  exact ⟨_, rfl⟩

theorem tags_of_unresolved (hr : Reachable r) (hroom : r.names.HasRoom) (hq : r.resolve? q = none)
    (hopen : r.isOpen type) (hfree : r.isReserved q = false) :
    ∃ s, (tag type q).outcome r = (.ok r.nextHandle, s) ∧ Tags r s type q r.nextHandle := by
  have hdeclared := outcome_declareType_tag hr.named hr.labelled.bound hroom hq hfree
  obtain ⟨hsettled, s, hconsume⟩ := exists_consume_declared hr.settled hopen hdeclared
  have hresolving : r.resolving q = r.withTag q := by simp [resolving, hq]
  refine ⟨s, ?_, .of_consume ?_ ?_ ?_⟩
  · rw [outcome_tag_of_isOpen hq hopen, declareTag, outcome_atomically, outcome_bind, hdeclared]
    dsimp only
    rw [outcome_bind, Editing.consume, outcome_step, hconsume]
    rfl
  · rwa [hresolving]
  · rw [hresolving, resolve?_withTag hroom]
  · rwa [hresolving]

/-! ## Strings of either kind -/

theorem tag_of_unresolved (hr : Reachable r) (hroom : r.names.HasRoom) (hq : r.resolve? q = none)
    (type : Handle) :
    (r.isOpen type ∧ r.isReserved q = false ∧
      ∃ s, (tag type q).outcome r = (.ok r.nextHandle, s) ∧ Tags r s type q r.nextHandle) ∨
    ¬ (r.isOpen type ∧ r.isReserved q = false) ∧ ∃ e, (tag type q).outcome r = (.error e, r) := by
  by_cases hopen : r.isOpen type
  · by_cases hreserved : r.isReserved q
    · obtain ⟨e, he⟩ := exists_outcome_declareTag_of_isReserved hreserved type
      refine .inr ⟨by simp [hreserved], e, ?_⟩
      rw [outcome_tag_of_isOpen hq hopen, he]
    · have hfree : r.isReserved q = false := by simpa using hreserved
      exact .inl ⟨hopen, hfree, tags_of_unresolved hr hroom hq hopen hfree⟩
  · exact .inr ⟨by simp [hopen], exists_outcome_tag_of_not_isOpen hq hopen⟩

theorem exists_tag_eq_ok_iff (hr : Reachable r) (hroom : r.names.HasRoom)
    (hq : r.resolve? q = none) :
    (∃ role s, (tag type q).outcome r = (.ok role, s)) ↔
      r.Known type ∧ ¬ r.isSealed type ∧ r.isReserved q = false := by
  rw [← and_assoc, ← isOpen_iff]
  rcases tag_of_unresolved hr hroom hq type with ⟨hopen, hfree, s, hs, -⟩ | ⟨hnot, e, he⟩
  · exact ⟨fun _ => ⟨hopen, hfree⟩, fun _ => ⟨_, s, hs⟩⟩
  · simp [he, hnot]

theorem tags_of_tag_eq_ok (hr : Reachable r) (hroom : r.names.HasRoom)
    (hok : (tag type q).outcome r = (.ok role, s)) : Tags r s type q role := by
  cases hq : r.resolve? q with
  | some existing =>
    obtain ⟨rfl, hconsume⟩ := (tag_eq_ok_iff hq role s).mp hok
    have hresolving : r.resolving q = r := by simp [resolving, hq]
    apply Tags.of_consume <;> rw [hresolving]
    · exact hr.settled
    · exact hq
    · exact hconsume
  | none =>
    rcases tag_of_unresolved hr hroom hq type with ⟨-, -, _, hs, htags⟩ | ⟨-, e, he⟩
    · rw [hs] at hok
      cases hok
      exact htags
    · rw [he] at hok
      cases hok

theorem eq_of_tag_eq_error (hr : Reachable r) (hroom : r.names.HasRoom) {e : EditError}
    (herror : (tag type q).outcome r = (.error e, s)) : s = r := by
  cases hq : r.resolve? q with
  | some existing =>
    rw [outcome_tag_of_resolved hq] at herror
    split at herror
    · split at herror <;> cases herror
      rfl
    · cases herror
      rfl
  | none =>
    rcases tag_of_unresolved hr hroom hq type with ⟨-, -, _, hs, -⟩ | ⟨-, _, he⟩
    · rw [hs] at herror
      cases herror
    · rw [he] at herror
      cases herror
      rfl

/-- While there is room for every string, tagging a type with one gives it the role of the string,
which it then has once and keeps when it is tagged again, or else leaves the registry as it is. A
string that resolves to nothing is accepted for every type that is known and not sealed, unless it
is reserved: the role that is declared for it is consumed without fail, so there is nothing to take
back. A string that resolves to something is accepted if the type can consume that. -/
theorem reachable_tag (hr : Reachable r) (hroom : r.names.HasRoom) (type : Handle) (q : String) :
    (∀ role s, (tag type q).outcome r = (.ok role, s) → Tags r s type q role) ∧
    (∀ e s, (tag type q).outcome r = (.error e, s) → s = r) ∧
    (r.resolve? q = none →
      ((∃ role s, (tag type q).outcome r = (.ok role, s)) ↔
        r.Known type ∧ ¬ r.isSealed type ∧ r.isReserved q = false) ∧
      ∀ role t, r.isOpen type →
        (declareType (some q) (.role true) []).outcome r = (.ok role, t) →
        ∃ s, t.consume type role = .ok s ∧
          ∀ undo, (orUndo (consumeInPlace type role) undo).outcome t = (.ok (), s)) ∧
    ∀ role, r.resolve? q = some role → ∀ k s,
      (tag type q).outcome r = (.ok k, s) ↔ k = role ∧ r.consume type role = .ok s := by
  refine ⟨fun role s => tags_of_tag_eq_ok hr hroom, fun e s => eq_of_tag_eq_error hr hroom,
    fun hq => ⟨exists_tag_eq_ok_iff hr hroom hq, fun role t hopen hdeclared => ?_⟩,
    fun role hq => tag_eq_ok_iff hq⟩
  obtain ⟨-, s, hs⟩ := exists_consume_declared hr.settled hopen hdeclared
  refine ⟨s, hs, fun undo => ?_⟩
  rw [outcome_orUndo, outcome_consumeInPlace, Editing.consume, outcome_step, hs]

/-- Swimmers, which ducks are, come to be flyers, though there are none yet, and they come to walk,
but they do not come to be animals, which are no role. -/
theorem farm_tag : farm.names.HasRoom ∧
    (∃ s, (tag ⟨1⟩ "Flyer").outcome farm = (.ok ⟨4⟩, s) ∧ Tags farm s ⟨1⟩ "Flyer" ⟨4⟩) ∧
    (∃ s, (tag ⟨1⟩ "Walker").outcome farm = (.ok ⟨0⟩, s) ∧ Tags farm s ⟨1⟩ "Walker" ⟨0⟩) ∧
    ∀ k s, (tag ⟨1⟩ "Animal").outcome farm ≠ (.ok k, s) := by
  have hroom : farm.names.HasRoom := by decide +kernel
  refine ⟨hroom, ?_, ?_, ?_⟩
  · obtain ⟨htags, -, hnew, -⟩ := reachable_tag reachable_farm hroom ⟨1⟩ "Flyer"
    have hknown : farm.Known ⟨1⟩ := show 1 < farm.size by decide +kernel
    have hrole : ((tag ⟨1⟩ "Flyer").outcome farm).1 = .ok ⟨4⟩ := by decide +kernel
    obtain ⟨role, s, hs⟩ := (hnew (by decide +kernel)).1.mpr
      ⟨hknown, by decide +kernel, by decide +kernel⟩
    rw [hs] at hrole
    cases hrole
    exact ⟨s, hs, htags _ _ hs⟩
  · obtain ⟨htags, -, -, hold⟩ := reachable_tag reachable_farm hroom ⟨1⟩ "Walker"
    have hok : (farm.consume ⟨1⟩ ⟨0⟩).isOk := by decide +kernel
    cases hs : farm.consume ⟨1⟩ ⟨0⟩ with
    | error e =>
      rw [hs] at hok
      cases hok
    | ok s =>
      have htag := (hold ⟨0⟩ (by decide +kernel) ⟨0⟩ s).mpr ⟨rfl, hs⟩
      exact ⟨s, htag, htags _ _ htag⟩
  · obtain ⟨-, -, -, hold⟩ := reachable_tag reachable_farm hroom ⟨1⟩ "Animal"
    intro k s htag
    obtain ⟨-, hs⟩ := (hold ⟨2⟩ (by decide +kernel) k s).mp htag
    have hrole := (consume_admits hs).isRole
    exact absurd hrole (by decide +kernel)

end ObjectSystem.Registry
