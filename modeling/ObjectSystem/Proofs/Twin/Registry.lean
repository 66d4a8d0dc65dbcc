import ObjectSystem.Proofs.Interning.Matching
import ObjectSystem.Proofs.Run.Naming
import ObjectSystem.Proofs.Twin.Lookup
import ObjectSystem.TypeTest

/-!
# Twins

Two registries are akin when their catalogs are alike under the names that match in their interners,
and twins when both are labelled besides. Their interners may hold other strings as well, and may
have given out the names in another order. A string that one of them does not know has no type and
no member in the other either, so twins answer alike whatever is asked by string.
-/

namespace ObjectSystem

namespace Registry

open Catalog

/-- The catalogs are alike when each name is read as the string that it stands for. -/
def Akin (r r' : Registry) : Prop :=
  r.toCatalog.Alike (r.names.Matches r'.names) r'.toCatalog

structure Twin (r r' : Registry) : Prop where
  akin : Akin r r'
  left : r.Labelled
  right : r'.Labelled

variable {r r' : Registry}

namespace Akin

variable {s s' : Registry}

theorem grows (h : Akin r r') {names names' : Interner} (hgrows : r.names.Grows names)
    (hgrows' : r'.names.Grows names') :
    Akin { r with names } { r' with names := names' } :=
  h.mono fun hn => hn.grows hgrows hgrows'

theorem typeName?_eq (h : Akin r r') : r'.typeName? = r.typeName? := by
  funext k
  exact (map_eq_of_rel (h.typeAt? k) fun ht => ht.name.lookup_eq).symm

theorem display_eq (h : Akin r r') : r'.display = r.display := by
  funext k
  rw [display, display, h.typeName?_eq]

theorem unknownType_eq (h : Akin r r') : r'.unknownType = r.unknownType := by
  funext k
  rw [unknownType, unknownType, h.display_eq]

theorem typeSealed_eq (h : Akin r r') : r'.typeSealed = r.typeSealed := by
  funext k
  rw [typeSealed, typeSealed, h.display_eq]

theorem wrongKind_eq (h : Akin r r') : r'.wrongKind = r.wrongKind := by
  funext k kind
  rw [wrongKind, wrongKind, h.display_eq]

theorem isReserved_eq (h : Akin r r') : r'.isReserved = r.isReserved := by
  funext qualified
  rw [Registry.isReserved_eq, Registry.isReserved_eq, h.config_eq]

theorem generatedName_eq (h : Akin r r') : r'.generatedName = r.generatedName := by
  funext kind
  rw [Registry.generatedName_eq, Registry.generatedName_eq, h.config_eq, h.anonymousCount_eq]

theorem isNamed_eq (h : Akin r r') : r'.isNamed = r.isNamed :=
  funext ((h.agree TypeEntry.Alike.isAnonymous_eq).any_eq not)

end Akin

/-! ## Members -/

/-- A member is looked up by string as one whose name the string has. -/
theorem memberCalled?_eq (r : Registry) (type : Handle) (label : String) :
    r.memberCalled? type label = (r.resolutionOrder type).findSome? fun owner =>
      ((r.membersOf owner).find? fun m => r.names.get? label == some m.name).map (⟨owner, ·⟩) := by
  rw [memberCalled?]
  cases hget : r.names.get? label with
  | none =>
    symm
    simp [List.findSome?_eq_none_iff]
  | some n =>
    rw [Option.bind_some, Catalog.inForce?]
    congr 1
    funext owner
    rw [ownMember?, membersOf]
    have hname (m : Member) : (some n == some m.name) = (m.name == n) := by
      rw [Bool.eq_iff_iff, beq_iff_eq, beq_iff_eq, Option.some.injEq]
      exact eq_comm
    simp only [hname]
    cases r.typeAt? owner with
    | none => rfl
    | some t => rfl

theorem Akin.memberCalled? (h : Akin r r') (type : Handle) (label : String) :
    Option.Rel (OwnedMember.Alike (r.names.Matches r'.names)) (r.memberCalled? type label)
      (r'.memberCalled? type label) := by
  rw [memberCalled?_eq, memberCalled?_eq, h.resolutionOrder_eq]
  refine rel_findSome? _ fun owner => ?_
  have hfound : Option.Rel (Member.Alike (r.names.Matches r'.names))
      ((r.membersOf owner).find? fun m => r.names.get? label == some m.name)
      ((r'.membersOf owner).find? fun m => r'.names.get? label == some m.name) := by
    refine rel_find? (h.membersOf owner) fun {m m'} hm => ?_
    rw [Bool.eq_iff_iff, beq_iff_eq, beq_iff_eq]
    exact hm.name.get?_iff
  rcases cases_rel hfound with ⟨hm, hm'⟩ | ⟨m, m', hm, hm', halike⟩
  · rw [hm, hm']
    exact .none
  · rw [hm, hm']
    exact .some ⟨rfl, halike⟩

theorem Akin.can_eq (h : Akin r r') : r'.can = r.can := by
  funext type label
  exact (isSome_eq_of_rel (h.memberCalled? type label)).symm

theorem Akin.ownerOf?_eq (h : Akin r r') : r'.ownerOf? = r.ownerOf? := by
  funext type label
  exact (map_eq_of_rel (h.memberCalled? type label) fun hm => hm.owner_eq.symm).symm

/-! ## Types -/

namespace Twin

theorem resolve?_eq (h : Twin r r') : r'.resolve? = r.resolve? := by
  funext q
  apply Option.ext
  intro k
  rw [h.right.resolve?_iff, h.left.resolve?_iff, h.akin.isNamed_eq, h.akin.typeName?_eq]

theorem symbol_eq (h : Twin r r') {n n' : Name} (hn : r.names.Matches r'.names n n') :
    r'.symbols.resolve? n' = r.symbols.resolve? n := by
  apply Option.ext
  intro k
  rw [h.right.bound.resolve?_iff, h.left.bound.resolve?_iff]
  rcases cases_rel (h.akin.typeAt? k) with ⟨ht, ht'⟩ | ⟨t, t', ht, ht', halike⟩
  · simp [ht, ht']
  · have hname : t'.name = n' ↔ t.name = n :=
      (Relator.rel_eq (Interner.biUnique_matches _ _) halike.name hn).symm
    simp [ht, ht', halike.isAnonymous_eq, hname]

theorem size_symbols_eq (h : Twin r r') : r'.symbols.size = r.symbols.size := by
  rw [h.right.bound.size_eq, h.left.bound.size_eq]
  exact (countP_eq_of_rel h.akin.types fun ht => congrArg not ht.isAnonymous_eq.symm).symm

end Twin

/-! ## Type tests -/

theorem Akin.helpers_eq (h : Akin r r') : r'.helpers = r.helpers := by
  rw [helpers, helpers]
  refine (list_map_eq_of_rel (R := TypeEntry.Alike (r.names.Matches r'.names))
    (List.rel_filter ?_ h.types) fun ht => ?_).symm
  · intro t t' ht
    dsimp only
    rw [ht.isAnonymous_eq]
  · rw [helper, helper, TypeEntry.test, TypeEntry.test, ht.isRole_eq, ht.handle_eq,
      ht.name.lookup_eq]

theorem Akin.build_eq (h : Akin r r') : HelperTable.build r' = HelperTable.build r := by
  rw [HelperTable.build, HelperTable.build, h.helpers_eq]

theorem Akin.check_eq (h : Akin r r') (test : TypeTest) (subject : Handle) :
    test.check r'.toCatalog subject = test.check r.toCatalog subject := by
  cases test with
  | isA target => exact h.sameGraph.parent.isA_eq subject target
  | does target => exact h.sameGraph.does_eq subject target

theorem Akin.check?_eq (h : Akin r r') (table : HelperTable) (helper : String) (subject : Handle) :
    table.check? r'.toCatalog helper subject = table.check? r.toCatalog helper subject := by
  rw [HelperTable.check?, HelperTable.check?]
  cases table.get? helper with
  | none => rfl
  | some test => exact congrArg some (h.check_eq test subject)

theorem Twin.testNamed?_eq (h : Twin r r') : r'.testNamed? = r.testNamed? := by
  funext qualified
  rw [testNamed?, testNamed?, h.resolve?_eq]
  congr 1
  funext type
  refine (map_eq_of_rel (h.akin.typeAt? type) fun ht => ?_).symm
  rw [TypeEntry.test, TypeEntry.test, ht.isRole_eq]

end Registry

end ObjectSystem
