import ObjectSystem.Registry.Change
import Std.Data.String.ToNat

/-!
# Generated names

The names of anonymous types are numbered and lie in a namespace that other names may not use. So a
generated name is never that of a named type (`reserves_generatedName`), and the number can be read
off it (`generatedName_injective`), whatever the namespace is: it may be empty, end in a colon or
hold separators itself.
-/

namespace ObjectSystem

namespace Config

def generatedWord : Kind → String
  | .cls => "Class"
  | .role => "Role"

def generatedName (config : Config) (kind : Kind) (number : Nat) : String :=
  config.generatedSpace ++ separator ++ generatedWord kind ++ toString number

/-- The name lies in the namespace of generated names. -/
def reserves (config : Config) (qualified : String) : Bool :=
  (config.generatedSpace ++ separator).toList.isPrefixOf qualified.toList

theorem reserves_generatedName (config : Config) (kind : Kind) (number : Nat) :
    config.reserves (config.generatedName kind number) := by
  rw [reserves, List.isPrefixOf_iff_prefix]
  refine ⟨(generatedWord kind ++ toString number).toList, ?_⟩
  rw [← String.toList_append, ← String.append_assoc, generatedName]

theorem reserves_empty (config : Config) : config.reserves "" = false := by
  rw [Bool.eq_false_iff, ne_eq, reserves, List.isPrefixOf_iff_prefix]
  simp [separator]

theorem generatedName_injective {config : Config} {kind kind' : Kind} {number number' : Nat}
    (h : config.generatedName kind number = config.generatedName kind' number') :
    number = number' := by
  simp only [generatedName, String.append_assoc, String.append_right_inj] at h
  have hwords : kind = kind' := by
    -- the two words differ in their first letter
    have hfirst := congrArg (List.head? ∘ String.toList) h
    cases kind <;> cases kind' <;> simp [generatedWord] at hfirst ⊢
  subst hwords
  exact Nat.repr_injective ((String.append_right_inj _).mp h)

end Config

namespace Registry

theorem isReserved_eq (r : Registry) (qualified : String) :
    r.isReserved qualified = r.config.reserves qualified := rfl

theorem generatedName_eq (r : Registry) (kind : Kind) :
    r.generatedName kind = r.config.generatedName kind (r.anonymousCount + 1) := by
  cases kind <;> rfl

end Registry

end ObjectSystem
