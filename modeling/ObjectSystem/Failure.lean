import ObjectSystem.Handle
import ObjectSystem.QualifiedName

/-!
# Failures

Three families, by what was asked for: changing the type graph, making an instance, calling a
member. Every failure has a message and a stable code; the first digit of the code is the family.
Types and members appear in failures by the name they had when the failure arose, so that a
failure can be read without the registry that raised it.
-/

namespace ObjectSystem

inductive EditError where
  | nameTaken (name : String)
  /-- The role to be consumed consumes the consumer. -/
  | roleCycle (consumer role : String)
  | consumesItself (name : String)
  | secondParent (cls existing requested : String)
  | roleExtends (role parent : String)
  | wrongKind (name : String) (expected : Kind)
  /-- Several roles of the class provide the member and the class does not settle it. -/
  | memberConflict (cls member : String) (roles : List String)
  | typeSealed (name : String)
  | inheritanceCycle (cls parent : String)
  | memberRepeated (name member : String)
  | unknownType (name : String)
  | invalidName (cause : NamingError)
  deriving DecidableEq, Repr

namespace EditError

def code : EditError → String
  | .nameTaken .. => "E1001"
  | .roleCycle .. => "E1002"
  | .consumesItself .. => "E1003"
  | .secondParent .. => "E1004"
  | .roleExtends .. => "E1005"
  | .wrongKind .. => "E1006"
  | .memberConflict .. => "E1007"
  | .typeSealed .. => "E1008"
  | .inheritanceCycle .. => "E1009"
  | .memberRepeated .. => "E1010"
  | .unknownType .. => "E1011"
  | .invalidName .. => "E1012"

def message : EditError → String
  | .nameTaken name => s!"type `{name}` is already declared"
  | .roleCycle consumer role =>
    s!"role `{role}` already consumes `{consumer}`; consuming it back would form a cycle"
  | .consumesItself name => s!"`{name}` cannot consume itself"
  | .secondParent cls existing requested =>
    s!"class `{cls}` already extends `{existing}`; cannot also extend `{requested}`"
  | .roleExtends role parent => s!"`{role}` is a role; roles cannot extend `{parent}`"
  | .wrongKind name expected => s!"`{name}` is not a {expected.word}"
  | .memberConflict cls member roles =>
    s!"class `{cls}` gets member `{member}` from several roles (" ++ ", ".intercalate roles ++
      "); override it in the class"
  | .typeSealed name => s!"`{name}` is sealed; its structure cannot change after instantiation"
  | .inheritanceCycle cls parent =>
    s!"class `{cls}` cannot extend `{parent}`: `{parent}` already inherits from it"
  | .memberRepeated name member => s!"member `{member}` is declared twice on `{name}`"
  | .unknownType name => s!"unknown type `{name}`"
  | .invalidName cause => cause.message

end EditError

inductive ConstructionError where
  | abstractClass (name : String)
  | roleInstance (name : String)
  /-- Required attributes that were given no value, in resolution order. -/
  | missingAttributes (name : String) (missing : List String)
  /-- Keys that name no attribute, in the order in which they were written. -/
  | unknownAttributes (name : String) (unknown : List String)
  | unknownHandle (type : Handle)
  deriving DecidableEq, Repr

namespace ConstructionError

def code : ConstructionError → String
  | .abstractClass .. => "E2001"
  | .roleInstance .. => "E2002"
  | .missingAttributes .. => "E2003"
  | .unknownAttributes .. => "E2004"
  | .unknownHandle .. => "E2005"

def attributeNoun (names : List String) : String :=
  if names.length = 1 then "attribute" else "attributes"

def message : ConstructionError → String
  | .abstractClass name => s!"cannot instantiate abstract class `{name}`"
  | .roleInstance name => s!"cannot instantiate role `{name}`"
  | .missingAttributes name missing =>
    s!"missing required {attributeNoun missing} for `{name}`: " ++ ", ".intercalate missing
  | .unknownAttributes name unknown =>
    s!"unknown {attributeNoun unknown} for `{name}`: " ++ ", ".intercalate unknown
  | .unknownHandle type => s!"unknown type handle {type.index}"

end ConstructionError

inductive CallError where
  | noMember (typeName method : String)
  /-- An attribute is read by calling it without arguments. -/
  | attributeWithArguments (name : String)
  /-- The body of the method reports a failure of its own. -/
  | failed (message : String)
  deriving DecidableEq, Repr

namespace CallError

def code : CallError → String
  | .noMember .. => "E3001"
  | .attributeWithArguments .. => "E3002"
  | .failed .. => "E3003"

def message : CallError → String
  | .noMember typeName method => s!"`{typeName}` has no method `{method}`"
  | .attributeWithArguments name =>
    s!"attribute `{name}` is read-only; its accessor takes no arguments"
  | .failed message => s!"method failed: {message}"

end CallError

inductive Failure where
  | edit (cause : EditError)
  | construction (cause : ConstructionError)
  | call (cause : CallError)
  deriving DecidableEq, Repr

namespace Failure

def code : Failure → String
  | .edit cause => cause.code
  | .construction cause => cause.code
  | .call cause => cause.code

def message : Failure → String
  | .edit cause => cause.message
  | .construction cause => cause.message
  | .call cause => cause.message

/-- The failure is the refusal of an edit, which ends the block of edits it stands in. -/
def isEdit : Failure → Bool
  | .edit _ => true
  | _ => false

theorem isEdit_iff_code (f : Failure) :
    f.isEdit = true ↔ f.code.toList.take 2 = ['E', '1'] := by
  cases f with
  | edit cause => cases cause <;> simp [isEdit, code, EditError.code]
  | construction cause => cases cause <;> simp [isEdit, code, ConstructionError.code]
  | call cause => cases cause <;> simp [isEdit, code, CallError.code]

end Failure

end ObjectSystem
