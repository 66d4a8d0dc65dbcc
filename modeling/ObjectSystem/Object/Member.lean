import ObjectSystem.Failure
import ObjectSystem.Object.Value

/-!
# Members

A type declares members: attributes, which its instances store, and methods, which they run.
-/

namespace ObjectSystem

abbrev MethodBody := Instance → List Value → Except CallError Value

structure Attribute where
  /-- There must be a value or a default. -/
  required : Bool := false
  default : Option Value := none

inductive MemberKind where
  | stored (rules : Attribute)
  | method (body : MethodBody)

def MemberKind.attribute? : MemberKind → Option Attribute
  | .stored rules => some rules
  | .method _ => none

structure Member where
  name : Name
  kind : MemberKind

/-- A member as it is written, before its name is interned. -/
structure WrittenMember where
  name : String
  kind : MemberKind

namespace WrittenMember

def optional (name : String) : WrittenMember := ⟨name, .stored {}⟩

def required (name : String) : WrittenMember := ⟨name, .stored ⟨true, none⟩⟩

def withDefault (name : String) (value : Value) : WrittenMember :=
  ⟨name, .stored ⟨true, some value⟩⟩

def method (name : String) (body : MethodBody) : WrittenMember := ⟨name, .method body⟩

end WrittenMember

/-- A member as it is given to an edit: under a name, whether or not an interner has issued it, or
as it is written, to be interned first. -/
inductive GivenMember where
  | named (m : Member)
  | written (m : WrittenMember)

instance : Coe WrittenMember GivenMember := ⟨.written⟩

instance : Coe (List WrittenMember) (List GivenMember) := ⟨List.map .written⟩

@[ext]
structure MemberIndex where
  place? : Name → Option Nat

namespace MemberIndex

def empty : MemberIndex := ⟨fun _ => none⟩

def insert (index : MemberIndex) (name : Name) (place : Nat) : MemberIndex :=
  ⟨fun n => if n = name then some place else index.place? n⟩

def erase (index : MemberIndex) (name : Name) : MemberIndex :=
  ⟨fun n => if n = name then none else index.place? n⟩

def ofMembers (members : List Member) : MemberIndex :=
  members.zipIdx.foldl (fun index (m, place) => index.insert m.name place) empty

end MemberIndex

end ObjectSystem
