import ObjectSystem.Object.Member

/-!
# Declaration blocks

A block is a declaration as it is written: a class or a role, with its members, what it extends and
consumes, and the blocks nested in it. Names stay as written until the block is built in a scope.
-/

namespace ObjectSystem

inductive ParentRef where
  | named (written : String)
  | handle (h : Handle)
  deriving DecidableEq, Repr

inductive RoleUse where
  /-- By the written name of a role that exists. -/
  | named (written : String)
  /-- By the written name of a role that is declared as a tag if it does not exist. -/
  | tag (written : String)
  | handle (h : Handle)
  deriving DecidableEq, Repr

namespace RoleUse

/-- Reads a written role: a question mark at the end makes it a tag. -/
def ofWritten (written : String) : RoleUse :=
  if written.toList.getLast? = some '?' then .tag (String.ofList written.toList.dropLast)
  else .named written

def text : RoleUse → String
  | .named written => written
  | .tag written => written ++ "?"
  | .handle h => h.text

end RoleUse

/-- A block with the blocks nested in it. A block without a name is anonymous. -/
structure Block where
  kind : Kind
  name : Option String := none
  isAbstract : Bool := false
  parent : Option ParentRef := none
  roles : List RoleUse := []
  members : List WrittenMember := []
  nested : List Block := []

instance : Inhabited Block := ⟨{ kind := .cls }⟩

end ObjectSystem
