import ObjectSystem.Block.Build

/-!
# Edits as data

An `Edit` is a request to change a registry, and a `Reply` what comes back when it is granted.
Members may be given under names that are interned already, or under no string's name at all; those
that are given as they are written are interned before anything else is done.
-/

namespace ObjectSystem

/-- A request to change the type graph. Types without a name are anonymous. -/
inductive Edit where
  | declareClass (name : Option String) (parent : Option Handle) (isAbstract : Bool)
      (members : List GivenMember)
  | declareRole (name : Option String) (members : List GivenMember)
  | extend (type parent : Handle)
  | consume (type role : Handle)
  | addMember (type : Handle) (member : GivenMember)
  | tag (type : Handle) (qualified : String)
  | declare (scope : Scope) (block : Block)
  | declareAll (scope : Scope) (blocks : List Block)

inductive Reply where
  | done
  | handle (h : Handle)
  | handles (hs : List Handle)
  deriving DecidableEq, Repr

def Edit.run : Edit → Editing Reply
  | .declareClass name parent isAbstract members => do
    let members ← members.mapM Editing.nameMember
    return .handle (← Editing.declareClass name parent isAbstract members)
  | .declareRole name members => do
    let members ← members.mapM Editing.nameMember
    return .handle (← Editing.declareRole name members)
  | .extend type parent => do
    Editing.extend type parent
    return .done
  | .consume type role => do
    Editing.consume type role
    return .done
  | .addMember type member => do
    let member ← Editing.nameMember member
    Editing.addMember type member
    return .done
  | .tag type qualified => return .handle (← Editing.tag type qualified)
  | .declare scope b => return .handle (← Editing.declare scope b)
  | .declareAll scope bs => return .handles (← Editing.declareAll scope bs)

end ObjectSystem
