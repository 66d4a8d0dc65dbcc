import ObjectSystem.Block.Basic
import ObjectSystem.Registry.Editing

/-!
# Building declaration blocks

A block is built in a scope: first the type itself with its members and its parent, then the nested
blocks, and last the roles it consumes, which nested blocks may therefore declare. Inside a class
the scope of nested blocks is that of the class.

`declare` builds one block and `declareAll` several, which may refer to earlier ones; each is all or
nothing.
-/

namespace ObjectSystem

namespace Editing

def qualify (scope : Scope) (written : String) : Editing String :=
  match scope.qualify written with
  | .ok qualified => return qualified
  | .error cause => throw (.invalidName cause)

def lookUp (scope : Scope) (written : String) : Editing Handle := do
  let qualified ← qualify scope written
  match (← get).resolve? qualified with
  | some h => return h
  | none => throw (.unknownType qualified)

def parentHandle (scope : Scope) (ref : ParentRef) : Editing Handle := do
  let h ← match ref with
    | .named written => lookUp scope written
    | .handle h => pure h
  let r ← get
  if r.isRole h then throw (r.wrongKind h .cls)
  return h

def consumeUse (scope : Scope) (type : Handle) : RoleUse → Editing Unit
  | .named written => do consume type (← lookUp scope written)
  | .tag written => do
    let _ ← tag type (← qualify scope written)
  | .handle role => consume type role

/-- Declares the type of a block, without its roles and nested blocks. Only classes can be abstract
or have a parent. -/
def declareHead (scope : Scope) (kind : Kind) (name : Option String) (isAbstract : Bool)
    (parent : Option ParentRef) (members : List WrittenMember) : Editing Handle := do
  let qualified ← name.mapM (qualify scope)
  if kind = .role && isAbstract then
    throw (.wrongKind (qualified.getD "anonymous role") .cls)
  let parent ← parent.mapM (parentHandle scope)
  let members ← members.mapM internMember
  match kind with
  | .cls => declareClass qualified parent isAbstract members
  | .role =>
    let role ← declareRole qualified members
    if let some p := parent then extend role p
    return role

/-- The scope of the blocks nested in the block of a type. -/
def innerScope (scope : Scope) (kind : Kind) (type : Handle) (r : Registry) : Scope :=
  match kind with
  | .cls => scope.within ((r.typeName? type).getD "")
  | .role => scope

end Editing

mutual

def Block.build (scope : Scope) : Block → Editing Handle
  | ⟨kind, name, isAbstract, parent, roles, members, nested⟩ => do
    let type ← Editing.declareHead scope kind name isAbstract parent members
    let inner := Editing.innerScope scope kind type (← get)
    Block.buildEach inner nested
    roles.forM (Editing.consumeUse scope type)
    return type

def Block.buildEach (scope : Scope) : List Block → Editing Unit
  | [] => return
  | b :: rest => do
    let _ ← b.build scope
    Block.buildEach scope rest

end

namespace Editing

/-- Builds a block with all that is nested in it, or nothing. -/
def declare (scope : Scope) (b : Block) : Editing Handle := atomically (b.build scope)

def declareAll (scope : Scope) (bs : List Block) : Editing (List Handle) :=
  atomically (bs.mapM (·.build scope))

end Editing

end ObjectSystem
