import ObjectSystem.Catalog.Conflict
import ObjectSystem.Registry.Basic

/-!
# Changes of the type graph

Each change is checked before it takes effect: what comes out is the next registry, or the reason
why there is none. Nothing is interned here.
-/

namespace ObjectSystem

namespace Registry

def unknownType (r : Registry) (h : Handle) : EditError := .unknownType (r.display h)

def typeSealed (r : Registry) (h : Handle) : EditError := .typeSealed (r.display h)

def wrongKind (r : Registry) (h : Handle) (expected : Kind) : EditError :=
  .wrongKind (r.display h) expected

/-- Accepts a catalog as the next one if no class that depends on the type has a conflict in it. -/
def checked (r : Registry) (type : Handle) (next : Catalog) : Except EditError Registry :=
  match next.firstConflict? type with
  | none => .ok { r with toCatalog := next }
  | some (cls, conflict) =>
    .error (.memberConflict (r.display cls) (r.names.lookup conflict.member)
      (conflict.roles.map r.display))

/-- Makes one class the parent of another, unless that would make it an ancestor of itself. -/
def extend (r : Registry) (type parent : Handle) : Except EditError Registry := do
  let some child := r.typeAt? type | throw (r.unknownType type)
  if child.isRole then throw (.roleExtends (r.display type) (r.display parent))
  if child.isSealed then throw (r.typeSealed type)
  if let some existing := child.parent then
    throw (.secondParent (r.display type) (r.display existing) (r.display parent))
  let some parentEntry := r.typeAt? parent | throw (r.unknownType parent)
  if parentEntry.isRole then throw (r.wrongKind parent .cls)
  if type ∈ r.lineage parent then
    throw (.inheritanceCycle (r.display type) (r.display parent))
  return { r with toCatalog := r.addParent type parent }

/-- The catalog in which a type consumes one more role, before its conflicts are looked for. There
is none to look at if the type consumes the role already. -/
def proposeRole (r : Registry) (type role : Handle) : Except EditError (Option Catalog) := do
  let some consumer := r.typeAt? type | throw (r.unknownType type)
  let some roleEntry := r.typeAt? role | throw (r.unknownType role)
  if type = role then throw (.consumesItself (r.display type))
  if !roleEntry.isRole then throw (r.wrongKind role .role)
  if consumer.isSealed then throw (r.typeSealed type)
  if role ∈ consumer.roles then return none
  if consumer.isRole && decide (type ∈ r.reachableRoles role) then
    throw (.roleCycle (r.display type) (r.display role))
  return some (r.addRole type role)

/-- Lets a type consume a role. Consuming it again changes nothing. -/
def consume (r : Registry) (type role : Handle) : Except EditError Registry := do
  match ← r.proposeRole type role with
  | none => return r
  | some next => r.checked type next

def proposeMember (r : Registry) (type : Handle) (m : Member) : Except EditError Catalog := do
  let some entry := r.typeAt? type | throw (r.unknownType type)
  if entry.isSealed then throw (r.typeSealed type)
  if entry.declares m.name then
    throw (.memberRepeated (r.display type) (r.names.lookup m.name))
  return r.addMember type m

def insertMember (r : Registry) (type : Handle) (m : Member) : Except EditError Registry := do
  r.checked type (← r.proposeMember type m)

def repeatedAfter? (seen : List Name) : List Member → Option Member
  | [] => none
  | m :: rest => if m.name ∈ seen then some m else repeatedAfter? (m.name :: seen) rest

def repeatedMember? (members : List Member) : Option Member := repeatedAfter? [] members

def newEntry (r : Registry) (name : Name) (isAnonymous : Bool) (form : Form)
    (members : List Member) : TypeEntry :=
  { handle := r.nextHandle, name, isAnonymous, form, members }

/-- Adds a type at the end and binds its name, unless the type is anonymous. -/
def place (r : Registry) (entry : TypeEntry) : Except EditError Registry :=
  if entry.isAnonymous then .ok { r with toCatalog := r.pushAnonymous entry }
  else match r.symbols.register entry.name entry.handle with
  | .ok symbols => .ok { r with toCatalog := r.push entry symbols }
  | .error _ => .error (.nameTaken (r.names.lookup entry.name))

def insertType (r : Registry) (name : Name) (isAnonymous : Bool) (form : Form)
    (members : List Member) : Except EditError Registry := do
  if let some twice := repeatedMember? members then
    throw (.memberRepeated (r.names.lookup name) (r.names.lookup twice.name))
  let entry := r.newEntry name isAnonymous form members
  if let some parent := entry.parent then
    let some parentEntry := r.typeAt? parent | throw (r.unknownType parent)
    if parentEntry.isRole then throw (r.wrongKind parent .cls)
  r.place entry

def isReserved (r : Registry) (qualified : String) : Bool :=
  (r.config.generatedSpace ++ separator).toList.isPrefixOf qualified.toList

def generatedName (r : Registry) (kind : Kind) : String :=
  let label := match kind with
    | .cls => "Class"
    | .role => "Role"
  r.config.generatedSpace ++ separator ++ label ++ toString (r.anonymousCount + 1)

end Registry

end ObjectSystem
