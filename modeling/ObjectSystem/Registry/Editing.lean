import ObjectSystem.Registry.Change

/-!
# Edits

`Editing` puts changes of the type graph in sequence with the interning of strings: it is a
computation on a registry that may fail, in which the registry survives the failure. An edit that
fails leaves the catalog as it was, though strings may have been interned on the way.
-/

namespace ObjectSystem

/-- A computation on a registry that may fail; what it did to the registry survives the failure. -/
abbrev Editing := EStateM EditError Registry

namespace Editing

def outcome {α : Type} (act : Editing α) (r : Registry) : Except EditError α × Registry :=
  match act.run r with
  | .ok a after => (.ok a, after)
  | .error e after => (.error e, after)

def step (next : Registry → Except EditError Registry) : Editing Unit := fun r =>
  match next r with
  | .ok after => .ok () after
  | .error e => .error e r

def intern (s : String) : Editing Name := fun r =>
  let (name, names) := r.names.intern s
  .ok name { r with names }

/-- Runs the computation on a scratch copy: if it fails, only the interned strings are kept. -/
def atomically {α : Type} (act : Editing α) : Editing α := fun r =>
  match act r with
  | .ok a after => .ok a after
  | .error e after => .error e (r.keepingNames after)

def internMember (m : WrittenMember) : Editing Member := return ⟨← intern m.name, m.kind⟩

def nameMember : GivenMember → Editing Member
  | .named m => return m
  | .written m => internMember m

/-- The name under which a type is declared: the one written, or else a generated one. -/
def internTypeName (kind : Kind) : Option String → Editing Name
  | some qualified => do
    let r ← get
    if r.isReserved qualified then
      throw (.invalidName (.reserved qualified r.config.generatedSpace))
    intern qualified
  | none => do intern ((← get).generatedName kind)

def declareType (name : Option String) (form : Form) (members : List Member) :
    Editing Handle := do
  let typeName ← internTypeName form.kind name
  let handle := (← get).nextHandle
  step (·.insertType typeName name.isNone form members)
  return handle

def declareClass (name : Option String) (parent : Option Handle) (isAbstract : Bool)
    (members : List Member) : Editing Handle :=
  declareType name (.cls isAbstract parent) members

def declareRole (name : Option String) (members : List Member) : Editing Handle :=
  declareType name (.role false) members

def extend (type parent : Handle) : Editing Unit := step (·.extend type parent)

def consume (type role : Handle) : Editing Unit := step (·.consume type role)

def addMember (type : Handle) (m : Member) : Editing Unit := step (·.insertMember type m)

def declareTag (type : Handle) (qualified : String) : Editing Handle := atomically do
  let role ← declareType (some qualified) (.role true) []
  consume type role
  return role

/-- Lets a type consume the role of a name, which is declared as a tag if there is none. -/
def tag (type : Handle) (qualified : String) : Editing Handle := do
  let r ← get
  match r.resolve? qualified with
  | some role =>
    if !r.isRole role then throw (.wrongKind qualified .role)
    consume type role
    return role
  | none =>
    let some entry := r.typeAt? type | throw (r.unknownType type)
    if entry.isSealed then throw (r.typeSealed type)
    declareTag type qualified

end Editing

end ObjectSystem
