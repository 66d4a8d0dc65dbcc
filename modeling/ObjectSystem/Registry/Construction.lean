import ObjectSystem.Catalog.Sealing
import ObjectSystem.Registry.Basic

/-!
# Making instances and calling their members

An instance is made of the attributes that are in force for its class: each takes the last value
supplied for it, or else its default. Making it seals the class with everything in its resolution
order. Members are called by string: a method runs its body, an attribute answers with what the
instance stores.
-/

namespace ObjectSystem.Registry

def supplied? (r : Registry) (fields : List (String × Value)) (name : Name) : Option Value :=
  (fields.reverse.find? fun field => r.names.get? field.1 == some name).map Prod.snd

/-- The value that an attribute gets: the one supplied, or else its default. -/
def initial? (r : Registry) (fields : List (String × Value)) (name : Name) (rules : Attribute) :
    Option Value :=
  (r.supplied? fields name).or rules.default

/-- The keys that stand for none of the attributes, in the order in which they are written. -/
def unknownKeys (r : Registry) (attributes : List (Name × Attribute))
    (fields : List (String × Value)) : List String :=
  (fields.map Prod.fst).filter fun key =>
    !attributes.any fun (name, _) => r.names.get? key == some name

/-- The required attributes that get no value, in resolution order. -/
def missingAttributes (r : Registry) (attributes : List (Name × Attribute))
    (fields : List (String × Value)) : List String :=
  (attributes.filter fun (name, rules) =>
    rules.required && (r.initial? fields name rules).isNone).map (r.names.lookup ·.1)

def initialFields (r : Registry) (attributes : List (Name × Attribute))
    (fields : List (String × Value)) : List (Field Value) :=
  attributes.filterMap fun (name, rules) =>
    (r.initial? fields name rules).map fun value => ⟨name, r.names.lookup name, value⟩

def construct (r : Registry) (type : Handle) (fields : List (String × Value)) :
    Except ConstructionError Instance := do
  let some entry := r.typeAt? type | throw (.unknownHandle type)
  if entry.isRole then throw (.roleInstance (r.display type))
  if entry.isAbstract then throw (.abstractClass (r.display type))
  let attributes := r.attributesInForce type
  let unknown := r.unknownKeys attributes fields
  if r.config.rejectsUnknownKeys && !unknown.isEmpty then
    throw (.unknownAttributes (r.display type) unknown)
  let missing := r.missingAttributes attributes fields
  if !missing.isEmpty then throw (.missingAttributes (r.display type) missing)
  return ⟨type, r.initialFields attributes fields⟩

/-- Makes an instance and seals its class and all that the class depends on. -/
def instantiate (r : Registry) (type : Handle) (fields : List (String × Value)) :
    Except ConstructionError (Instance × Registry) := do
  return (← r.construct type fields, { r with toCatalog := r.sealType type })

/-- Calls a member of an instance. Attributes take no arguments; one that is not stored is `nil`. -/
def call (r : Registry) (this : Instance) (method : String) (args : List Value) :
    Except CallError Value :=
  match r.memberCalled? this.type method with
  | none => .error (.noMember (r.display this.type) method)
  | some found =>
    match found.member.kind with
    | .method body => body this args
    | .stored _ =>
      if args.isEmpty then .ok ((this.field? found.member.name).getD .nil)
      else .error (.attributeWithArguments method)

end ObjectSystem.Registry
