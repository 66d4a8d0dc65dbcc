/-!
# Qualified names

A qualified name is a path of segments joined by `::`. A written name is completed by the
scope it stands in:

* `::Order` is absolute: what follows the separator is the qualified name;
* `+Line` belongs to the enclosing class, whose full name comes in front;
* `Order` belongs to the package of the scope, if there is one.
-/

namespace ObjectSystem

def separator : String := "::"

inductive NamingError where
  /-- Nothing is left of the name when its mark is taken off. -/
  | empty (written : String)
  | noEnclosingClass (written : String)
  /-- The name lies in the namespace of generated names. -/
  | reserved (written : String) (space : String)
  deriving DecidableEq, Repr

def NamingError.message : NamingError → String
  | .empty written => s!"empty type name `{written}`"
  | .noEnclosingClass written =>
    s!"`{written}` is relative to an enclosing class, but there is none"
  | .reserved written space => s!"`{written}` is inside the reserved namespace `{space}`"

structure Scope where
  /-- What plain names are put under; empty at the root. -/
  package : String := ""
  /-- The full name of the nearest enclosing class. -/
  enclosingClass : Option String := none
  deriving DecidableEq, Repr

namespace Scope

def root : Scope := {}

/-- The scope inside a class: only names relative to the class change their meaning. -/
def within (s : Scope) (fullName : String) : Scope :=
  { s with enclosingClass := some fullName }

def join (outer inner : String) : String := outer ++ separator ++ inner

def qualify (s : Scope) (written : String) : Except NamingError String :=
  match written.toList with
  | ':' :: ':' :: body =>
    if body.isEmpty then .error (.empty written) else .ok (String.ofList body)
  | '+' :: body =>
    if body.isEmpty then .error (.empty written)
    else match s.enclosingClass with
      | none => .error (.noEnclosingClass written)
      | some outer => .ok (join outer (String.ofList body))
  | [] => .error (.empty written)
  | _ :: _ => .ok (if s.package.isEmpty then written else join s.package written)

end Scope

/-- What follows the rightmost separator, if there is one. Separators may overlap. -/
def afterLastSeparator? : List Char → Option (List Char)
  | [] => none
  | c :: rest =>
    match afterLastSeparator? rest with
    | some tail => some tail
    | none => if c = ':' ∧ rest.head? = some ':' then some rest.tail else none

def lastSegment (qualified : String) : String :=
  match afterLastSeparator? qualified.toList with
  | some tail => String.ofList tail
  | none => qualified

end ObjectSystem
