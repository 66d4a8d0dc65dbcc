import ObjectSystem.Object.Member

/-!
# Types

The nodes of the type graph. A type is a class, which may be abstract and may extend another class,
or a role, which may have come into being as a mere tag. Both consume roles and declare members.
-/

namespace ObjectSystem

inductive Form where
  | cls (isAbstract : Bool) (parent : Option Handle)
  | role (isTag : Bool)
  deriving DecidableEq, Repr

def Form.kind : Form → Kind
  | .cls .. => .cls
  | .role .. => .role

structure TypeEntry where
  handle : Handle
  /-- Its qualified name, or the one generated for it. -/
  name : Name
  isAnonymous : Bool
  form : Form
  /-- The roles it consumes itself, in the order in which it came to consume them. -/
  roles : List Handle := []
  members : List Member := []
  index : MemberIndex := .ofMembers members
  isSealed : Bool := false

namespace TypeEntry

def parent (t : TypeEntry) : Option Handle :=
  match t.form with
  | .cls _ parent => parent
  | .role _ => none

def isClass (t : TypeEntry) : Bool := t.form.kind = .cls

def isRole (t : TypeEntry) : Bool := t.form.kind = .role

def isAbstract (t : TypeEntry) : Bool :=
  match t.form with
  | .cls isAbstract _ => isAbstract
  | .role _ => false

/-- It is a role that was declared by being consumed. -/
def isTag (t : TypeEntry) : Bool :=
  match t.form with
  | .cls .. => false
  | .role isTag => isTag

def member? (t : TypeEntry) (name : Name) : Option Member := t.members.find? (·.name == name)

def declares (t : TypeEntry) (name : Name) : Bool := (t.member? name).isSome

theorem declares_eq_any (t : TypeEntry) (name : Name) :
    t.declares name = t.members.any (·.name == name) := List.isSome_find?

theorem isRole_eq_false {t : TypeEntry} (h : t.isClass) : t.isRole = false := by
  rw [isClass, decide_eq_true_eq] at h
  rw [isRole, h]
  rfl

theorem isClass_of_parent {t : TypeEntry} {p : Handle} (hp : t.parent = some p) : t.isClass := by
  unfold parent at hp
  split at hp
  · rename_i hform
    simp [isClass, hform, Form.kind]
  · cases hp

/-- The type with a parent. A role stays as it is. -/
def withParent (t : TypeEntry) (parent : Handle) : TypeEntry :=
  match t.form with
  | .cls isAbstract _ => { t with form := .cls isAbstract (some parent) }
  | .role _ => t

theorem parent_withParent {t : TypeEntry} {parent : Handle} (hclass : t.isClass) :
    (t.withParent parent).parent = some parent := by
  unfold withParent
  split
  · rfl
  · rename_i hform
    simp [isClass, hform, Form.kind] at hclass

@[simp] theorem handle_withParent (t : TypeEntry) (parent : Handle) :
    (t.withParent parent).handle = t.handle := by
  unfold withParent
  split <;> rfl

@[simp] theorem name_withParent (t : TypeEntry) (parent : Handle) :
    (t.withParent parent).name = t.name := by
  unfold withParent
  split <;> rfl

@[simp] theorem kind_withParent (t : TypeEntry) (parent : Handle) :
    (t.withParent parent).form.kind = t.form.kind := by
  unfold withParent
  split
  · rename_i hform
    rw [hform]
    rfl
  · rfl

@[simp] theorem roles_withParent (t : TypeEntry) (parent : Handle) :
    (t.withParent parent).roles = t.roles := by
  unfold withParent
  split <;> rfl

@[simp] theorem members_withParent (t : TypeEntry) (parent : Handle) :
    (t.withParent parent).members = t.members := by
  unfold withParent
  split <;> rfl

@[simp] theorem index_withParent (t : TypeEntry) (parent : Handle) :
    (t.withParent parent).index = t.index := by
  unfold withParent
  split <;> rfl

@[simp] theorem isSealed_withParent (t : TypeEntry) (parent : Handle) :
    (t.withParent parent).isSealed = t.isSealed := by
  unfold withParent
  split <;> rfl

def withRole (t : TypeEntry) (role : Handle) : TypeEntry := { t with roles := t.roles ++ [role] }

def withMember (t : TypeEntry) (m : Member) : TypeEntry :=
  { t with
    members := t.members ++ [m]
    index := t.index.insert m.name t.members.length }

def asSealed (t : TypeEntry) : TypeEntry := { t with isSealed := true }

end TypeEntry

end ObjectSystem
