import ObjectSystem.Object.Member

/-!
# Stock method bodies

Small bodies that methods are made of: they answer with a constant, with a field, with an argument
or with a fact about the instance. None looks at more of the instance than its class and its fields
by string.
-/

namespace ObjectSystem.Method

def constant (value : Value) : MethodBody := fun _ _ => .ok value

def reading (label : String) : MethodBody := fun this _ => .ok ((this.get? label).getD .nil)

def argument (index : Nat) : MethodBody := fun _ args => .ok (args[index]?.getD .nil)

def arguments : MethodBody := fun _ args => .ok (.list args)

def failing (message : String) : MethodBody := fun _ _ => .error (.failed message)

/-- The string in the field `name`, and a question mark if there is none. -/
def calledName (this : Instance) : String := ((this.get? "name").bind Value.str?).getD "?"

def greeting : MethodBody := fun this _ => .ok (.str s!"hello, {calledName this}")

/-- Says the name and how often: the first argument if it is an integer, else once. -/
def speaking : MethodBody := fun this args =>
  let times := (args.head?.bind Value.int?).getD 1
  .ok (.str s!"{calledName this} x{times.toInt}")

def integerSum : MethodBody := fun _ args =>
  .ok (.int ((args.filterMap Value.int?).foldl (· + ·) 0))

def nilCount : MethodBody := fun _ args => .ok (.int (Int64.ofNat (args.countP Value.isNil)))

def itself : MethodBody := fun this _ => .ok (.object this)

def fieldCount : MethodBody := fun this _ => .ok (.int (Int64.ofNat this.size))

def hasNoFields : MethodBody := fun this _ => .ok (.bool this.isEmpty)

def typeIndex : MethodBody := fun this _ => .ok (.int (Int64.ofNat this.type.index))

def peeking (label : String) : MethodBody := fun _ args =>
  match args.head?.bind Value.object? with
  | some other => .ok ((other.get? label).getD .nil)
  | none => .error (.failed "not an object")

end ObjectSystem.Method
