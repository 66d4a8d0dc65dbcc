import Mathlib.Data.List.Forall2
import ObjectSystem.Object.Method

/-!
# Values up to names

The fields of an instance carry the names that their labels have in one interner. What can be seen
of a value by string is what is left when these names are erased: values are alike when they are
equal then. A method body respects this when it gives alike results on alike instances and
arguments, as the stock bodies do (`Method.Stock.alike`).
-/

namespace ObjectSystem

/-! ## Erasing the names -/

mutual

/-- The value with the empty name in place of all names. -/
def Value.erased : Value → Value
  | .nil => .nil
  | .bool b => .bool b
  | .int n => .int n
  | .float x => .float x
  | .str s => .str s
  | .list items => .list (Value.erasedItems items)
  | .object ⟨type, fields⟩ => .object ⟨type, Value.erasedFields fields⟩

def Value.erasedItems : List Value → List Value
  | [] => []
  | v :: rest => v.erased :: Value.erasedItems rest

def Value.erasedFields : List (Field Value) → List (Field Value)
  | [] => []
  | ⟨_, label, value⟩ :: rest => ⟨.empty, label, value.erased⟩ :: Value.erasedFields rest

end

def Field.erased (f : Field Value) : Field Value := ⟨.empty, f.label, f.value.erased⟩

def Record.erased (o : Instance) : Instance := ⟨o.type, o.fields.map Field.erased⟩

namespace Value

theorem erasedItems_eq (items : List Value) : erasedItems items = items.map erased := by
  induction items with
  | nil => rfl
  | cons v rest ih => rw [erasedItems, ih, List.map_cons]

theorem erasedFields_eq (fields : List (Field Value)) :
    erasedFields fields = fields.map Field.erased := by
  induction fields with
  | nil => rfl
  | cons f rest ih => rw [erasedFields, ih, List.map_cons, Field.erased]

@[simp] theorem erased_list (items : List Value) :
    (list items).erased = .list (items.map erased) := by
  rw [erased, erasedItems_eq]

@[simp] theorem erased_object (o : Instance) : (object o).erased = .object o.erased := by
  obtain ⟨type, fields⟩ := o
  rw [erased, erasedFields_eq]
  rfl

theorem erased_getD {v v' : Option Value} (h : v.map erased = v'.map erased) :
    (v.getD .nil).erased = (v'.getD .nil).erased := by
  have hmap (v : Option Value) : (v.getD .nil).erased = (v.map erased).getD .nil := by
    cases v <;> rfl
  rw [hmap, h, hmap]

theorem str?_erased (v : Value) : v.erased.str? = v.str? := by cases v <;> rfl

theorem int?_erased (v : Value) : v.erased.int? = v.int? := by cases v <;> rfl

theorem isNil_erased (v : Value) : v.erased.isNil = v.isNil := by cases v <;> rfl

theorem object?_erased (v : Value) : v.erased.object? = v.object?.map Record.erased := by
  cases v with
  | object o => rw [erased_object, object?, object?, Option.map_some]
  | _ => rfl

end Value

namespace Record

variable {o o' : Instance}

theorem get?_erased (o : Instance) (label : String) :
    o.erased.get? label = (o.get? label).map Value.erased := by
  rw [get?, get?, erased, List.find?_map, Option.map_map, Option.map_map]
  rfl

theorem get?_congr (h : o.erased = o'.erased) (label : String) :
    (o.get? label).map Value.erased = (o'.get? label).map Value.erased := by
  rw [← get?_erased, h, get?_erased]

theorem type_congr (h : o.erased = o'.erased) : o.type = o'.type := by
  simp only [erased, mk.injEq] at h
  exact h.1

theorem size_congr (h : o.erased = o'.erased) : o.size = o'.size := by
  simp only [erased, mk.injEq] at h
  rw [size, size, ← List.length_map, h.2, List.length_map]

theorem isEmpty_congr (h : o.erased = o'.erased) : o.isEmpty = o'.isEmpty := by
  simp only [erased, mk.injEq] at h
  rw [isEmpty, isEmpty, ← List.isEmpty_map, h.2, List.isEmpty_map]

end Record

/-! ## Members -/

/-- The bodies give alike results on alike instances and arguments. -/
def MethodBody.Alike (body body' : MethodBody) : Prop :=
  ∀ {this this' : Instance} {args args' : List Value}, this.erased = this'.erased →
    args.map Value.erased = args'.map Value.erased →
    (body this args).map Value.erased = (body' this' args').map Value.erased

def Attribute.erased (rules : Attribute) : Attribute :=
  { rules with default := rules.default.map Value.erased }

theorem Attribute.erased_eq_iff {rules rules' : Attribute} : rules.erased = rules'.erased ↔
    rules.required = rules'.required ∧
      rules.default.map Value.erased = rules'.default.map Value.erased := by
  simp only [erased, mk.injEq]

namespace MemberKind

inductive Alike : MemberKind → MemberKind → Prop
  | stored {rules rules' : Attribute} (h : rules.erased = rules'.erased) :
      Alike (.stored rules) (.stored rules')
  | method {body body' : MethodBody} (h : MethodBody.Alike body body') :
      Alike (.method body) (.method body')

end MemberKind

structure Member.Alike (N : Name → Name → Prop) (m m' : Member) : Prop where
  name : N m.name m'.name
  kind : m.kind.Alike m'.kind

theorem Member.Alike.mono {M N : Name → Name → Prop} {m m' : Member} (h : m.Alike N m')
    (hNM : ∀ {n n'}, N n n' → M n n') : m.Alike M m' :=
  { h with name := hNM h.name }

structure WrittenMember.Alike (m m' : WrittenMember) : Prop where
  name_eq : m.name = m'.name
  kind : m.kind.Alike m'.kind

namespace Method

variable {this this' : Instance} {args args' : List Value}

theorem calledName_congr (h : this.erased = this'.erased) : calledName this = calledName this' := by
  have hbind (o : Instance) : (o.get? "name").bind Value.str? =
      ((o.get? "name").map Value.erased).bind Value.str? := by
    cases o.get? "name" with
    | none => rfl
    | some v => exact v.str?_erased.symm
  rw [calledName, calledName, hbind, Record.get?_congr h, ← hbind]

/-- What can be computed without the names of the arguments is the same for arguments alike. -/
theorem congr_of_erased {α : Type} (read seen : List Value → α)
    (hread : ∀ vs, read vs = seen (vs.map Value.erased))
    (h : args.map Value.erased = args'.map Value.erased) : read args = read args' := by
  rw [hread, h, ← hread]

theorem head?_int?_congr (h : args.map Value.erased = args'.map Value.erased) :
    args.head?.bind Value.int? = args'.head?.bind Value.int? := by
  refine congr_of_erased (·.head?.bind Value.int?) (·.head?.bind Value.int?) (fun vs => ?_) h
  cases vs with
  | nil => rfl
  | cons v _ => exact v.int?_erased.symm

theorem head?_object?_congr (h : args.map Value.erased = args'.map Value.erased) :
    (args.head?.bind Value.object?).map Record.erased =
      (args'.head?.bind Value.object?).map Record.erased := by
  refine congr_of_erased (fun vs => (vs.head?.bind Value.object?).map Record.erased)
    (·.head?.bind Value.object?) (fun vs => ?_) h
  cases vs with
  | nil => rfl
  | cons v _ => exact v.object?_erased.symm

theorem filterMap_int?_congr (h : args.map Value.erased = args'.map Value.erased) :
    args.filterMap Value.int? = args'.filterMap Value.int? := by
  have hread : Value.int? ∘ Value.erased = Value.int? := funext Value.int?_erased
  refine congr_of_erased (·.filterMap Value.int?) (·.filterMap Value.int?) (fun vs => ?_) h
  rw [List.filterMap_map, hread]

theorem countP_isNil_congr (h : args.map Value.erased = args'.map Value.erased) :
    args.countP Value.isNil = args'.countP Value.isNil := by
  have hread : Value.isNil ∘ Value.erased = Value.isNil := funext Value.isNil_erased
  refine congr_of_erased (·.countP Value.isNil) (·.countP Value.isNil) (fun vs => ?_) h
  rw [List.countP_map, hread]

inductive Stock : MethodBody → Prop
  | constant (value : Value) : Stock (constant value)
  | reading (label : String) : Stock (reading label)
  | argument (index : Nat) : Stock (argument index)
  | arguments : Stock arguments
  | failing (message : String) : Stock (failing message)
  | greeting : Stock greeting
  | speaking : Stock speaking
  | integerSum : Stock integerSum
  | nilCount : Stock nilCount
  | itself : Stock itself
  | fieldCount : Stock fieldCount
  | hasNoFields : Stock hasNoFields
  | typeIndex : Stock typeIndex
  | peeking (label : String) : Stock (peeking label)

/-- Stock bodies read instances by string only. -/
theorem Stock.alike {body : MethodBody} (h : Stock body) : MethodBody.Alike body body := by
  intro this this' args args' hthis hargs
  cases h with
  | constant value => rfl
  | reading label => exact congrArg Except.ok (Value.erased_getD (Record.get?_congr hthis label))
  | argument index =>
    have hget := congrArg (fun vs : List Value => vs[index]?) hargs
    simp only [List.getElem?_map] at hget
    exact congrArg Except.ok (Value.erased_getD hget)
  | arguments =>
    rw [Method.arguments, Method.arguments, Except.map, Except.map, Value.erased_list, hargs,
      Value.erased_list]
  | failing message => rfl
  | greeting => rw [Method.greeting, Method.greeting, calledName_congr hthis]
  | speaking =>
    rw [Method.speaking, Method.speaking, calledName_congr hthis, head?_int?_congr hargs]
  | integerSum => rw [Method.integerSum, Method.integerSum, filterMap_int?_congr hargs]
  | nilCount => rw [Method.nilCount, Method.nilCount, countP_isNil_congr hargs]
  | itself =>
    rw [Method.itself, Method.itself, Except.map, Except.map, Value.erased_object, hthis,
      Value.erased_object]
  | fieldCount => rw [Method.fieldCount, Method.fieldCount, Record.size_congr hthis]
  | hasNoFields => rw [Method.hasNoFields, Method.hasNoFields, Record.isEmpty_congr hthis]
  | typeIndex => rw [Method.typeIndex, Method.typeIndex, Record.type_congr hthis]
  | peeking label =>
    have hother := head?_object?_congr hargs
    rw [Method.peeking, Method.peeking]
    cases ho : args.head?.bind Value.object? with
    | none =>
      rw [ho, Option.map_none, eq_comm, Option.map_eq_none_iff] at hother
      rw [hother]
    | some o =>
      rw [ho, Option.map_some, eq_comm] at hother
      obtain ⟨o', ho', heq⟩ := Option.map_eq_some_iff.mp hother
      rw [ho']
      exact congrArg Except.ok (Value.erased_getD (Record.get?_congr heq.symm label))

end Method

end ObjectSystem
