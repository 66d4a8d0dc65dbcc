import ObjectSystem.Decimal.Layout
import ObjectSystem.Object.Member
import ObjectSystem.Text.Quoted

/-!
# How values and members are shown

A value is shown by the name of its case and what it holds; an instance by its type and its fields
in ascending order of their names.
-/

namespace ObjectSystem

/-- Numbers from a ten-thousandth up to ten quadrillions are written positionally, whole ones with a
zero after the point; all others with a power of ten. -/
def Value.floatLayout : Decimal.Layout where
  leastPositional := -4
  leastScientific := 16
  wholeEnding := ".0"
  exponentMark := "e"
  nan := "NaN"
  infinity := "inf"
  minus := "-"

def bracketed (texts : List String) : String := "[" ++ ", ".intercalate texts ++ "]"

def Field.shown (f : Field String) : String := "(" ++ Text.quote f.label ++ ", " ++ f.value ++ ")"

def Record.shown (r : Record String) : String :=
  "Instance \x7b ty: " ++ r.type.text ++ ", fields: " ++
    bracketed (r.sortedFields.map Field.shown) ++ " \x7d"

mutual

def Value.text : Value → String
  | .nil => "Nil"
  | .bool b => s!"Bool({b})"
  | .int n => s!"Int({n.toInt})"
  | .float x => "Float(" ++ Value.floatLayout.write x ++ ")"
  | .str s => "Str(" ++ Text.quote s ++ ")"
  | .list items => "List(" ++ bracketed (Value.texts items) ++ ")"
  | .object ⟨type, fields⟩ => "Object(" ++ Record.shown ⟨type, Value.fieldTexts fields⟩ ++ ")"

def Value.texts : List Value → List String
  | [] => []
  | x :: rest => x.text :: Value.texts rest

def Value.fieldTexts : List (Field Value) → List (Field String)
  | [] => []
  | ⟨name, label, x⟩ :: rest => ⟨name, label, x.text⟩ :: Value.fieldTexts rest

end

def Record.text (o : Instance) : String := Record.shown ⟨o.type, Value.fieldTexts o.fields⟩

def Value.optionText : Option Value → String
  | none => "None"
  | some x => "Some(" ++ x.text ++ ")"

def Attribute.text (a : Attribute) : String :=
  s!"AttributeDef \x7b required: {a.required}, default: " ++ Value.optionText a.default ++ " \x7d"

def MemberKind.text : MemberKind → String
  | .stored rules => "Attribute(" ++ rules.text ++ ")"
  | .method _ => "Method(..)"

def Member.text (m : Member) : String :=
  s!"MemberDef \x7b name: {m.name.text}, kind: " ++ m.kind.text ++ " \x7d"

end ObjectSystem
