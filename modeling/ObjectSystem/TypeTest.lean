import ObjectSystem.Registry.Basic

/-!
# Type tests

A test asks of a subject whether it is of a fixed type: whether it is a class or inherits from it,
or whether it does a role. Every type has the test that fits its kind.

For every named type there is a helper, called after the test and the last segment of the type's
name: `is_Order` for a class `Shop::Order`, `does_Payable` for a role `Shop::Payable`. A helper that
several types would share is left out.
-/

namespace ObjectSystem

inductive TypeTest where
  | isA (target : Handle)
  | does (target : Handle)
  deriving DecidableEq, Repr

namespace TypeTest

def target : TypeTest → Handle
  | .isA target => target
  | .does target => target

def helperStem : TypeTest → String
  | .isA _ => "is_"
  | .does _ => "does_"

def check (test : TypeTest) (c : Catalog) (subject : Handle) : Bool :=
  match test with
  | .isA target => c.isA subject target
  | .does target => c.does subject target

end TypeTest

def TypeEntry.test (t : TypeEntry) (h : Handle) : TypeTest := if t.isRole then .does h else .isA h

def Catalog.test? (c : Catalog) (type : Handle) : Option TypeTest :=
  (c.typeAt? type).map (·.test type)

namespace Registry

def testNamed? (r : Registry) (qualified : String) : Option TypeTest :=
  (r.resolve? qualified).bind r.test?

def helper (r : Registry) (t : TypeEntry) : String :=
  (t.test t.handle).helperStem ++ lastSegment (r.names.lookup t.name)

/-- The helpers of the named types, in order of declaration, each with its test. -/
def helpers (r : Registry) : List (String × TypeTest) :=
  (r.types.toList.filter (!·.isAnonymous)).map fun t => (r.helper t, t.test t.handle)

end Registry

structure HelperTable where
  tests : Std.TreeMap String TypeTest := {}

namespace HelperTable

def unambiguous (helpers : List (String × TypeTest)) : List (String × TypeTest) :=
  helpers.filter fun h => helpers.countP (·.1 == h.1) == 1

def build (r : Registry) : HelperTable where
  tests := Std.TreeMap.ofList (unambiguous r.helpers)

def get? (t : HelperTable) (helper : String) : Option TypeTest := t.tests[helper]?

def check? (t : HelperTable) (c : Catalog) (helper : String) (subject : Handle) : Option Bool :=
  (t.get? helper).map (·.check c subject)

def names (t : HelperTable) : List String := t.tests.keys

def toList (t : HelperTable) : List (String × TypeTest) := t.tests.toList

def size (t : HelperTable) : Nat := t.tests.size

def isEmpty (t : HelperTable) : Bool := t.tests.isEmpty

end HelperTable

end ObjectSystem
