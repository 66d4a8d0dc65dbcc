import ObjectSystem.Registry.Construction
import ObjectSystem.Registry.Edit

/-!
# Runs

A registry is used by a sequence of operations and transactions. An operation may be refused; a
transaction runs a body, itself a sequence of operations and transactions, on a scratch copy, and
keeps the copy or drops it. Which operations a body performs, and whether it succeeds, may depend on
everything that it has seen, so a run is a relation between registries and not a program.

`Run r s` says that `s` is a later state of the registry `r`, and `Reachable s` that `s` is a state
of some registry that was new at first.
-/

namespace ObjectSystem

/-- What may be done to a registry. `intern` stands for all strings that are interned on the way, by
the user of the registry or through another registry that shares the interner. -/
inductive Operation where
  | edit (e : Edit)
  | sealType (type : Handle)
  | sealAll
  | instantiate (type : Handle) (fields : List (String × Value))
  | intern (s : String)

def Operation.after (r : Registry) : Operation → Registry
  | .edit e => (e.run.outcome r).2
  | .sealType type => { r with toCatalog := r.sealType type }
  | .sealAll => { r with toCatalog := r.sealAll }
  | .instantiate type fields =>
    match r.instantiate type fields with
    | .ok (_, after) => after
    | .error _ => r
  | .intern s => { r with names := (r.names.intern s).2 }

def Interner.ofStrings (strings : List String) : Interner :=
  strings.foldl (fun names s => (names.intern s).2) .empty

namespace Registry

/-- The second registry is a later state of the first one. -/
inductive Run : Registry → Registry → Prop
  | start (r : Registry) : Run r r
  | perform {r s : Registry} (h : Run r s) (o : Operation) : Run r (o.after s)
  | transaction {r s scratch : Registry} {ε α : Type} (h : Run r s) (body : Run s scratch)
      (outcome : Except ε α) : Run r (s.settle outcome scratch)

/-- The registry is a state of one that was made with some configuration and an interner that may
have been in use before. -/
def Reachable (r : Registry) : Prop :=
  ∃ config strings, Run (.new config (.ofStrings strings)) r

theorem Run.trans {r s t : Registry} (hrs : Run r s) (hst : Run s t) : Run r t := by
  induction hst with
  | start => exact hrs
  | perform _ o ih => exact (ih hrs).perform o
  | transaction _ body outcome ih _ => exact (ih hrs).transaction body outcome

theorem reachable_new (config : Config) : Reachable (.new config .empty) :=
  ⟨config, [], .start _⟩

theorem Reachable.run {r s : Registry} (hr : Reachable r) (hrs : Run r s) : Reachable s := by
  obtain ⟨config, strings, hnew⟩ := hr
  exact ⟨config, strings, hnew.trans hrs⟩

theorem run_foldl (r : Registry) (os : List Operation) : Run r (os.foldl Operation.after r) := by
  induction os generalizing r with
  | nil => exact .start r
  | cons o os ih => exact (Run.perform (.start r) o).trans (ih _)

def farm : Registry :=
  [.edit (.declareRole (some "Walker")
      [WrittenMember.optional "move", WrittenMember.optional "legs"]),
    .edit (.declareRole (some "Swimmer") [WrittenMember.optional "move"]),
    .edit (.declareClass (some "Animal") none false [WrittenMember.optional "age"]),
    .edit (.declareClass (some "Duck") (some ⟨2⟩) false [WrittenMember.optional "move"]),
    .edit (.consume ⟨3⟩ ⟨0⟩),
    .edit (.consume ⟨3⟩ ⟨1⟩)].foldl Operation.after (.new {} .empty)

def farmName (s : String) : Name := (farm.names.get? s).getD .empty

theorem reachable_farm : Reachable farm := (reachable_new {}).run (run_foldl _ _)

/-- A strict registry of ducks, which have an attribute under a name that the interner has not
issued. The next string that it will issue the name for may be that of a cow. -/
def fen : Registry :=
  [.edit (.declareClass (some "Duck") none false [.named ⟨.ofRaw 0xB0000000, .stored {}⟩])].foldl
    Operation.after (.new .strict .empty)

theorem reachable_fen : Reachable fen := (reachable_new .strict).run (run_foldl _ _)

def declareCow : Operation := .edit (.declareClass (some "Cow") none false [])

end Registry

end ObjectSystem
