import ObjectSystem.Proofs.Run.Blocks

/-!
# Blocks one after another

Several blocks can be declared at once, on one scratch copy, or each by itself, on a scratch copy of
what the ones before have left. Both come to the same (`declareAll_inTurn`), up to the first block
that is refused: then the scratch copy that is dropped holds all that was declared before, and by
itself each of those blocks stays declared. The strings are the same in either case, because they
are interned in the same order and no scratch copy takes them back.
-/

namespace ObjectSystem.Editing

open Registry

variable {α β : Type}

/-- The computation is run for each element in turn, on the registry that the run before has left.
The results are listed in order; after a failure it is not run again. -/
inductive InTurn (f : α → Editing β) :
    Registry → List α → Except EditError (List β) → Registry → Prop
  | done (r : Registry) : InTurn f r [] (.ok []) r
  | granted {r t s : Registry} {a : α} {as : List α} {b : β} {out : Except EditError (List β)}
      (hfirst : (f a).outcome r = (.ok b, t)) (hrest : InTurn f t as out s) :
      InTurn f r (a :: as) (out.map (b :: ·)) s
  | refused {r s : Registry} {a : α} {as : List α} {e : EditError}
      (hfirst : (f a).outcome r = (.error e, s)) : InTurn f r (a :: as) (.error e) s

variable {f : α → Editing β} {act : Editing α} {r s : Registry} {as : List α} {e : EditError}
  {out : Except EditError (List β)}

theorem exists_inTurn (f : α → Editing β) (as : List α) (r : Registry) :
    ∃ out s, InTurn f r as out s := by
  induction as generalizing r with
  | nil => exact ⟨_, _, .done r⟩
  | cons a as ih =>
    rcases hfirst : (f a).outcome r with ⟨e | b, t⟩
    · exact ⟨_, _, .refused hfirst⟩
    · obtain ⟨out, s, hrest⟩ := ih t
      exact ⟨_, _, .granted hfirst hrest⟩

theorem exists_outcome_of_atomically_eq_error (h : (atomically act).outcome r = (.error e, s)) :
    ∃ scratch, act.outcome r = (.error e, scratch) ∧ s.names = scratch.names := by
  rw [outcome_atomically] at h
  rcases hact : act.outcome r with ⟨e' | a, scratch⟩ <;> rw [hact] at h <;> cases h
  exact ⟨scratch, rfl, rfl⟩

/-- Without scratch copies of their own, the runs have the same results and intern the same strings,
and they leave the same registry if none fails. -/
theorem InTurn.exists_outcome_mapM (h : InTurn (fun a => atomically (f a)) r as out s) :
    ∃ t, Editing.outcome (as.mapM f) r = (out, t) ∧ t.names = s.names ∧
      ∀ bs, out = .ok bs → t = s := by
  induction h with
  | done r => exact ⟨r, rfl, rfl, fun _ _ => rfl⟩
  | @granted r m s a as b out hfirst _ ih =>
    obtain ⟨t, hrest, hnames, hsame⟩ := ih
    refine ⟨t, ?_, hnames, fun bs hbs => ?_⟩
    · rw [List.mapM_cons, outcome_bind, outcome_of_atomically_eq_ok hfirst]
      dsimp only
      rw [outcome_bind, hrest]
      cases out <;> rfl
    · cases out with
      | error e => cases hbs
      | ok cs => exact hsame cs rfl
  | refused hfirst =>
    obtain ⟨scratch, hact, hnames⟩ := exists_outcome_of_atomically_eq_error hfirst
    refine ⟨scratch, ?_, hnames.symm, fun bs hbs => by cases hbs⟩
    rw [List.mapM_cons, outcome_bind, hact]

theorem InTurn.outcome_atomically (h : InTurn (fun a => atomically (f a)) r as out s) :
    (atomically (as.mapM f)).outcome r = (out, r.settle out s) := by
  obtain ⟨t, hmapped, hnames, hsame⟩ := h.exists_outcome_mapM
  rw [Editing.outcome_atomically, hmapped]
  cases out with
  | ok bs => rw [hsame bs rfl]
  | error e => simp only [settle, keepingNames, hnames]

/-- Declaring several blocks succeeds exactly when declaring one after another does, with the same
handles and the same registry. Where the latter first fails, the former fails for the same reason:
it leaves the catalog as it was before the first block, and the strings that declaring them in turn
leaves. One of the two is the case. -/
theorem declareAll_inTurn (r : Registry) (scope : Scope) (bs : List Block) :
    (∀ hs s, (declareAll scope bs).outcome r = (.ok hs, s) ↔
      InTurn (declare scope) r bs (.ok hs) s) ∧
    (∀ e s, InTurn (declare scope) r bs (.error e) s →
      ∃ after, (declareAll scope bs).outcome r = (.error e, after) ∧
        after.toCatalog = r.toCatalog ∧ after.names = s.names) ∧
    ∃ out s, InTurn (declare scope) r bs out s := by
  have hall {out : Except EditError (List Handle)} {s : Registry}
      (h : InTurn (declare scope) r bs out s) :
      (declareAll scope bs).outcome r = (out, r.settle out s) := InTurn.outcome_atomically h
  refine ⟨fun hs s => ⟨fun hdeclared => ?_, hall⟩, fun e s hturn => ⟨_, hall hturn, rfl, rfl⟩,
    exists_inTurn _ bs r⟩
  obtain ⟨out, t, hturn⟩ := exists_inTurn (declare scope) bs r
  rw [hall hturn] at hdeclared
  cases out with
  | error e => cases hdeclared
  | ok ks =>
    cases hdeclared
    exact hturn

def hawk : Block :=
  { kind := .cls, name := some "Hawk", parent := some (.named "Animal"), roles := [.tag "Flyer"] }

def falcon : Block :=
  { kind := .cls, name := some "Falcon", parent := some (.named "Hawk"), roles := [.tag "Flyer"] }

def nest : Block :=
  { kind := .cls, roles := [.tag "Flyer"],
    nested := [{ kind := .cls, name := some "Egg", parent := some (.named "Nobody") }] }

def hawkFarm : Registry := ((declare .root hawk).outcome farm).2

/-- A hawk and a falcon can be declared at once, and the tag that the hawk brings along serves both.
Together with the nest they are refused, and then there is no hawk either; in turn, it is there when
the nest is refused. -/
theorem farm_inTurn :
    (∃ s, (declareAll .root [hawk, falcon]).outcome farm = (.ok [⟨4⟩, ⟨6⟩], s) ∧
      InTurn (declare .root) farm [hawk, falcon] (.ok [⟨4⟩, ⟨6⟩]) s) ∧
    ∃ s after, InTurn (declare .root) farm [hawk, nest] (.error (.unknownType "Nobody")) s ∧
      s.resolve? "Hawk" = some ⟨4⟩ ∧
      (declareAll .root [hawk, nest]).outcome farm = (.error (.unknownType "Nobody"), after) ∧
      after.toCatalog = farm.toCatalog ∧ after.names = s.names := by
  constructor
  · obtain ⟨hiff, -, -⟩ := declareAll_inTurn farm .root [hawk, falcon]
    have hok : ((declareAll .root [hawk, falcon]).outcome farm).1 = .ok [⟨4⟩, ⟨6⟩] := by
      decide +kernel
    have hdeclared : (declareAll .root [hawk, falcon]).outcome farm =
        (.ok [⟨4⟩, ⟨6⟩], ((declareAll .root [hawk, falcon]).outcome farm).2) := by rw [← hok]
    exact ⟨_, hdeclared, (hiff _ _).mp hdeclared⟩
  · obtain ⟨-, hrefused, -⟩ := declareAll_inTurn farm .root [hawk, nest]
    have hhawk : ((declare .root hawk).outcome farm).1 = .ok ⟨4⟩ := by decide +kernel
    have hnest : ((declare .root nest).outcome hawkFarm).1 = .error (.unknownType "Nobody") := by
      decide +kernel
    have hturn : InTurn (declare .root) farm [hawk, nest] (.error (.unknownType "Nobody"))
        ((declare .root nest).outcome hawkFarm).2 :=
      .granted (t := hawkFarm) (by rw [hawkFarm, ← hhawk]) (.refused (by rw [← hnest]))
    obtain ⟨after, hall, hcatalog, hnames⟩ := hrefused _ _ hturn
    exact ⟨_, after, hturn, by decide +kernel, hall, hcatalog, hnames⟩

end ObjectSystem.Editing
