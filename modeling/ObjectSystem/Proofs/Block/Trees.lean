import ObjectSystem.Proofs.Block.Roles

/-!
# Trees of blocks

Declaring a block makes one type for it and one for each block nested in it, in the order in which
they are written, and after those of its nested blocks the tags that it brings along. `Realizes`
says this of a finished registry, in which written names are resolved, although they were looked up
on the way: what has been found stays so (`Realizes.mono`).
-/

namespace ObjectSystem

open Registry Catalog Editing

namespace Registry

variable {r s : Registry} {scope : Scope} {b : Block} {bs : List Block} {i j n : Nat}

/-- The types from one place to another are those of the blocks. Each block has a type with what is
written at its head; then come the types of its nested blocks, which stand in the scope of the type
if it is a class, and then the tags that have been declared for it; then the types of the next
block. -/
inductive Realizes (s : Registry) : Scope → List Block → Nat → Nat → Prop
  | nil (scope : Scope) (n : Nat) : Realizes s scope [] n n
  | cons {scope : Scope} {b : Block} {bs : List Block} {i mid j n : Nat} {t : TypeEntry}
      (entry : s.typeAt? ⟨i⟩ = some t) (head : s.IsHead scope b ⟨i⟩ t)
      (nested : Realizes s (innerScope scope b.kind ⟨i⟩ s) b.nested (i + 1) mid)
      (roles : s.ConsumesAsWritten scope b.roles ⟨i⟩ mid j)
      (rest : Realizes s scope bs j n) : Realizes s scope (b :: bs) i n

theorem Realizes.le (h : s.Realizes scope bs i n) : i ≤ n := by
  induction h with
  | nil => exact Nat.le_refl _
  | cons _ _ _ roles _ ihnested ihrest =>
    have hle := roles.le
    omega

theorem Realizes.cons_of_singleton (hfirst : s.Realizes scope [b] i j)
    (hrest : s.Realizes scope bs j n) : s.Realizes scope (b :: bs) i n := by
  cases hfirst with
  | cons entry head nested roles rest =>
    cases rest
    exact .cons entry head nested roles hrest

theorem innerScope_eq_of_evolves (hr : r.Labelled) (hrs : Evolves r s) {h : Handle}
    (hk : r.Known h) (scope : Scope) (kind : Kind) :
    innerScope scope kind h s = innerScope scope kind h r := by
  have hname := hr.named.typeName?_eq hrs.grows hrs.succeeds.grows hk
  cases kind with
  | cls => rw [innerScope, hname, innerScope]
  | role => rfl

theorem ConsumesAsWritten.mono {uses : List RoleUse} {type : Handle} {first last : Nat}
    (hr : r.ConsumesAsWritten scope uses type first last) (hrs : Evolves r s)
    (hself : s.typeAt? type = r.typeAt? type)
    (hkeep : ∀ h, first ≤ h.index → h.index < last → s.typeAt? h = r.typeAt? h) :
    s.ConsumesAsWritten scope uses type first last := by
  have hsame : s.rolesOf type = r.rolesOf type := by rw [rolesOf, hself, rolesOf]
  obtain ⟨targets, htargets, hroles⟩ := hr.roles
  refine ⟨hr.le, ⟨targets, ?_, hsame.trans hroles⟩, hsame ▸ hr.declared, fun h hle hlt => ?_⟩
  · exact List.Forall₂.imp (fun _ _ h => h.mono hrs) htargets
  · obtain ⟨htag, written, hmem, hrefers⟩ := hr.isEmptyTag h hle hlt
    exact ⟨htag.of_typeAt?_eq (hkeep h hle hlt), written, hmem, hrefers.mono hrs⟩

theorem Realizes.mono (h : r.Realizes scope bs i n) (hr : r.Labelled) (hrs : Evolves r s)
    (hkeep : ∀ h, i ≤ h.index → h.index < n → s.typeAt? h = r.typeAt? h) :
    s.Realizes scope bs i n := by
  induction h with
  | nil => exact .nil _ _
  | @cons scope b bs i mid j n t entry head nested roles rest ihnested ihrest =>
    have hmid := nested.le
    have hj := roles.le
    have hn := rest.le
    have hself : s.typeAt? ⟨i⟩ = r.typeAt? ⟨i⟩ := hkeep ⟨i⟩ (Nat.le_refl i) (by dsimp only; omega)
    have hentry : s.typeAt? ⟨i⟩ = some t := hself.trans entry
    refine .cons hentry (head.mono hrs (hrs.labelled hr) hentry) ?_ (roles.mono hrs hself ?_)
      (ihrest ?_)
    · rw [innerScope_eq_of_evolves hr hrs (known_of_typeAt? entry)]
      exact ihnested fun h hle hlt => hkeep h (by omega) (by omega)
    · exact fun h hle hlt => hkeep h (by omega) (by omega)
    · exact fun h hle hlt => hkeep h (by omega) hlt

end Registry

namespace Editing

variable {r s : Registry}

theorem spares_of_buildEach {scope : Scope} {bs : List Block}
    (hok : (Block.buildEach scope bs).outcome r = (.ok (), s)) :
    Spares r.size r.toCatalog s.toCatalog := by
  have hspares := (sparing_buildEach scope bs r (Nat.le_refl r.size)).1
  rwa [hok] at hspares

mutual

theorem realizes_build (scope : Scope) : (b : Block) → ∀ {r s : Registry} {h : Handle},
    r.Labelled → r.WellFormed → (b.build scope).outcome r = (.ok h, s) →
    s.Realizes scope [b] r.size s.size
  | ⟨kind, name, isAbstract, parent, roles, members, nested⟩, r, s, h, hr, wf, hok => by
    rw [Block.build] at hok
    obtain ⟨type, r₁, hhead, hrest₁⟩ := outcome_bind_eq_ok.mp hok
    obtain ⟨_, _, hget, hrest₂⟩ := outcome_bind_eq_ok.mp hrest₁
    cases hget
    obtain ⟨_, r₂, hnested, hrest₃⟩ := outcome_bind_eq_ok.mp hrest₂
    obtain ⟨_, _, hroles, hpure⟩ := outcome_bind_eq_ok.mp hrest₃
    cases hpure
    have hrr₁ := (evolving_declareHead scope kind name isAbstract parent members).evolves hhead
    have hr₁r₂ := (evolving_buildEach _ nested).evolves hnested
    have hr₂s := (evolving_forM (evolving_consumeUse scope h) roles).evolves hroles
    obtain ⟨rfl, t, happends, hnone, hishead⟩ := declareHead_eq_ok
      (b := ⟨kind, name, isAbstract, parent, roles, members, nested⟩) hr hhead
    have hr₁ := hrr₁.labelled hr
    have hr₂ := hr₁r₂.labelled hr₁
    have wf₁ := hrr₁.wellFormed wf
    have hknown : r₁.Known r.nextHandle := happends.known_iff.mpr (.inr rfl)
    -- the nested blocks come after the type and leave it as it is
    have hbelow := realizes_buildEach _ nested hr₁ wf₁ hnested
    have hspares := spares_of_buildEach hnested
    have hself : r₂.typeAt? r.nextHandle = some t := by
      rw [hspares.typeAt?_eq _ hknown, happends.typeAt?_new]
    -- the roles are added to the type and to nothing else
    have hstart : r₂.ConsumesAsWritten scope [] r.nextHandle r₂.size r₂.size :=
      consumesAsWritten_nil (by rw [rolesOf_of_entry hself, hnone]) r₂.size
    obtain ⟨hconsumes, hkeeps⟩ := consumesAsWritten_forM hroles (hr₁r₂.wellFormed wf₁)
      (Nat.lt_of_lt_of_le hknown hspares.le_size) hstart
    obtain ⟨consumed, hentry⟩ := hkeeps.typeAt?_self
    rw [hself, Option.map_some] at hentry
    have hlater := hbelow.mono hr₂ hr₂s fun h hle hlt =>
      hkeeps.typeAt?_ne h (by rintro rfl; exact Nat.not_lt_of_le hle hknown) hlt
    rw [happends.size_eq, ← innerScope_eq_of_evolves hr₁ (hr₁r₂.trans hr₂s) hknown] at hlater
    exact .cons hentry (hishead.mono (hr₁r₂.trans hr₂s) (hr₂s.labelled hr₂) hentry) hlater
      hconsumes (.nil scope s.size)

theorem realizes_buildEach (scope : Scope) : (bs : List Block) → ∀ {r s : Registry},
    r.Labelled → r.WellFormed → (Block.buildEach scope bs).outcome r = (.ok (), s) →
    s.Realizes scope bs r.size s.size
  | [], r, s, _, _, hok => by
    rw [Block.buildEach] at hok
    cases hok
    exact .nil scope r.size
  | b :: bs, r, s, hr, wf, hok => by
    rw [Block.buildEach] at hok
    obtain ⟨h, m, hfirst, hrest⟩ := outcome_bind_eq_ok.mp hok
    have hrm := (evolving_build scope b).evolves hfirst
    have hms := (evolving_buildEach scope bs).evolves hrest
    have hm := hrm.labelled hr
    have hspares := spares_of_buildEach hrest
    have hb := (realizes_build scope b hr wf hfirst).mono hm hms fun h _ hlt =>
      hspares.typeAt?_eq h hlt
    exact hb.cons_of_singleton (realizes_buildEach scope bs hm (hrm.wellFormed wf) hrest)

end

end Editing

namespace Registry

variable {r s : Registry} {h : Handle}

theorem holds_iff_get? {q : String} {name : Name} (hroom : s.names.HasRoom) :
    s.names.Holds q name ↔ s.names.get? q = some name :=
  ⟨fun hheld => hheld.get?_eq hroom, fun hget => Interner.holds_iff.mpr (.inl hget)⟩

/-- A block that is declared is built as it is written: the types of the registry that are new are
those of the block and its nested blocks and of the tags that they bring along, each in its place,
and what their names, parents and roles are written as means what it means at the end. The types of
before are as they were. While there is room in the interner, a string means what it resolves to,
and what is called so. -/
theorem reachable_realizes (hr : Reachable r) (scope : Scope) (b : Block)
    (hdeclared : (declare scope b).outcome r = (.ok h, s)) :
    h = r.nextHandle ∧ s.Realizes scope [b] r.size s.size ∧
    (∀ k, r.Known k → s.typeAt? k = r.typeAt? k) ∧
    (s.names.HasRoom → (∀ q name, s.names.Holds q name ↔ s.names.get? q = some name) ∧
      ∀ q k, (s.Means q k ↔ s.resolve? q = some k) ∧ (s.Means q k → s.typeName? k = some q)) := by
  have hbuilt := outcome_of_atomically_eq_ok hdeclared
  have hs := ((evolving_build scope b).evolves hbuilt).labelled hr.labelled
  have hspares := (sparing_build scope b r (Nat.le_refl r.size)).1
  rw [hbuilt] at hspares
  exact ⟨(declaresNext_build scope b _ _ _ hbuilt).1,
    realizes_build scope b hr.labelled hr.wellFormed hbuilt, fun k hk => hspares.typeAt?_eq k hk,
    fun hroom => ⟨fun q name => holds_iff_get? hroom, fun q k => ⟨means_iff hroom, fun hq =>
      (hs.resolve?_iff.mp ((means_iff hroom).mp hq)).2⟩⟩⟩

def brood : Block :=
  { kind := .cls, name := some "Goose", parent := some (.named "Animal"),
    roles := [.handle ⟨1⟩, .named "Goose::Honker", .tag "Flyer", .handle ⟨1⟩, .named "Flyer"],
    members := [.optional "move"],
    nested := [
      { kind := .role, name := some "+Honker", members := [.optional "honk"],
        nested := [{ kind := .cls, name := some "+Gosling", parent := some (.named "Goose") }] },
      { kind := .cls, parent := some (.named "+Gosling"), roles := [.tag "Tame"] }] }

def broodFarm : Registry := ((declare .root brood).outcome farm).2

/-- The goose comes first, then those nested in it, the last of them with its tag, and then the tag
of the goose, which is listed twice. The gosling belongs to the goose and not to its role. -/
theorem farm_realizes : (declare .root brood).outcome farm = (.ok ⟨4⟩, broodFarm) ∧
    broodFarm.Realizes .root [brood] 4 10 ∧
    broodFarm.rolesOf ⟨4⟩ = [⟨1⟩, ⟨5⟩, ⟨9⟩] ∧ broodFarm.resolve? "Flyer" = some ⟨9⟩ ∧
    broodFarm.typeName? ⟨6⟩ = some "Goose::Gosling" ∧ broodFarm.parent? ⟨7⟩ = some ⟨6⟩ ∧
    broodFarm.rolesOf ⟨7⟩ = [⟨8⟩] := by
  have hdeclared : (declare .root brood).outcome farm = (.ok ⟨4⟩, broodFarm) := by
    have hok : ((declare .root brood).outcome farm).1 = .ok ⟨4⟩ := by decide +kernel
    rw [broodFarm, ← hok]
  obtain ⟨-, hrealizes, -, -⟩ := reachable_realizes reachable_farm .root brood hdeclared
  have hfirst : farm.size = 4 := by decide +kernel
  have hlast : broodFarm.size = 10 := by decide +kernel
  rw [hfirst, hlast] at hrealizes
  refine ⟨hdeclared, hrealizes, ?_, ?_, ?_, ?_, ?_⟩ <;> decide +kernel

end Registry

end ObjectSystem
