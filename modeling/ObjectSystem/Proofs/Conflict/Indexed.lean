import Mathlib.Data.List.Induction
import Std.Data.HashMap.Lemmas
import ObjectSystem.Proofs.Conflict.Provider
import ObjectSystem.Proofs.Interning.Growth

/-!
# Provisions gathered with an index

What a role provides may also be gathered in one list that begins with the role's own members. A map
finds the entry of each name, and the entries of own members are locked: what the consumed roles
provide under their names is skipped. The result is the same (`gather_eq`), so the conflicts that
are found this way are the conflicts (`gatheredConflicts_eq`).
-/

namespace ObjectSystem

instance : Hashable Name := ⟨fun n => hash n.raw⟩

namespace Provision

/-- Provisions and, for each name, the position of its entry. -/
structure Gathered where
  entries : List Provision
  position : Std.HashMap Name Nat

namespace Gathered

def push (g : Gathered) (e : Provision) : Gathered where
  entries := g.entries ++ [e]
  position := g.position.insert e.member g.entries.length

/-- Adds a provision, unless its name is that of a locked entry. The first `locked` entries are. -/
def add (locked : Nat) (g : Gathered) (e : Provision) : Gathered :=
  match g.position[e.member]? with
  | some i =>
    if i < locked then g
    else { g with entries := g.entries.modify i fun q => ⟨q.member, unite q.roles e.roles⟩ }
  | none => g.push e

def merge (locked : Nat) (g : Gathered) (more : List Provision) : Gathered :=
  more.foldl (add locked) g

end Gathered

def gather (own : List Provision) (provided : Handle → List Provision) (roles : List Handle) :
    List Provision :=
  (roles.foldl (fun g r => g.merge own.length (provided r))
    (own.foldl Gathered.push ⟨[], ∅⟩)).entries

def hides (own : List Provision) (n : Name) : Bool := own.any (·.member == n)

variable {own rest : List Provision} {e : Provision} {g : Gathered} {n : Name}

theorem hides_concat : hides (own ++ [e]) n = (hides own n || e.member == n) := by
  simp [hides]

/-! ## Merging by position -/

theorem insert_of_not_mem (hnew : e.member ∉ rest.map member) : insert rest e = rest ++ [e] := by
  induction rest with
  | nil => rfl
  | cons x rest ih =>
    rw [List.map_cons, List.mem_cons, not_or] at hnew
    rw [insert, if_neg (Ne.symm hnew.1), ih hnew.2, List.cons_append]

theorem insert_of_idxOf? {j : Nat} (hj : (rest.map member).idxOf? e.member = some j) :
    insert rest e = rest.modify j fun q => ⟨q.member, unite q.roles e.roles⟩ := by
  induction rest generalizing j with
  | nil => cases hj
  | cons x rest ih =>
    rw [List.map_cons, List.idxOf?_cons] at hj
    rw [insert]
    by_cases hx : x.member = e.member
    · rw [if_pos (by simpa using hx)] at hj
      obtain rfl := Option.some.inj hj
      rw [if_pos hx]
      rfl
    · rw [if_neg (by simpa using hx)] at hj
      obtain ⟨i, hi, rfl⟩ := Option.map_eq_some_iff.mp hj
      rw [if_neg hx, ih hi]
      rfl

theorem filter_insert (hidden : Name → Bool) (l : List Provision) (e : Provision) :
    (insert l e).filter (!hidden ·.member) =
      if hidden e.member then l.filter (!hidden ·.member)
      else insert (l.filter (!hidden ·.member)) e := by
  induction l with
  | nil => cases he : hidden e.member <;> simp [insert, he]
  | cons x l ih =>
    by_cases hx : x.member = e.member
    · cases he : hidden e.member <;> simp [insert, hx, he]
    · rw [insert, if_neg hx, List.filter_cons, ih, List.filter_cons]
      cases hidden x.member <;> cases hidden e.member <;> simp [insert, hx]

/-! ## What the index finds -/

namespace Gathered

/-- The list holds own entries and then others. The index finds the entries of the others, and
places the names of own entries among the own entries. -/
structure InStep (own rest : List Provision) (g : Gathered) : Prop where
  entries_eq : g.entries = own ++ rest
  position_own : ∀ n, hides own n → ∃ i < own.length, g.position[n]? = some i
  position_rest : ∀ n, hides own n = false →
    g.position[n]? = ((rest.map member).idxOf? n).map (own.length + ·)

theorem position_push (g : Gathered) (e : Provision) (n : Name) :
    (g.push e).position[n]? =
      if e.member = n then some g.entries.length else g.position[n]? := by
  simp only [push, Std.HashMap.getElem?_insert, beq_iff_eq]

theorem inStep_own (own : List Provision) : InStep own [] (own.foldl push ⟨[], ∅⟩) := by
  induction own using List.reverseRecOn with
  | nil => exact ⟨rfl, by simp [hides], by simp⟩
  | append_singleton own e ih =>
    rw [List.foldl_append, List.foldl_cons, List.foldl_nil]
    generalize own.foldl push ⟨[], ∅⟩ = g at ih
    have hlength : g.entries.length = own.length := by rw [ih.entries_eq, List.append_nil]
    refine ⟨by simp [push, ih.entries_eq], fun n hn => ?_, fun n hn => ?_⟩
    · rw [position_push, hlength]
      split
      · exact ⟨own.length, by simp, rfl⟩
      · rename_i hne
        rw [hides_concat, beq_eq_false_iff_ne.mpr hne, Bool.or_false] at hn
        obtain ⟨i, hi, hpos⟩ := ih.position_own n hn
        exact ⟨i, by rw [List.length_append]; omega, hpos⟩
    · rw [hides_concat, Bool.or_eq_false_iff, beq_eq_false_iff_ne] at hn
      rw [position_push, if_neg hn.2, ih.position_rest n hn.1]
      rfl

theorem InStep.push (h : InStep own rest g) (hown : hides own e.member = false)
    (hnew : e.member ∉ rest.map member) : InStep own (rest ++ [e]) (g.push e) := by
  refine ⟨by simp [Gathered.push, h.entries_eq], fun n hn => ?_, fun n hn => ?_⟩
  · rw [position_push, if_neg (by rintro rfl; simp [hown] at hn)]
    exact h.position_own n hn
  · rw [position_push, h.position_rest n hn, List.map_append, List.map_singleton,
      Interner.idxOf?_concat hnew]
    split
    · rw [Option.map_some, List.length_map, h.entries_eq, List.length_append]
    · rfl

theorem InStep.add (h : InStep own rest g) (e : Provision) :
    InStep own (if hides own e.member then rest else insert rest e) (g.add own.length e) := by
  by_cases hown : hides own e.member
  · obtain ⟨i, hi, hposition⟩ := h.position_own _ hown
    rw [if_pos hown]
    simpa only [Gathered.add, hposition, if_pos hi] using h
  · rw [if_neg hown]
    rw [Bool.not_eq_true] at hown
    have hposition := h.position_rest _ hown
    cases hj : (rest.map member).idxOf? e.member with
    | none =>
      have hnew := List.idxOf?_eq_none_iff.mp hj
      rw [hj, Option.map_none] at hposition
      rw [insert_of_not_mem hnew]
      simpa only [Gathered.add, hposition] using h.push hown hnew
    | some j =>
      have hold : e.member ∈ rest.map member := List.isSome_idxOf?.mp (by rw [hj]; rfl)
      have hlocked : ¬ own.length + j < own.length := by omega
      rw [hj, Option.map_some] at hposition
      simp only [Gathered.add, hposition, if_neg hlocked]
      refine ⟨?_, h.position_own, fun n hn => ?_⟩
      · rw [insert_of_idxOf? hj, h.entries_eq]
        exact List.modifyTailIdx_add _ j own rest
      · rw [map_member_insert, if_pos hold]
        exact h.position_rest n hn

theorem InStep.merge {known : List Provision}
    (h : InStep own (known.filter (!hides own ·.member)) g) (more : List Provision) :
    InStep own ((Provision.merge known more).filter (!hides own ·.member))
      (g.merge own.length more) := by
  induction more generalizing known g with
  | nil => exact h
  | cons e more ih =>
    have hadd := h.add e
    rw [← filter_insert] at hadd
    exact ih hadd

end Gathered

/-- Gathering with an index gives the own provisions, and of the other names what merging gives. -/
theorem gather_eq (own : List Provision) (provided : Handle → List Provision)
    (roles : List Handle) :
    gather own provided roles =
      own ++ (Catalog.united provided roles).filter (!hides own ·.member) := by
  have hfrom : ∀ known g, Gathered.InStep own (known.filter (!hides own ·.member)) g →
      Gathered.InStep own
        ((roles.foldl (fun known r => merge known (provided r)) known).filter
          (!hides own ·.member))
        (roles.foldl (fun g r => g.merge own.length (provided r)) g) := by
    induction roles with
    | nil => exact fun _ _ h => h
    | cons r rest ih => exact fun known g h => ih _ _ (h.merge (provided r))
  exact (hfrom [] _ (Gathered.inStep_own own)).entries_eq

end Provision

namespace Catalog

open Provision

def gatheredWithin (c : Catalog) : Nat → Handle → List Provision
  | 0, _ => []
  | fuel + 1, role =>
    match c.typeAt? role with
    | none => []
    | some t => gather (t.members.map fun m => ⟨m.name, [role]⟩) (c.gatheredWithin fuel) t.roles

/-- The conflicts of a class, with provisions gathered with an index. No name is locked. -/
def gatheredConflicts (c : Catalog) (type : Handle) : List Provision :=
  if c.isClass type then
    (gather [] (c.gatheredWithin c.size) (c.rolesOf type)).filter fun p =>
      decide (1 < p.roles.length) && !c.settles type p.member
  else []

theorem gatheredWithin_eq (c : Catalog) (fuel : Nat) :
    c.gatheredWithin fuel = c.provisionsWithin fuel := by
  induction fuel with
  | zero => rfl
  | succ fuel ih =>
    funext role
    rw [gatheredWithin, provisionsWithin, provisionsFrom]
    cases ht : c.typeAt? role with
    | none => rfl
    | some t =>
      have hhides (n : Name) :
          hides (t.members.map fun m => ⟨m.name, [role]⟩) n = t.declares n := by
        rw [hides, TypeEntry.declares_eq_any, List.any_map]
        rfl
      simp only [gather_eq, ih, hhides]

theorem gatheredConflicts_eq (c : Catalog) (type : Handle) :
    c.gatheredConflicts type = c.conflicts type := by
  have hall (l : List Provision) : l.filter (!hides [] ·.member) = l := by
    simp [hides]
  rw [gatheredConflicts, conflicts, consumedProvisions, gatheredWithin_eq, gather_eq, hall,
    List.nil_append]
  rfl

end Catalog

end ObjectSystem
