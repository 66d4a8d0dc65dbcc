import Mathlib.Logic.Relator
import ObjectSystem.Proofs.Interning.Room

/-!
# Names of one string in two interners

Two interners may hold different strings and give one string different names. Names match when they
are those of one string; this relates each name to one name at most, on both sides
(`biUnique_matches`), and goes on holding as the interners grow (`Matches.grows`).
-/

namespace ObjectSystem.Interner

variable {i i' j j' : Interner} {n n' : Name} {s : String}

/-- The name in the first interner and the one in the second are those of one string. -/
def Matches (i j : Interner) (n n' : Name) : Prop :=
  ∃ label, i.get? label = some n ∧ j.get? label = some n'

theorem biUnique_matches (i j : Interner) : Relator.BiUnique (Matches i j) := by
  constructor
  · rintro a b c ⟨label, ha, hc⟩ ⟨label', hb, hc'⟩
    obtain rfl := get?_injective hc hc'
    exact Option.some.inj (ha.symm.trans hb)
  · rintro a b c ⟨label, ha, hb⟩ ⟨label', ha', hc⟩
    obtain rfl := get?_injective ha ha'
    exact Option.some.inj (hb.symm.trans hc)

namespace Matches

theorem grows (h : Matches i j n n') (hi : i.Grows i') (hj : j.Grows j') : Matches i' j' n n' := by
  obtain ⟨label, hn, hn'⟩ := h
  exact ⟨label, hi.get?_eq_some hn, hj.get?_eq_some hn'⟩

theorem lookup_eq (h : Matches i j n n') : i.lookup n = j.lookup n' := by
  obtain ⟨label, hn, hn'⟩ := h
  rw [lookup_of_get? hn, lookup_of_get? hn']

theorem get?_iff (h : Matches i j n n') : i.get? s = some n ↔ j.get? s = some n' := by
  obtain ⟨label, hn, hn'⟩ := h
  constructor
  · intro hs
    rwa [get?_injective hs hn]
  · intro hs
    rwa [get?_injective hs hn']

end Matches

theorem get?_intern (hroom : (i.intern s).2.HasRoom) :
    (i.intern s).2.get? s = some (i.intern s).1 :=
  (i.holds_intern s).get?_eq hroom

theorem matches_intern {t : String} (heq : s = t) (hi : (i.intern s).2.HasRoom)
    (hj : (j.intern t).2.HasRoom) :
    Matches (i.intern s).2 (j.intern t).2 (i.intern s).1 (j.intern t).1 := by
  subst heq
  exact ⟨s, get?_intern hi, get?_intern hj⟩

end ObjectSystem.Interner
