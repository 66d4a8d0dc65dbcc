import Mathlib.Data.List.Induction
import Mathlib.Data.List.Nodup

/-!
# First occurrences

`List.eraseDups` keeps the first occurrence of each element. Orders that come of passing over what
has been met are told by it: the laws here clear a list that is put together from parts of its
repetitions part by part.
-/

namespace ObjectSystem

variable {α β : Type} [DecidableEq α] [DecidableEq β]

theorem eraseDups_append_filter (l m : List α) :
    (l ++ m).eraseDups = l.eraseDups ++ (m.filter (· ∉ l)).eraseDups := by
  have hremove : m.removeAll l = m.filter (· ∉ l) := by
    refine List.filter_congr fun x _ => ?_
    simp
  rw [List.eraseDups_append, hremove]

theorem eraseDups_concat (l : List α) (a : α) :
    (l ++ [a]).eraseDups = if a ∈ l then l.eraseDups else l.eraseDups ++ [a] := by
  rw [eraseDups_append_filter]
  by_cases ha : a ∈ l
  · simp [ha]
  · simp [ha, List.eraseDups_cons]

theorem eraseDups_of_nodup {l : List α} (h : l.Nodup) : l.eraseDups = l := by
  induction l using List.reverseRecOn with
  | nil => rfl
  | append_singleton l a ih =>
    obtain ⟨hl, -, hdisjoint⟩ := List.nodup_append.mp h
    have ha : a ∉ l := fun ha => hdisjoint a ha a (List.mem_singleton_self a) rfl
    rw [eraseDups_concat, if_neg ha, ih hl]

/-! ## Repetitions in a part -/

theorem filter_eraseDups (p : α → Bool) (l : List α) :
    l.eraseDups.filter p = (l.filter p).eraseDups := by
  induction l using List.reverseRecOn with
  | nil => rfl
  | append_singleton l a ih =>
    rw [eraseDups_concat, List.filter_append, apply_ite (List.filter p), List.filter_append, ih]
    cases hp : p a with
    | true => simp [hp, eraseDups_concat]
    | false => simp [hp]

theorem eraseDups_append_congr {l l' m m' : List α} (hl : l.eraseDups = l'.eraseDups)
    (hm : m.eraseDups = m'.eraseDups) : (l ++ m).eraseDups = (l' ++ m').eraseDups := by
  have hmem (x : α) : x ∈ l ↔ x ∈ l' := by
    rw [← List.mem_eraseDups, hl, List.mem_eraseDups]
  rw [eraseDups_append_filter, eraseDups_append_filter, hl, ← filter_eraseDups, hm,
    filter_eraseDups]
  simp only [hmem]

omit [DecidableEq α] in
theorem eraseDups_flatMap_congr {f g : α → List β} {l : List α}
    (h : ∀ a ∈ l, (f a).eraseDups = (g a).eraseDups) :
    (l.flatMap f).eraseDups = (l.flatMap g).eraseDups := by
  induction l with
  | nil => rfl
  | cons a l ih =>
    rw [List.flatMap_cons, List.flatMap_cons]
    exact eraseDups_append_congr (h a List.mem_cons_self)
      (ih fun b hb => h b (List.mem_cons_of_mem a hb))

/-- What comes of an element that is repeated has come of it before. -/
theorem eraseDups_flatMap_eraseDups (f : α → List β) (l : List α) :
    (l.eraseDups.flatMap f).eraseDups = (l.flatMap f).eraseDups := by
  induction l using List.reverseRecOn with
  | nil => rfl
  | append_singleton l a ih =>
    rw [eraseDups_concat, List.flatMap_append, List.flatMap_singleton]
    split
    · rename_i ha
      have hold : (f a).filter (· ∉ l.flatMap f) = [] := by
        rw [List.filter_eq_nil_iff]
        intro x hx
        simpa using ⟨a, ha, hx⟩
      rw [ih, eraseDups_append_filter, hold, List.eraseDups_nil, List.append_nil]
    · rw [List.flatMap_append, List.flatMap_singleton]
      exact eraseDups_append_congr ih rfl

end ObjectSystem
