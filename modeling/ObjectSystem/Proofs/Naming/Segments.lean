import Mathlib.Data.List.Infix
import ObjectSystem.QualifiedName

/-!
# Segments of qualified names

Separators may overlap, and the last segment of a name is what follows the rightmost one
(`isLastSegment_iff`). To put a name under another one does not change its last segment,
unless the name begins with a colon, which may be taken for a part of the separator
(`lastSegment_join`). So a written name has the last segment that it has in whatever scope it is
qualified (`lastSegment_of_qualify`).
-/

namespace ObjectSystem

def HasSeparator (name : String) : Prop := ∃ front tail, name = front ++ separator ++ tail

/-- The string is what follows the rightmost separator of the name, or else the whole name if there
is no separator in it. -/
def IsLastSegment (name segment : String) : Prop :=
  (∃ front, name = front ++ separator ++ segment ∧
    ∀ front' tail, name = front' ++ separator ++ tail → front'.length ≤ front.length) ∨
  ¬ HasSeparator name ∧ segment = name

/-! ## Lists of characters -/

variable {s front tail body : List Char}

theorem afterLastSeparator?_cons_of_some {c : Char} (h : afterLastSeparator? s = some tail) :
    afterLastSeparator? (c :: s) = some tail := by
  rw [afterLastSeparator?, h]

theorem afterLastSeparator?_cons_of_none {c : Char} (h : afterLastSeparator? s = none) :
    afterLastSeparator? (c :: s) =
      if c = ':' ∧ s.head? = some ':' then some s.tail else none := by
  rw [afterLastSeparator?, h]

theorem separator_infix_cons_iff {c : Char} :
    [':', ':'] <:+: c :: s ↔ (c = ':' ∧ s.head? = some ':') ∨ [':', ':'] <:+: s := by
  rw [List.infix_cons_iff, List.cons_prefix_cons, List.singleton_prefix_iff_head?_eq_some,
    eq_comm (a := ':')]

theorem afterLastSeparator?_eq_none_iff :
    afterLastSeparator? s = none ↔ ¬ [':', ':'] <:+: s := by
  induction s with
  | nil => simp [afterLastSeparator?]
  | cons c s ih =>
    rw [separator_infix_cons_iff]
    cases h : afterLastSeparator? s with
    | some tail => simp_all [afterLastSeparator?_cons_of_some h]
    | none => simp_all [afterLastSeparator?_cons_of_none h]

/-- What follows the rightmost separator. That no other one begins further right is to say that none
is left when the first colon of this one is dropped with all in front of it. -/
theorem afterLastSeparator?_eq_some (h : afterLastSeparator? s = some tail) :
    ∃ front, s = front ++ ':' :: ':' :: tail ∧ ¬ [':', ':'] <:+: ':' :: tail := by
  induction s with
  | nil => cases h
  | cons c s ih =>
    cases hs : afterLastSeparator? s with
    | some tail' =>
      rw [afterLastSeparator?_cons_of_some hs, Option.some.injEq] at h
      subst h
      obtain ⟨front, rfl, hlast⟩ := ih hs
      exact ⟨c :: front, rfl, hlast⟩
    | none =>
      rw [afterLastSeparator?_cons_of_none hs] at h
      split at h
      · rename_i hcolons
        obtain ⟨rfl, hhead⟩ := hcolons
        obtain ⟨rest, rfl⟩ := List.head?_eq_some_iff.mp hhead
        obtain rfl := Option.some.inj h
        exact ⟨[], rfl, afterLastSeparator?_eq_none_iff.mp hs⟩
      · cases h

/-- A separator in front of a name that does not begin with a colon is the rightmost one, unless
there is one in the name. -/
theorem afterLastSeparator?_append (hbody : body.head? ≠ some ':') (front : List Char) :
    afterLastSeparator? (front ++ ':' :: ':' :: body) =
      some ((afterLastSeparator? body).getD body) := by
  induction front with
  | nil =>
    cases h : afterLastSeparator? body with
    | some tail =>
      exact afterLastSeparator?_cons_of_some (afterLastSeparator?_cons_of_some h)
    | none =>
      have hcolon : afterLastSeparator? (':' :: body) = none := by
        rw [afterLastSeparator?_cons_of_none h, if_neg (fun hcolons => hbody hcolons.2)]
      rw [List.nil_append, afterLastSeparator?_cons_of_none hcolon, if_pos ⟨rfl, rfl⟩]
      rfl
  | cons c front ih => exact afterLastSeparator?_cons_of_some ih

theorem length_le_of_append_eq {front' tail' : List Char} (hlast : ¬ [':', ':'] <:+: ':' :: tail)
    (heq : front ++ ':' :: ':' :: tail = front' ++ ':' :: ':' :: tail') :
    front'.length ≤ front.length := by
  rcases List.append_eq_append_iff.mp heq with ⟨between, rfl, hrest⟩ | ⟨between, rfl, -⟩
  · cases between with
    | nil => simp
    | cons c between =>
      obtain ⟨-, hrest⟩ := List.cons_eq_cons.mp hrest
      exact absurd ⟨between, tail', by simp [hrest]⟩ hlast
  · simp

/-! ## Strings -/

theorem eq_join_iff {name front tail : String} : name = front ++ separator ++ tail ↔
    name.toList = front.toList ++ ':' :: ':' :: tail.toList := by
  rw [← String.toList_inj, String.toList_append, String.toList_append, List.append_assoc]
  rfl

theorem hasSeparator_iff {name : String} : HasSeparator name ↔ [':', ':'] <:+: name.toList := by
  constructor
  · rintro ⟨front, tail, h⟩
    exact ⟨front.toList, tail.toList, by simp [eq_join_iff.mp h]⟩
  · rintro ⟨front, tail, h⟩
    refine ⟨String.ofList front, String.ofList tail, eq_join_iff.mpr ?_⟩
    simp [← h]

theorem lastSegment_eq (name : String) :
    (lastSegment name).toList = (afterLastSeparator? name.toList).getD name.toList := by
  rw [lastSegment]
  split
  · rename_i tail htail
    rw [htail, String.toList_ofList, Option.getD_some]
  · rename_i hnone
    rw [hnone, Option.getD_none]

theorem isLastSegment_lastSegment (name : String) : IsLastSegment name (lastSegment name) := by
  have heq := lastSegment_eq name
  cases h : afterLastSeparator? name.toList with
  | none =>
    rw [h, Option.getD_none, String.toList_inj] at heq
    exact .inr ⟨hasSeparator_iff.not.mpr (afterLastSeparator?_eq_none_iff.mp h), heq⟩
  | some tail =>
    rw [h, Option.getD_some] at heq
    obtain ⟨front, hname, hlast⟩ := afterLastSeparator?_eq_some h
    refine .inl ⟨String.ofList front, eq_join_iff.mpr (by simp [hname, heq]), ?_⟩
    intro front' tail' hname'
    have hle := length_le_of_append_eq hlast (hname.symm.trans (eq_join_iff.mp hname'))
    simpa [String.length_toList] using hle

theorem IsLastSegment.unique {name segment segment' : String} (h : IsLastSegment name segment)
    (h' : IsLastSegment name segment') : segment = segment' := by
  rcases h with ⟨front, hname, hlast⟩ | ⟨hnone, rfl⟩ <;>
    rcases h' with ⟨front', hname', hlast'⟩ | ⟨hnone', rfl⟩
  · have hlength : front.toList.length = front'.toList.length := by
      rw [String.length_toList, String.length_toList]
      exact Nat.le_antisymm (hlast' _ _ hname) (hlast _ _ hname')
    have heq := (eq_join_iff.mp hname).symm.trans (eq_join_iff.mp hname')
    obtain ⟨-, hrest⟩ := List.append_inj heq hlength
    rwa [List.cons_inj_right, List.cons_inj_right, String.toList_inj] at hrest
  · exact absurd ⟨front, segment, hname⟩ hnone'
  · exact absurd ⟨front', segment', hname'⟩ hnone
  · rfl

theorem isLastSegment_iff {name segment : String} :
    IsLastSegment name segment ↔ segment = lastSegment name := by
  refine ⟨fun h => h.unique (isLastSegment_lastSegment name), ?_⟩
  rintro rfl
  exact isLastSegment_lastSegment name

theorem not_hasSeparator_lastSegment (name : String) : ¬ HasSeparator (lastSegment name) := by
  rw [hasSeparator_iff, lastSegment_eq]
  cases h : afterLastSeparator? name.toList with
  | none => exact afterLastSeparator?_eq_none_iff.mp h
  | some tail =>
    obtain ⟨-, -, hlast⟩ := afterLastSeparator?_eq_some h
    exact fun hsub => hlast (hsub.trans (List.suffix_cons _ _).isInfix)

theorem lastSegment_join {body : String} (hbody : body.toList.head? ≠ some ':') (outer : String) :
    lastSegment (Scope.join outer body) = lastSegment body := by
  have hjoin : (Scope.join outer body).toList = outer.toList ++ ':' :: ':' :: body.toList :=
    eq_join_iff.mp rfl
  rw [← String.toList_inj, lastSegment_eq, lastSegment_eq, hjoin,
    afterLastSeparator?_append hbody, Option.getD_some]

/-- A colon in front of a name is not told from a part of the separator before it. -/
example : lastSegment ":Calf" = ":Calf" ∧ lastSegment (Scope.join "Farm" ":Calf") = "Calf" := by
  decide +kernel

/-! ## Written names -/

def unmarked (written : String) : String :=
  match written.toList with
  | ':' :: ':' :: body => String.ofList body
  | '+' :: body => String.ofList body
  | _ => written

theorem unmarked_of_absolute {written : String} (h : written.toList = ':' :: ':' :: body) :
    unmarked written = String.ofList body := by
  rw [unmarked, h]
  rfl

theorem unmarked_of_relative {written : String} (h : written.toList = '+' :: body) :
    unmarked written = String.ofList body := by
  rw [unmarked, h]
  rfl

theorem unmarked_of_plain {written : String}
    (habsolute : ∀ body, written.toList ≠ ':' :: ':' :: body)
    (hrelative : ∀ body, written.toList ≠ '+' :: body) : unmarked written = written := by
  rw [unmarked]
  split
  · exact absurd ‹_› (habsolute _)
  · exact absurd ‹_› (hrelative _)
  · rfl

/-- A name that is qualified is the written one without its mark, alone or under another name. -/
theorem Scope.cases_of_qualify {scope : Scope} {written q : String}
    (h : scope.qualify written = .ok q) :
    unmarked written ≠ "" ∧
      (q = unmarked written ∨ ∃ outer, q = join outer (unmarked written)) := by
  rw [qualify] at h
  split at h
  · rename_i body hwritten
    rw [unmarked_of_absolute hwritten]
    split at h <;> cases h
    rename_i hbody
    exact ⟨by simpa using hbody, .inl rfl⟩
  · rename_i body hwritten
    rw [unmarked_of_relative hwritten]
    split at h
    · cases h
    · rename_i hbody
      split at h <;> cases h
      exact ⟨by simpa using hbody, .inr ⟨_, rfl⟩⟩
  · cases h
  · rename_i c rest habsolute hrelative hwritten
    have hplain : unmarked written = written := by
      apply unmarked_of_plain <;> intro body heq <;> rw [hwritten] at heq
      · obtain ⟨hc, hrest⟩ := List.cons_eq_cons.mp heq
        exact habsolute body hc hrest
      · exact hrelative (List.cons_eq_cons.mp heq).1
    have hne : written ≠ "" := by
      rintro rfl
      cases hwritten
    rw [hplain]
    cases h
    split
    · exact ⟨hne, .inl rfl⟩
    · exact ⟨hne, .inr ⟨_, rfl⟩⟩

theorem lastSegment_of_qualify {scope : Scope} {written q : String}
    (hbody : (unmarked written).toList.head? ≠ some ':') (h : scope.qualify written = .ok q) :
    q ≠ "" ∧ lastSegment q = lastSegment (unmarked written) := by
  obtain ⟨hne, rfl | ⟨outer, rfl⟩⟩ := Scope.cases_of_qualify h
  · exact ⟨hne, rfl⟩
  · refine ⟨?_, lastSegment_join hbody outer⟩
    simp [Scope.join, separator]

end ObjectSystem
