import Mathlib.Data.List.Infix
import Mathlib.Data.List.TakeWhile
import Mathlib.Tactic

/-!
# Searching a list for a pattern

`place pat l` is the first place of `l` at which `pat` stands, `afterFirst pat l` what
follows it there. A search is described on a list that is already split: at the first
occurrence the place is the length of what stands before. A search that starts further on
is a search of the rest, so a parser that cuts its input from the front only ever needs
these facts about the part it has not read.
-/

namespace Search

variable {α : Type*} [DecidableEq α]

/-- The first place at which `pat` stands. -/
def place (pat : List α) : List α → Option ℕ
  | [] => if pat = [] then some 0 else none
  | c :: l => if pat <+: c :: l then some 0 else (place pat l).map (· + 1)

/-- What follows the first `pat`. -/
def afterFirst (pat l : List α) : Option (List α) :=
  (place pat l).map fun i => l.drop (i + pat.length)

/-- What stands before the first `c`. -/
def upTo (c : α) (l : List α) : List α := l.takeWhile (· ≠ c)

/-- What stands from the first `c` on. -/
def fromOn (c : α) (l : List α) : List α := l.dropWhile (· ≠ c)

variable {pat a b l : List α} {c : α} {i : ℕ}

/-! ## The first place -/

/-- A pattern whose first letter is not in `a` is found in `a ++ b` where `b` has it. -/
theorem place_append (h : c ∉ a) :
    place (c :: pat) (a ++ b) = (place (c :: pat) b).map (a.length + ·) := by
  induction a with
  | nil => simp
  | cons d a ih =>
    simp only [List.mem_cons, not_or] at h
    have hno : ¬ (c :: pat) <+: d :: (a ++ b) := by
      intro hp
      exact h.1 (List.cons_prefix_cons.1 hp).1
    simp only [List.cons_append, place, if_neg hno, ih h.2, Option.map_map, List.length_cons]
    congr 1
    funext j
    simp only [Function.comp_apply]
    omega

/-- A pattern whose first letter is not in `a` is first found behind `a`. -/
theorem place_append_of_not_mem (h : c ∉ a) :
    place (c :: pat) (a ++ (c :: pat ++ b)) = some a.length := by
  have hhere : place (c :: pat) (c :: pat ++ b) = some 0 := if_pos (List.prefix_append (c :: pat) b)
  rw [place_append h, hhere]
  rfl

theorem place_singleton_append (h : c ∉ a) : place [c] (a ++ c :: b) = some a.length :=
  place_append_of_not_mem h

theorem place_eq_none_of_not_mem (h : c ∉ l) : place (c :: pat) l = none := by
  have hend : place (c :: pat) (l ++ []) = _ := place_append h
  simpa [place] using hend

/-- The first place splits the list. -/
theorem split_of_place (h : place pat l = some i) : ∃ a b, l = a ++ (pat ++ b) ∧ a.length = i := by
  induction l generalizing i with
  | nil =>
    simp only [place] at h
    split at h
    · rename_i hp
      exact ⟨[], [], by simp [hp], by simpa using h⟩
    · cases h
  | cons d l ih =>
    simp only [place] at h
    split at h
    · rename_i hp
      obtain ⟨b, hb⟩ := hp
      exact ⟨[], b, hb.symm, by simpa using h⟩
    · obtain ⟨j, hj, rfl⟩ := Option.map_eq_some_iff.1 h
      obtain ⟨a, b, rfl, rfl⟩ := ih hj
      exact ⟨d :: a, b, rfl, rfl⟩

theorem place_le_length (h : place pat l = some i) : i + pat.length ≤ l.length := by
  obtain ⟨a, b, rfl, rfl⟩ := split_of_place h
  simp only [List.length_append]
  omega

/-- **What is found** is what stands somewhere in the list. -/
theorem place_isSome_iff : (place pat l).isSome ↔ pat <:+: l := by
  induction l with
  | nil =>
    rw [place, List.infix_nil]
    split <;> simp_all
  | cons d l ih =>
    rw [place, List.infix_cons_iff]
    split
    · rename_i hp
      simp [hp]
    · rename_i hp
      rw [Option.isSome_map, ih]
      simp [hp]

/-- What is found in `a` is found at the same place in `a ++ b`. -/
theorem place_append_of_some (h : place pat a = some i) : place pat (a ++ b) = some i := by
  induction a generalizing i with
  | nil =>
    simp only [place] at h
    split at h
    · rename_i hp
      subst hp
      cases b <;> simpa [place] using h
    · cases h
  | cons d a ih =>
    simp only [place] at h
    split at h
    · rename_i hp
      have hp' : pat <+: d :: (a ++ b) := hp.trans (List.prefix_append (d :: a) b)
      simp only [List.cons_append, place, if_pos hp']
      exact h
    · rename_i hp
      obtain ⟨j, hj, rfl⟩ := Option.map_eq_some_iff.1 h
      have hle := place_le_length hj
      have hp' : ¬ pat <+: d :: (a ++ b) := by
        intro hq
        refine hp (List.prefix_of_prefix_length_le hq (List.prefix_append (d :: a) b) ?_)
        simp only [List.length_cons]
        omega
      simp only [List.cons_append, place, if_neg hp', ih hj, Option.map_some]

/-- A pattern that is not in `a` ends behind `a`. -/
theorem lt_of_place_append (h : place pat a = none) (hi : place pat (a ++ b) = some i) :
    a.length < i + pat.length := by
  by_contra hle
  obtain ⟨x, y, hxy, rfl⟩ := split_of_place hi
  have hx : x ++ pat <+: a ++ b := ⟨y, by rw [hxy, List.append_assoc]⟩
  have hpre : x ++ pat <+: a := by
    refine List.prefix_of_prefix_length_le hx (List.prefix_append a b) ?_
    simp only [List.length_append]
    omega
  obtain ⟨z, rfl⟩ := hpre
  clear hx hxy hi hle
  induction x with
  | nil => cases pat <;> cases z <;> simp [place] at h
  | cons d x ih =>
    simp only [List.cons_append, place] at h
    split at h
    · cases h
    · exact ih (by simpa using h)

/-! ## Cutting at the first place -/

theorem afterFirst_append_of_not_mem (h : c ∉ a) :
    afterFirst (c :: pat) (a ++ (c :: pat ++ b)) = some b := by
  rw [afterFirst, place_append_of_not_mem h]
  simp only [Option.map_some, List.drop_append, Option.some.injEq]
  simp

theorem afterFirst_singleton_append (h : c ∉ a) : afterFirst [c] (a ++ c :: b) = some b :=
  afterFirst_append_of_not_mem h

theorem afterFirst_eq_none_of_not_mem (h : c ∉ l) : afterFirst (c :: pat) l = none := by
  rw [afterFirst, place_eq_none_of_not_mem h]
  rfl

theorem afterFirst_eq_none : afterFirst pat l = none ↔ place pat l = none := by
  simp [afterFirst]

/-- A pattern that is found splits the list at its first place. -/
theorem split_of_afterFirst (h : afterFirst pat l = some b) :
    ∃ a, l = a ++ (pat ++ b) ∧ place pat l = some a.length := by
  obtain ⟨i, hi, rfl⟩ := Option.map_eq_some_iff.1 h
  obtain ⟨a, b, rfl, rfl⟩ := split_of_place hi
  exact ⟨a, by simp [List.drop_append], hi⟩

@[simp] theorem upTo_append (h : c ∉ a) : upTo c (a ++ c :: b) = a := by
  rw [upTo, List.takeWhile_append_of_pos (by intro x hx; simpa using ne_of_mem_of_not_mem hx h)]
  simp

theorem upTo_of_not_mem (h : c ∉ l) : upTo c l = l := by
  rw [upTo, List.takeWhile_eq_self_iff]
  intro x hx
  simpa using ne_of_mem_of_not_mem hx h

@[simp] theorem fromOn_append (h : c ∉ a) : fromOn c (a ++ c :: b) = c :: b := by
  rw [fromOn, List.dropWhile_append_of_pos (by intro x hx; simpa using ne_of_mem_of_not_mem hx h)]
  simp

end Search
