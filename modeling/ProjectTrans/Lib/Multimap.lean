import Mathlib.Data.List.Perm.Basic
import Mathlib.Data.List.TakeWhile
import Mathlib.Tactic

/-!
# Multimaps

Elements in the order of their keys, those of one key in the order in which they came. An
element is put behind all whose keys are not greater than its own; the elements up to a
bound are a prefix.
-/

namespace Multimap

variable {α κ : Type*} [LinearOrder κ] (key : α → κ)

/-- The elements up to a bound. -/
def upTo (bound : κ) (l : List α) : List α := l.takeWhile (key · ≤ bound)

/-- The elements behind a bound. -/
def behind (bound : κ) (l : List α) : List α := l.dropWhile (key · ≤ bound)

/-- Put an element behind those whose keys are not greater. -/
def insert (a : α) (l : List α) : List α := upTo key (key a) l ++ a :: behind key (key a) l

variable (rank : α → ℕ)

/-- By key, and at one key by rank. -/
def Before (a b : α) : Prop := key a < key b ∨ key a = key b ∧ rank a < rank b

/-- Each element stands before all that follow it. -/
def Ordered (l : List α) : Prop := l.Pairwise (Before key rank)

theorem upTo_append_behind (bound : κ) (l : List α) : upTo key bound l ++ behind key bound l = l :=
  List.takeWhile_append_dropWhile

/-- The multimap has one element more. -/
theorem insert_perm (a : α) (l : List α) : (insert key a l).Perm (a :: l) := by
  have hsplit := upTo_append_behind key (key a) l
  calc (insert key a l).Perm (a :: (upTo key (key a) l ++ behind key (key a) l)) := List.perm_middle
    _ = a :: l := by rw [hsplit]

variable {key rank} {l : List α} {a b : α} {bound : κ}

theorem Before.key_le (h : Before key rank a b) : key a ≤ key b := by
  rcases h with hlt | ⟨heq, -⟩
  · exact hlt.le
  · exact heq.le

theorem key_le_of_mem_upTo (h : a ∈ upTo key bound l) : key a ≤ bound := by
  have := List.mem_takeWhile_imp h
  simpa using this

/-- **What is behind a bound is greater.** -/
theorem lt_key_of_mem_behind (hl : Ordered key rank l) (h : a ∈ behind key bound l) : bound < key a := by
  unfold Ordered at hl
  unfold behind at h
  induction l with
  | nil => exact absurd h List.not_mem_nil
  | cons c l ih =>
    rw [List.pairwise_cons] at hl
    by_cases hc : key c ≤ bound
    · rw [List.dropWhile_cons_of_pos (by simpa using hc)] at h
      exact ih hl.2 h
    · rw [List.dropWhile_cons_of_neg (by simpa using hc)] at h
      have hc : bound < key c := not_le.1 hc
      rcases List.mem_cons.1 h with rfl | hmem
      · exact hc
      · exact hc.trans_le (hl.1 a hmem).key_le

theorem Ordered.upTo (hl : Ordered key rank l) (bound : κ) : Ordered key rank (upTo key bound l) :=
  hl.sublist (List.takeWhile_sublist _)

theorem Ordered.behind (hl : Ordered key rank l) (bound : κ) : Ordered key rank (behind key bound l) :=
  hl.sublist (List.dropWhile_sublist _)

/-- **Insertion keeps the order**, where ranks are given in the order of insertion. -/
theorem Ordered.insert (hl : Ordered key rank l) (hrank : ∀ b ∈ l, rank b < rank a) :
    Ordered key rank (insert key a l) := by
  have hbehind : ∀ b ∈ Multimap.behind key (key a) l, Before key rank a b :=
    fun b hb => .inl (lt_key_of_mem_behind hl hb)
  refine List.pairwise_append.2 ⟨hl.upTo (key a), List.pairwise_cons.2 ⟨hbehind, hl.behind (key a)⟩, ?_⟩
  intro b hb c hc
  have hle := key_le_of_mem_upTo hb
  have hmem := (List.takeWhile_sublist _).subset hb
  have hab : Before key rank b a := by
    rcases hle.lt_or_eq with hlt | heq
    · exact .inl hlt
    · exact .inr ⟨heq, hrank b hmem⟩
  rcases List.mem_cons.1 hc with rfl | hc
  · exact hab
  · exact .inl (hle.trans_lt (lt_key_of_mem_behind hl hc))

end Multimap
