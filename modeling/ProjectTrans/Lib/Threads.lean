import Mathlib.Tactic
import Mathlib.Algebra.BigOperators.Group.Finset.Piecewise

/-!
# What threads hold together

Each of finitely many threads is in a phase, and every phase has a weight. When one thread
changes its phase, the total changes by what that thread gives up and takes.
-/

namespace Threads

variable {ι P M : Type*} [Fintype ι] [AddCommMonoid M]

/-- The total weight of the threads. -/
def total (w : P → M) (threads : ι → P) : M := ∑ i, w (threads i)

/-- A thread's weight is part of the total. -/
theorem le_total (w : P → ℕ) (threads : ι → P) (i : ι) : w (threads i) ≤ total w threads :=
  Finset.single_le_sum (f := fun i => w (threads i)) (fun _ _ => Nat.zero_le _) (Finset.mem_univ i)

/-- Threads without weight have none together. -/
theorem total_eq_zero {w : P → M} {threads : ι → P} (h : ∀ i, w (threads i) = 0) : total w threads = 0 :=
  Finset.sum_eq_zero fun i _ => h i

/-- Threads that each have no less have no less together. -/
theorem total_mono {w : P → ℕ} {threads threads' : ι → P} (h : ∀ i, w (threads i) ≤ w (threads' i)) :
    total w threads ≤ total w threads' :=
  Finset.sum_le_sum fun i _ => h i

variable [DecidableEq ι]

/-- **One thread changes its phase.** -/
theorem total_update (w : P → M) (threads : ι → P) (i : ι) (p : P) :
    total w (Function.update threads i p) + w (threads i) = total w threads + w p := by
  have hsplit : ∀ f : ι → P, total w f = w (f i) + ∑ j ∈ Finset.univ.erase i, w (f j) :=
    fun f => (Finset.add_sum_erase _ _ (Finset.mem_univ i)).symm
  have hrest : ∑ j ∈ Finset.univ.erase i, w (Function.update threads i p j) =
      ∑ j ∈ Finset.univ.erase i, w (threads j) := by
    refine Finset.sum_congr rfl fun j hj => ?_
    rw [Function.update_of_ne (Finset.ne_of_mem_erase hj)]
  rw [hsplit (Function.update threads i p), hsplit threads, hrest, Function.update_self]
  abel

/-- A phase of the same weight changes nothing. -/
theorem total_update_of_eq [IsRightCancelAdd M] (w : P → M) (threads : ι → P) {i : ι} {p : P}
    (h : w p = w (threads i)) : total w (Function.update threads i p) = total w threads :=
  add_right_cancel ((total_update w threads i p).trans (by rw [h]))

end Threads
