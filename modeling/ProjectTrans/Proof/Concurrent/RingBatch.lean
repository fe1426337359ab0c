import Mathlib.Logic.Function.Iterate
import ProjectTrans.Model.Concurrent.SpscRingQueue

/-!
# What `pop(n)` of the ring queue drops

`pop(n)` pops one element after the other and returns nothing when the queue runs dry; what
it has popped by then is gone. `popMany_keeps_iff`: the queue is as before exactly when it
has enough elements, or had none.
-/

namespace ProjectTrans.SpscRingQueue

variable {T : Type*} {moved : T → T}

/-- The elements at so many indices from one on. -/
def elementsFrom (capacity : ℕ) (data : ℕ → T) : ℕ → ℕ → List T
  | 0, _ => []
  | n + 1, current => data current :: elementsFrom capacity data n (nextIndex capacity current)

/-- The elements of the queue, the next to be popped first. -/
def elements (q : SpscRingQueue T) : List T := elementsFrom q.capacity q.data q.currentSize q.tailIndex

theorem elementsFrom_length (capacity : ℕ) (data : ℕ → T) (n current : ℕ) :
    (elementsFrom capacity data n current).length = n := by
  induction n generalizing current with
  | zero => rfl
  | succ n ih => rw [elementsFrom, List.length_cons, ih]

@[simp] theorem elements_length (q : SpscRingQueue T) : q.elements.length = q.currentSize :=
  elementsFrom_length ..

/-- `pop` is the run of its accesses, when the producer does nothing meanwhile. -/
theorem pop_eq_accesses (s : Threads T) (h : s.pop = .called) :
    (consumerStep moved)^[5] s =
      { s with
        queue := (s.queue.pop moved).1
        pop := .idle
        popped := s.popped ++ (s.queue.pop moved).2.toList } := by
  obtain ⟨q, push, p, accepted, popped⟩ := s
  simp only at h
  subst h
  by_cases hempty : q.currentSize = 0
  · simp [consumerStep, pop, hempty]
  · simp [consumerStep, pop, hempty]

/-! ## The batch -/

variable {q : SpscRingQueue T}

theorem pop_of_empty (h : q.currentSize = 0) : q.pop moved = (q, none) := if_pos h

theorem pop_of_nonempty (moved : T → T) (h : q.currentSize ≠ 0) :
    ∃ data, (q.pop moved).2 = some data ∧ (q.pop moved).1.currentSize = q.currentSize - 1 := by
  rw [pop, if_neg h]
  exact ⟨_, rfl, rfl⟩

/-- **The batch runs dry** exactly when it asks for more than there is, and then the queue
is empty. -/
theorem popMany_none (moved : T → T) (n : ℕ) (result : List T) (q : SpscRingQueue T) :
    ((popMany moved n result q).2 = none ↔ q.currentSize < n) ∧
      (q.currentSize < n → (popMany moved n result q).1.currentSize = 0) := by
  induction n generalizing result q with
  | zero => simp [popMany]
  | succ n ih =>
    by_cases hempty : q.currentSize = 0
    · rw [popMany, pop_of_empty hempty]
      simp [hempty]
    · obtain ⟨data, hdata, hsize⟩ := pop_of_nonempty moved hempty
      have hrest := ih (result ++ [data]) (q.pop moved).1
      have hpop : q.pop moved = ((q.pop moved).1, some data) := by rw [← hdata]
      rw [popMany, hpop]
      simp only
      rw [hsize] at hrest
      exact ⟨hrest.1.trans (by omega), fun h => hrest.2 (by omega)⟩

/-- **When a failed batch leaves the queue as it was**: when it does not fail, or there was
nothing to lose. -/
theorem popMany_keeps_iff (moved : T → T) (n : ℕ) (q : SpscRingQueue T) :
    ((popMany moved n [] q).2 = none → (popMany moved n [] q).1.elements = q.elements) ↔
      n ≤ q.currentSize ∨ q.currentSize = 0 := by
  obtain ⟨hnone, hdry⟩ := popMany_none moved n [] q
  rw [hnone]
  constructor
  · intro h
    by_contra hno
    simp only [not_or, Nat.not_le] at hno
    have hlength := congrArg List.length (h hno.1)
    rw [elements_length, elements_length, hdry hno.1] at hlength
    exact hno.2 hlength.symm
  · rintro (henough | hempty) hshort
    · omega
    · have hafter : (popMany moved n [] q).1.elements = [] := by
        rw [← List.length_eq_zero_iff, elements_length, hdry hshort]
      have hbefore : q.elements = [] := by rw [← List.length_eq_zero_iff, elements_length, hempty]
      rw [hafter, hbefore]

/-- A batch of two from a queue of one. -/
theorem popMany_drops :
    ¬ ∀ (n : ℕ) (q : SpscRingQueue ℕ),
      (popMany id n [] q).2 = none → (popMany id n [] q).1.elements = q.elements := by
  intro h
  have hkept := h 2 ⟨4, 1, 0, fun _ => 7, 1⟩ (by decide)
  exact absurd hkept (by decide)

end ProjectTrans.SpscRingQueue
