import Mathlib.Data.List.Basic

/-!
# A FIFO of bounded capacity

What is put in while it is full is dropped. A batch is put in as far as there is room for
it (`elements_pushAll`).
-/

/-- At most `capacity` elements, the oldest first. -/
structure BoundedFifo (α : Type*) (capacity : ℕ) where
  elements : List α
  length_le : elements.length ≤ capacity

namespace BoundedFifo

variable {α : Type*} {capacity : ℕ}

/-- Nothing in it. -/
def empty (α : Type*) (capacity : ℕ) : BoundedFifo α capacity := ⟨[], Nat.zero_le _⟩

/-- Put in at the end, if there is room. -/
def push (f : BoundedFifo α capacity) (a : α) : BoundedFifo α capacity :=
  if h : f.elements.length < capacity then ⟨f.elements ++ [a], by rw [List.length_append]; exact h⟩ else f

/-- One after the other. -/
def pushAll (f : BoundedFifo α capacity) (as : List α) : BoundedFifo α capacity := as.foldl push f

/-- Take out the oldest, if there is one. -/
def pop (f : BoundedFifo α capacity) : BoundedFifo α capacity × Option α :=
  (⟨f.elements.tail, Nat.le_trans f.elements.tail_sublist.length_le f.length_le⟩, f.elements.head?)

/-- The number of elements in it. -/
def size (f : BoundedFifo α capacity) : ℕ := f.elements.length

@[simp] theorem elements_empty : (empty α capacity).elements = [] := rfl

@[simp] theorem elements_pop (f : BoundedFifo α capacity) : f.pop.1.elements = f.elements.tail := rfl

@[simp] theorem snd_pop (f : BoundedFifo α capacity) : f.pop.2 = f.elements.head? := rfl

theorem elements_push (f : BoundedFifo α capacity) (a : α) :
    (f.push a).elements = if f.elements.length < capacity then f.elements ++ [a] else f.elements := by
  unfold push
  split <;> rfl

/-- **A batch** is put in as far as there is room. -/
theorem elements_pushAll (f : BoundedFifo α capacity) (as : List α) :
    (f.pushAll as).elements = f.elements ++ as.take (capacity - f.elements.length) := by
  induction as generalizing f with
  | nil => simp [pushAll]
  | cons a as ih =>
    have hrest := ih (f.push a)
    rw [elements_push] at hrest
    rw [pushAll, List.foldl_cons, ← pushAll, hrest]
    split
    · rename_i hroom
      have hleft : capacity - f.elements.length = capacity - (f.elements ++ [a]).length + 1 := by
        rw [List.length_append, List.length_singleton]
        omega
      rw [hleft, List.take_succ_cons, List.append_assoc, List.singleton_append]
    · rename_i hfull
      have hleft : capacity - f.elements.length = 0 := by omega
      rw [hleft, List.take_zero, List.take_zero]

end BoundedFifo
