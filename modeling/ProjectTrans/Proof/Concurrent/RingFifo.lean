import ProjectTrans.Lib.BoundedFifo
import ProjectTrans.Proof.Concurrent.RingBatch
import ProjectTrans.Proof.Concurrent.SpscRingQueue

/-!
# The ring queue as a bounded FIFO

Capacity and size have the width of `std::size_t`, the indices have 32 bits. As long as no
element is put in behind 2^32 others, the queue and a FIFO of its capacity answer every
call alike (`refines_fifo`); the element that is put in behind them goes into the slot of
the oldest (`oldest_overwritten`).
-/

namespace ProjectTrans.SpscRingQueue

variable {T : Type*} {moved : T → T} {capacity : ℕ}

/-- A call on the FIFO. -/
def Call.onFifo (f : BoundedFifo T capacity) : Call T → BoundedFifo T capacity × Option T
  | .push data => (f.push data, none)
  | .pushAll datas => (f.pushAll datas, none)
  | .pop => f.pop

/-- The elements a call is to put in. -/
def Call.datas : Call T → List T
  | .push data => [data]
  | .pushAll datas => datas
  | .pop => []

/-- The call puts in no element behind 2^32 others. -/
def WithinWidth (q : SpscRingQueue T) (call : Call T) : Prop :=
  q.capacity ≤ 2 ^ 32 ∨ q.currentSize + call.datas.length ≤ 2 ^ 32

instance (q : SpscRingQueue T) (call : Call T) : Decidable (WithinWidth q call) :=
  inferInstanceAs (Decidable (_ ∨ _))

/-- The queue as it is constructed. -/
def construct (capacity : ℕ) (value : T) : SpscRingQueue T := (init capacity value).queue

/-- What the call returns, and the size behind it. -/
def observe (moved : T → T) (q : SpscRingQueue T) (call : Call T) : Option (Option T × ℕ) :=
  some ((q.call moved call).2, (q.call moved call).1.size)

/-- What the call returns on the FIFO, and the size behind it. -/
def observeFifo (f : BoundedFifo T capacity) (call : Call T) : Option (Option T × ℕ) :=
  some ((call.onFifo f).2, (call.onFifo f).1.size)

/-- `push` is the run of its accesses, when the consumer does nothing meanwhile. -/
theorem push_eq_accesses (s : Threads T) {data : T} (h : s.push = .called data) :
    producerStep^[5] s =
      { s with
        queue := s.queue.push data
        push := .idle
        accepted := if s.queue.currentSize = s.queue.capacity then s.accepted else s.accepted ++ [data] } := by
  obtain ⟨q, p, pop, accepted, popped⟩ := s
  simp only at h
  subst h
  by_cases hfull : q.currentSize = q.capacity
  · simp [producerStep, push, hfull]
  · simp [producerStep, push, hfull]

/-! ## The indices -/

variable {q : SpscRingQueue T}

/-- The head is as far ahead of the tail as there are elements. -/
structure Tied (q : SpscRingQueue T) : Prop where
  size_le : q.currentSize ≤ slots q.capacity
  tail_lt : 0 < slots q.capacity → q.tailIndex < slots q.capacity
  head : q.headIndex = (q.tailIndex + q.currentSize) % slots q.capacity

theorem Tied.construct (capacity : ℕ) (value : T) : Tied (construct capacity value) where
  size_le := Nat.zero_le _
  tail_lt := fun h => h
  head := (Nat.zero_mod _).symm

/-- **The elements by their places**: counted on from the first, around the ring. -/
theorem elementsFrom_eq (data : ℕ → T) (n : ℕ) {current : ℕ} (h : current < slots capacity) :
    elementsFrom capacity data n current = (List.range n).map fun k => data ((current + k) % slots capacity) := by
  induction n generalizing current with
  | zero => rfl
  | succ n ih =>
    have hpos : 0 < slots capacity := by omega
    have hnext : nextIndex capacity current = (current + 1) % slots capacity := nextIndex_eq h
    have hfirst : (current + 0) % slots capacity = current := Nat.mod_eq_of_lt h
    rw [elementsFrom, hnext, ih (Nat.mod_lt _ hpos), List.range_succ_eq_map, List.map_cons, List.map_map, hfirst]
    congr 1
    apply List.map_congr_left
    intro k _
    have hplace : (current + 1) % slots capacity + k ≡ current + (k + 1) [MOD slots capacity] := by
      rw [← Nat.add_assoc, Nat.add_right_comm current k 1]
      exact (Nat.mod_modEq _ _).add_right k
    rw [Function.comp_apply, hplace]

theorem Tied.elements_eq (h : Tied q) (hpos : 0 < slots q.capacity) :
    q.elements = (List.range q.currentSize).map fun k => q.data ((q.tailIndex + k) % slots q.capacity) :=
  elementsFrom_eq q.data q.currentSize (h.tail_lt hpos)

/-- **A push with room**: the element goes behind the others, into a slot of its own. -/
theorem Tied.push (h : Tied q) (data : T) (hcapacity : q.currentSize < q.capacity)
    (hwidth : q.currentSize < 2 ^ 32) : Tied (q.push data) ∧ (q.push data).elements = q.elements ++ [data] := by
  have hroom : q.currentSize < slots q.capacity := lt_min hcapacity hwidth
  have hpos : 0 < slots q.capacity := by omega
  have hhead : q.headIndex < slots q.capacity := by
    rw [h.head]
    exact Nat.mod_lt _ hpos
  have hpush : q.push data =
      { q with
        data := Function.update q.data q.headIndex data
        headIndex := nextIndex q.capacity q.headIndex
        currentSize := q.currentSize + 1 } := if_neg hcapacity.ne
  have htied : Tied (q.push data) := by
    rw [hpush]
    refine ⟨hroom, h.tail_lt, ?_⟩
    show nextIndex q.capacity q.headIndex = (q.tailIndex + (q.currentSize + 1)) % slots q.capacity
    -- the head moves one on, and the size with it
    rw [nextIndex_eq hhead, h.head, Nat.mod_add_mod, Nat.add_assoc]
  have hafter := htied.elements_eq (by rw [hpush]; exact hpos)
  refine ⟨htied, ?_⟩
  rw [hafter, h.elements_eq hpos, hpush, List.range_succ, List.map_append, List.map_singleton]
  congr 1
  · -- the slots of the others are not the one that is written
    apply List.map_congr_left
    intro k hk
    have hk : k < q.currentSize := List.mem_range.1 hk
    have hne : (q.tailIndex + k) % slots q.capacity ≠ q.headIndex := by
      rw [h.head]
      exact mod_ne (by omega) (by omega)
    exact Function.update_of_ne hne data q.data
  · simp only
    rw [← h.head, Function.update_self]

/-- A push without room. -/
theorem push_of_full (h : q.currentSize = q.capacity) (data : T) : q.push data = q := if_pos h

@[simp] theorem push_capacity (q : SpscRingQueue T) (data : T) : (q.push data).capacity = q.capacity := by
  unfold push
  split <;> rfl

@[simp] theorem pop_capacity (q : SpscRingQueue T) (moved : T → T) : (q.pop moved).1.capacity = q.capacity := by
  unfold SpscRingQueue.pop
  split <;> rfl

/-- **A pop**: what comes out is the oldest element, and the others stay where they are. -/
theorem Tied.pop (h : Tied q) (moved : T → T) :
    Tied (q.pop moved).1 ∧ (q.pop moved).1.elements = q.elements.tail ∧ (q.pop moved).2 = q.elements.head? := by
  -- an empty ring is left as it is
  by_cases hempty : q.currentSize = 0
  · have hnone : q.elements = [] := List.length_eq_zero_iff.1 (by rw [elements_length, hempty])
    rw [pop_of_empty hempty]
    refine ⟨h, ?_, ?_⟩ <;> rw [hnone] <;> rfl
  have hsize := h.size_le
  have hpos : 0 < slots q.capacity := by omega
  have htail := h.tail_lt hpos
  obtain ⟨n, hn⟩ := Nat.exists_eq_succ_of_ne_zero hempty
  have hpop : q.pop moved =
      ({ q with
          tailIndex := nextIndex q.capacity q.tailIndex
          currentSize := n
          data := Function.update q.data q.tailIndex (moved (q.data q.tailIndex)) },
        some (q.data q.tailIndex)) := by
    rw [SpscRingQueue.pop, if_neg hempty, hn, Nat.succ_sub_one]
  have hnext : nextIndex q.capacity q.tailIndex = (q.tailIndex + 1) % slots q.capacity := nextIndex_eq htail
  have hcons : q.elements = q.data q.tailIndex :: elementsFrom q.capacity q.data n
      (nextIndex q.capacity q.tailIndex) := by
    rw [elements, hn, elementsFrom]
  have hlt : nextIndex q.capacity q.tailIndex < slots q.capacity := by
    rw [hnext]
    exact Nat.mod_lt _ hpos
  rw [hpop]
  refine ⟨⟨by simp only; omega, fun _ => hlt, ?_⟩, ?_, ?_⟩
  · show q.headIndex = (nextIndex q.capacity q.tailIndex + n) % slots q.capacity
    rw [h.head, hnext, Nat.mod_add_mod, hn, Nat.succ_eq_add_one, Nat.add_right_comm, Nat.add_assoc]
  · -- the slot that is moved out of is not one of the others'
    rw [hcons, List.tail_cons, elements, elementsFrom_eq _ _ hlt, elementsFrom_eq _ _ hlt]
    apply List.map_congr_left
    intro k hk
    have hk : k < n := List.mem_range.1 hk
    apply Function.update_of_ne
    rw [hnext, Nat.mod_add_mod]
    nth_rewrite 2 [← Nat.mod_eq_of_lt htail]
    exact (mod_ne (by omega) (by omega)).symm
  · rw [hcons, List.head?_cons]

/-! ## The refinement -/

/-- The ring holds what the FIFO does. -/
structure Refines (q : SpscRingQueue T) (f : BoundedFifo T capacity) : Prop where
  tied : Tied q
  capacity_eq : q.capacity = capacity
  elements_eq : q.elements = f.elements

variable {f : BoundedFifo T capacity}

theorem Refines.construct (capacity : ℕ) (value : T) :
    Refines (construct capacity value) (BoundedFifo.empty T capacity) where
  tied := Tied.construct capacity value
  capacity_eq := rfl
  elements_eq := rfl

theorem Refines.size_eq (h : Refines q f) : q.size = f.size := by
  rw [size, ← elements_length, h.elements_eq, BoundedFifo.size]

/-- One element, that is not put in behind 2^32 others. -/
theorem Refines.push (h : Refines q f) (data : T) (hwidth : q.capacity ≤ 2 ^ 32 ∨ q.currentSize < 2 ^ 32) :
    Refines (q.push data) (f.push data) := by
  have hsize : q.currentSize = f.elements.length := h.size_eq
  have hle : f.elements.length ≤ capacity := f.length_le
  have hcapacity := h.capacity_eq
  by_cases hfull : q.currentSize = q.capacity
  · have hsame : f.push data = f := dif_neg (by omega)
    rw [push_of_full hfull, hsame]
    exact h
  · have hroom : q.currentSize < q.capacity := by omega
    obtain ⟨htied, helements⟩ := h.tied.push data hroom (by omega)
    refine ⟨htied, by rw [push_capacity, hcapacity], ?_⟩
    rw [helements, BoundedFifo.elements_push, if_pos (by omega), h.elements_eq]

theorem push_currentSize_le (q : SpscRingQueue T) (data : T) : (q.push data).currentSize ≤ q.currentSize + 1 := by
  unfold SpscRingQueue.push
  split
  · exact Nat.le_succ _
  · exact le_rfl

/-- A vector of elements. -/
theorem Refines.pushAll (datas : List T) (h : Refines q f)
    (hwidth : q.capacity ≤ 2 ^ 32 ∨ q.currentSize + datas.length ≤ 2 ^ 32) :
    Refines (q.pushAll datas) (f.pushAll datas) := by
  induction datas generalizing q f with
  | nil => exact h
  | cons data datas ih =>
    rw [List.length_cons] at hwidth
    have hgrowth := push_currentSize_le q data
    have hfirst := h.push data (by omega)
    apply ih hfirst
    rw [push_capacity]
    omega

/-- **One call**: both stay alike, and answer alike. -/
theorem Refines.call (h : Refines q f) (moved : T → T) {call : Call T} (hwidth : WithinWidth q call) :
    Refines (q.call moved call).1 (call.onFifo f).1 ∧ (q.call moved call).2 = (call.onFifo f).2 := by
  cases call with
  | push data =>
    refine ⟨h.push data ?_, rfl⟩
    rcases hwidth with hcapacity | hsize
    · exact .inl hcapacity
    · exact .inr hsize
  | pushAll datas => exact ⟨h.pushAll datas hwidth, rfl⟩
  | pop =>
    obtain ⟨htied, htail, hhead⟩ := h.tied.pop moved
    refine ⟨⟨htied, (pop_capacity q moved).trans h.capacity_eq, ?_⟩, ?_⟩
    · rw [SpscRingQueue.call, htail, h.elements_eq]
      rfl
    · rw [SpscRingQueue.call, hhead, h.elements_eq]
      rfl

/-! ## The slots -/

theorem slots_le (capacity : ℕ) : slots capacity ≤ capacity := min_le_left _ _

/-- The slot a push writes is one of the queue's. -/
theorem Refines.pushSlots_lt (h : Refines q f) : ∀ i ∈ q.pushSlots, i < q.capacity := by
  intro i hi
  have hle : q.currentSize ≤ q.capacity := h.tied.size_le.trans (slots_le _)
  unfold pushSlots at hi
  split at hi
  · cases hi
  · rename_i hne
    have hpos : 0 < slots q.capacity := slots_pos (lt_of_le_of_ne hle hne)
    rw [List.mem_singleton.1 hi, h.tied.head]
    exact (Nat.mod_lt _ hpos).trans_le (slots_le _)

theorem Refines.pushAllSlots_lt (datas : List T) (h : Refines q f)
    (hwidth : q.capacity ≤ 2 ^ 32 ∨ q.currentSize + datas.length ≤ 2 ^ 32) :
    ∀ i ∈ q.pushAllSlots datas, i < q.capacity := by
  induction datas generalizing q f with
  | nil =>
    intro i hi
    cases hi
  | cons data datas ih =>
    rw [List.length_cons] at hwidth
    have hgrowth := push_currentSize_le q data
    have hfirst := h.push data (by omega)
    have hrest := ih hfirst (by rw [push_capacity]; omega)
    rw [push_capacity] at hrest
    intro i hi
    rcases List.mem_append.1 hi with hi | hi
    · exact h.pushSlots_lt i hi
    · exact hrest i hi

/-- **Every slot a call uses** is one of the queue's. -/
theorem Refines.usedSlots_lt (h : Refines q f) {call : Call T} (hwidth : WithinWidth q call) :
    ∀ i ∈ q.usedSlots call, i < q.capacity := by
  cases call with
  | push data => exact h.pushSlots_lt
  | pushAll datas => exact h.pushAllSlots_lt datas hwidth
  | pop =>
    intro i hi
    have hi : i ∈ if q.currentSize = 0 then [] else [q.tailIndex] := hi
    split at hi
    · cases hi
    · rename_i hne
      have hsize := h.tied.size_le
      have hpos : 0 < slots q.capacity := by omega
      rw [List.mem_singleton.1 hi]
      exact (h.tied.tail_lt hpos).trans_le (slots_le _)

/-! ## Runs -/

/-- **The ring queue refines the bounded FIFO**, in every sequence of calls none of which
puts an element in behind 2^32 others: each call returns the same and leaves as many
elements, and the slots it uses are the queue's. -/
theorem refines_fifo (capacity : ℕ) (value : T) (moved : T → T) {calls : List (Call T)}
    (hm : Run.Meets WithinWidth (fun q call => (q.call moved call).1) (construct capacity value) calls) :
    Run.trace (observe moved) (fun q call => (q.call moved call).1) (construct capacity value) calls =
        Run.trace observeFifo (fun f call => (call.onFifo f).1) (BoundedFifo.empty T capacity) calls ∧
      Run.Meets (fun q call => ∀ i ∈ q.usedSlots call, i < q.capacity) (fun q call => (q.call moved call).1)
        (construct capacity value) calls := by
  constructor
  · refine hm.trace_eq Refines (fun q f call h hwidth => ?_) (Refines.construct capacity value)
    obtain ⟨hnext, hanswer⟩ := h.call moved hwidth
    refine ⟨hnext, ?_⟩
    rw [observe, observeFifo, hanswer, hnext.size_eq]
  · refine hm.imp_of_invariant (fun q => ∃ f : BoundedFifo T capacity, Refines q f) (fun q call h hwidth => ?_)
      ⟨_, Refines.construct capacity value⟩
    obtain ⟨f, h⟩ := h
    exact ⟨⟨_, (h.call moved hwidth).1⟩, h.usedSlots_lt hwidth⟩

/-- A ring of two slots, full and empty in between. -/
theorem refines_fifo_two :
    let calls : List (Call ℕ) := [.pushAll [1, 2, 3], .pop, .push 4, .pop, .pop, .pop]
    Run.trace (observe id) (fun q call => (q.call id call).1) (construct 2 0) calls =
        [(none, 2), (some 1, 1), (none, 2), (some 2, 1), (some 4, 0), (none, 0)] ∧
      Run.trace (observe id) (fun q call => (q.call id call).1) (construct 2 0) calls =
        Run.trace observeFifo (fun f call => (call.onFifo f).1) (BoundedFifo.empty ℕ 2) calls :=
  ⟨by decide, (refines_fifo 2 0 id (by decide)).1⟩

/-- An element put in behind 2^32 others is the next to come out of the ring. -/
theorem pop_push_behind (capacity : ℕ) (hcapacity : 2 ^ 32 < capacity) (value data : T) (moved : T → T)
    {datas : List T} (hlength : datas.length = 2 ^ 32) :
    let q := (construct capacity value).pushAll datas
    ((q.push data).pop moved).2 = some data := by
  intro q
  have hzero : (construct capacity value).currentSize = 0 := rfl
  have hsize : (construct capacity value).currentSize + datas.length ≤ 2 ^ 32 := by omega
  have h : Refines q ((BoundedFifo.empty T capacity).pushAll datas) :=
    (Refines.construct capacity value).pushAll datas (.inr hsize)
  have hcount : q.currentSize = 2 ^ 32 := by
    have hfifo : q.currentSize = ((BoundedFifo.empty T capacity).pushAll datas).elements.length := h.size_eq
    rw [hfifo, BoundedFifo.elements_pushAll, BoundedFifo.elements_empty, List.nil_append, List.length_take,
      hlength]
    exact min_eq_right hcapacity.le
  have hslots : slots q.capacity = 2 ^ 32 := by
    rw [h.capacity_eq]
    exact min_eq_right hcapacity.le
  -- the head has come around to the tail
  have hhead : q.headIndex = q.tailIndex := by
    have htail := h.tied.tail_lt (by rw [hslots]; exact Nat.two_pow_pos 32)
    rw [h.tied.head, hcount, hslots, Nat.add_mod_right, Nat.mod_eq_of_lt (hslots ▸ htail)]
  have hroom : q.currentSize ≠ q.capacity := by
    rw [hcount, h.capacity_eq]
    exact hcapacity.ne
  rw [SpscRingQueue.push, if_neg hroom, SpscRingQueue.pop, if_neg (Nat.succ_ne_zero _)]
  simp only
  rw [hhead, Function.update_self]

/-- Through a ring of 2^32 + 1 slots, the vector of 2^32 zeros and a one behind them: what
comes out first is the one. -/
theorem oldest_overwritten :
    ¬ ∀ (capacity value : ℕ) (calls : List (Call ℕ)),
      Run.trace (observe id) (fun q call => (q.call id call).1) (construct capacity value) calls =
        Run.trace observeFifo (fun f call => (call.onFifo f).1) (BoundedFifo.empty ℕ capacity) calls := by
  intro h
  have hlast : ∀ datas : List ℕ, datas.length = 2 ^ 32 → datas.head? = some 1 := by
    intro datas hlength
    have heq := h (2 ^ 32 + 1) 0 [.pushAll datas, .push 1, .pop]
    have hring := pop_push_behind (2 ^ 32 + 1) (Nat.lt_succ_self _) 0 1 id hlength
    simp only [Run.trace, observe, observeFifo, Option.toList_some, List.cons_append, List.nil_append,
      List.cons.injEq, Prod.mk.injEq, and_true, true_and, call, Call.onFifo] at heq
    obtain ⟨-, -, hpop, -⟩ := heq
    have hwhole : datas.take (2 ^ 32 + 1) = datas := List.take_of_length_le (by omega)
    rw [hring, BoundedFifo.snd_pop, BoundedFifo.elements_push, BoundedFifo.elements_pushAll,
      BoundedFifo.elements_empty, List.nil_append, List.length_nil, Nat.sub_zero, hwhole, hlength,
      if_pos (Nat.lt_succ_self _)] at hpop
    have hne : datas ≠ [] := List.ne_nil_of_length_pos (by omega)
    rw [hpop, List.head?_append_of_ne_nil _ hne]
  have hzero := hlast (List.replicate (2 ^ 32) 0) List.length_replicate
  rw [List.head?_replicate] at hzero
  simp at hzero

end ProjectTrans.SpscRingQueue
