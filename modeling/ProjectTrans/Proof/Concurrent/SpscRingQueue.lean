import ProjectTrans.Lib.Run
import ProjectTrans.Model.Concurrent.SpscRingQueue

/-!
# The ring queue under interleaving

The consumer counts a slot as free before it has moved the value out. `popped_prefix`: as
long as the producer writes no slot in that window, and no slot the index width makes it
reuse, what is popped is a prefix of what was accepted.
-/

namespace ProjectTrans.SpscRingQueue

variable {T : Type*}

/-- The slots that are used: an index does not go beyond its width. -/
def slots (capacity : ℕ) : ℕ := min capacity (2 ^ 32)

/-- The producer does not write the slot the consumer is about to move out of, nor when
all slots an index can reach are in use. -/
def WritesApart (s : Threads T) : Access T → Prop
  | .producer =>
    match s.push with
    | .loaded _ current => s.pop ≠ .released current ∧ s.queue.currentSize < 2 ^ 32
    | _ => True
  | _ => True

/-! ## The invariant -/

/-- The head has been stored for one element more. -/
def Push.stored : Push T → ℕ
  | .advanced _ => 1
  | _ => 0

/-- The tail has been stored for one element more. -/
def Pop.stored : Pop → ℕ
  | .advanced _ => 1
  | .released _ => 1
  | _ => 0

/-- One element more has been uncounted. -/
def Pop.uncounted : Pop → ℕ
  | .released _ => 1
  | _ => 0

/-- What the producer knows: there is room, where the head is, and what it has written. -/
def PushOk (s : Threads T) : Push T → Prop
  | .idle => True
  | .called _ => True
  | .admitted _ => s.queue.currentSize < s.queue.capacity
  | .loaded _ current =>
    s.queue.currentSize < s.queue.capacity ∧ current = s.accepted.length % slots s.queue.capacity
  | .written data current =>
    current = s.accepted.length % slots s.queue.capacity ∧ s.queue.data current = data ∧
      s.accepted.length < s.popped.length + slots s.queue.capacity ∧ s.queue.currentSize < s.queue.capacity
  | .advanced data =>
    s.queue.data (s.accepted.length % slots s.queue.capacity) = data ∧
      s.accepted.length < s.popped.length + slots s.queue.capacity ∧ s.queue.currentSize < s.queue.capacity

/-- What the consumer knows: there is an element, and where. -/
def PopOk (s : Threads T) : Pop → Prop
  | .idle => True
  | .called => True
  | .admitted => s.popped.length < s.accepted.length
  | .loaded current =>
    s.popped.length < s.accepted.length ∧ current = s.popped.length % slots s.queue.capacity
  | .advanced current =>
    s.popped.length < s.accepted.length ∧ current = s.popped.length % slots s.queue.capacity
  | .released current =>
    s.popped.length < s.accepted.length ∧ current = s.popped.length % slots s.queue.capacity

/-- Elements `popped.length` to `accepted.length` are in their slots. -/
structure Inv (s : Threads T) : Prop where
  head : s.queue.headIndex = (s.accepted.length + s.push.stored) % slots s.queue.capacity
  tail : s.queue.tailIndex = (s.popped.length + s.pop.stored) % slots s.queue.capacity
  size : s.queue.currentSize + (s.popped.length + s.pop.uncounted) = s.accepted.length
  le_capacity : s.queue.currentSize ≤ s.queue.capacity
  room : s.accepted.length ≤ s.popped.length + slots s.queue.capacity
  elements : ∀ k (hk : k < s.accepted.length), s.popped.length ≤ k →
    s.queue.data (k % slots s.queue.capacity) = s.accepted[k]
  push : PushOk s s.push
  pop : PopOk s s.pop
  isPrefix : s.popped = s.accepted.take s.popped.length

/-- **The next index** is the next slot. -/
theorem nextIndex_eq {capacity current : ℕ} (h : current < slots capacity) :
    nextIndex capacity current = (current + 1) % slots capacity := by
  unfold nextIndex slots at *
  dsimp only
  by_cases hc : capacity ≤ 2 ^ 32
  · rw [min_eq_left hc] at h ⊢
    by_cases hlast : current + 1 = capacity
    · rw [hlast, Nat.mod_self]
      split
      · rfl
      · rename_i hne
        rcases hc.lt_or_eq with hlt | heq
        · exact absurd (Nat.mod_eq_of_lt hlt) hne
        · rw [heq, Nat.mod_self]
    · rw [Nat.mod_eq_of_lt (by omega : current + 1 < 2 ^ 32), if_neg hlast, Nat.mod_eq_of_lt (by omega)]
  · rw [min_eq_right (by omega)] at h ⊢
    rw [if_neg]
    have := Nat.mod_lt (current + 1) (show 0 < 2 ^ 32 by norm_num)
    omega

/-- Slots of elements less than a round apart differ. -/
theorem mod_ne {m j k : ℕ} (hlt : j < k) (hk : k < j + m) : j % m ≠ k % m := by
  intro heq
  have hdvd : m ∣ k - j := (Nat.modEq_iff_dvd' hlt.le).1 heq
  have := Nat.le_of_dvd (by omega) hdvd
  omega

theorem Inv.init (capacity : ℕ) (value : T) : Inv (init capacity value) where
  head := by simp [SpscRingQueue.init, Push.stored]
  tail := by simp [SpscRingQueue.init, Pop.stored]
  size := by simp [SpscRingQueue.init, Pop.uncounted]
  le_capacity := Nat.zero_le _
  room := Nat.zero_le _
  elements := fun k hk => absurd hk (Nat.not_lt_zero k)
  push := trivial
  pop := trivial
  isPrefix := rfl

variable {s : Threads T}

theorem slots_pos {capacity n : ℕ} (h : n < capacity) : 0 < slots capacity := by
  unfold slots
  omega

/-- What the producer knows outlasts a step of the consumer. -/
theorem PushOk.of_consumer {s s' : Threads T} {push : Push T} (h : PushOk s push)
    (haccepted : s'.accepted = s.accepted) (hcapacity : s'.queue.capacity = s.queue.capacity)
    (hsize : s'.queue.currentSize ≤ s.queue.currentSize) (hpopped : s.popped.length ≤ s'.popped.length)
    (hdata : s.accepted.length < s.popped.length + slots s.queue.capacity →
      s'.queue.data (s.accepted.length % slots s.queue.capacity) =
        s.queue.data (s.accepted.length % slots s.queue.capacity)) : PushOk s' push := by
  cases push with
  | idle => trivial
  | called data => trivial
  | admitted data =>
    have h : s.queue.currentSize < s.queue.capacity := h
    show s'.queue.currentSize < s'.queue.capacity
    omega
  | loaded data current =>
    obtain ⟨hcap, hcurrent⟩ := h
    exact ⟨by omega, by rw [haccepted, hcapacity, hcurrent]⟩
  | written data current =>
    obtain ⟨hcurrent, hvalue, hroom, hcap⟩ := h
    refine ⟨by rw [haccepted, hcapacity, hcurrent], ?_, by rw [haccepted, hcapacity]; omega, by omega⟩
    rw [hcurrent, hdata hroom, ← hcurrent, hvalue]
  | advanced data =>
    obtain ⟨hvalue, hroom, hcap⟩ := h
    exact ⟨by rw [haccepted, hcapacity, hdata hroom, hvalue], by rw [haccepted, hcapacity]; omega, by omega⟩

/-- **What the producer may write**: a slot no element is in. -/
theorem Inv.lt_room (h : Inv s) {data : T} {current : ℕ} (hpush : s.push = .loaded data current)
    (hapart : WritesApart s .producer) : s.accepted.length < s.popped.length + slots s.queue.capacity := by
  have hok := h.push
  rw [hpush] at hok
  obtain ⟨hcap, hcurrent⟩ := hok
  simp only [WritesApart, hpush] at hapart
  obtain ⟨hne, hwidth⟩ := hapart
  have hsize := h.size
  have hslots : s.queue.currentSize < slots s.queue.capacity := lt_min hcap hwidth
  cases hpop : s.pop with
  | released current' =>
    rw [hpop, Pop.uncounted] at hsize
    -- a full round ahead, the producer would be at the consumer's slot
    have hok := h.pop
    rw [hpop] at hok
    have hdiff : s.accepted.length ≠ s.popped.length + slots s.queue.capacity := by
      intro heq
      rw [heq, Nat.add_mod_right, ← hok.2] at hcurrent
      rw [hcurrent] at hne
      exact hne hpop
    omega
  | _ =>
    simp only [hpop, Pop.uncounted] at hsize
    omega

/-- **An element is counted**: its slot has been written, and the head is behind it. -/
theorem Inv.accept (h : Inv s) {data : T} (hphase : s.push = .advanced data) :
    Inv { s with
      queue := { s.queue with currentSize := s.queue.currentSize + 1 }
      push := .idle
      accepted := s.accepted ++ [data] } := by
  have hpush := h.push
  have hhead := h.head
  rw [hphase] at hpush hhead
  obtain ⟨hdata, hroom, hcap⟩ := hpush
  have hlength : (s.accepted ++ [data]).length = s.accepted.length + 1 := by
    rw [List.length_append, List.length_singleton]
  refine { head := ?_, tail := h.tail, size := ?_, le_capacity := hcap, room := ?_,
           elements := fun k hk hle => ?_, push := trivial, pop := ?_, isPrefix := ?_ }
  · simpa [Push.stored] using hhead
  · have hsize := h.size
    show s.queue.currentSize + 1 + (s.popped.length + s.pop.uncounted) = (s.accepted ++ [data]).length
    omega
  · show (s.accepted ++ [data]).length ≤ s.popped.length + slots s.queue.capacity
    omega
  · have hk : k < s.accepted.length + 1 := hlength ▸ hk
    -- an element from before, or the one that is counted now
    rcases Nat.lt_succ_iff_lt_or_eq.1 hk with hlt | rfl
    · simpa [List.getElem_append_left hlt] using h.elements k hlt hle
    · simpa using hdata
  · have hpop := h.pop
    revert hpop
    cases s.pop <;> simp only [PopOk, hlength] <;> intro hpop
    all_goals first | trivial | omega
  · have hsize := h.size
    show s.popped = (s.accepted ++ [data]).take s.popped.length
    rw [List.take_append_of_le_length (by omega)]
    exact h.isPrefix

theorem Inv.producerStep (h : Inv s) (hapart : WritesApart s .producer) : Inv (producerStep s) := by
  have hpush := h.push
  have hhead := h.head
  unfold SpscRingQueue.producerStep
  split
  · exact h
  · -- called: the size is tested
    rename_i data hphase
    rw [hphase] at hhead
    split
    · exact { h with head := hhead, push := trivial }
    · rename_i hne
      exact { h with head := hhead, push := lt_of_le_of_ne h.le_capacity hne }
  · -- admitted: the head is loaded
    rename_i data hphase
    rw [hphase] at hpush
    rw [hphase] at hhead
    exact { h with head := hhead, push := ⟨hpush, hhead⟩ }
  · -- loaded: the slot is written
    rename_i data current hphase
    have hroom := h.lt_room hphase hapart
    rw [hphase] at hpush
    rw [hphase] at hhead
    obtain ⟨hcap, hcurrent⟩ := hpush
    refine { h with head := hhead, elements := fun k hk hle => ?_,
                    push := ⟨hcurrent, Function.update_self .., hroom, hcap⟩, pop := h.pop }
    have hle : s.popped.length ≤ k := hle
    show Function.update s.queue.data current data (k % slots s.queue.capacity) = s.accepted[k]
    rw [Function.update_of_ne, h.elements k hk hle]
    rw [hcurrent]
    exact mod_ne hk (by omega)
  · -- written: the head is stored
    rename_i data current hphase
    rw [hphase] at hpush
    obtain ⟨hcurrent, hdata, hroom, hcap⟩ := hpush
    refine { h with head := ?_, push := ⟨by rw [← hcurrent]; exact hdata, hroom, hcap⟩, pop := h.pop }
    show nextIndex s.queue.capacity current = (s.accepted.length + 1) % slots s.queue.capacity
    rw [nextIndex_eq (by rw [hcurrent]; exact Nat.mod_lt _ (slots_pos hcap)), hcurrent, Nat.mod_add_mod]
  · -- advanced: the element is counted
    rename_i data hphase
    exact h.accept hphase

/-- **An element is moved out** of a slot that is neither another element's nor the one the
producer is at. -/
theorem Inv.moveOut (h : Inv s) (moved : T → T) {current : ℕ} (hphase : s.pop = .released current) :
    Inv { s with
      queue := { s.queue with data := Function.update s.queue.data current (moved (s.queue.data current)) }
      pop := .idle
      popped := s.popped ++ [s.queue.data current] } := by
  have hpop := h.pop
  have htail := h.tail
  have hsize := h.size
  rw [hphase] at hpop htail hsize
  obtain ⟨hlt, hcurrent⟩ := hpop
  have hvalue : s.queue.data current = s.accepted[s.popped.length] := by
    rw [hcurrent]
    exact h.elements s.popped.length hlt le_rfl
  have hlength : (s.popped ++ [s.queue.data current]).length = s.popped.length + 1 := by
    rw [List.length_append, List.length_singleton]
  -- the slots of the elements behind it are other slots
  have hother : ∀ k, s.popped.length < k → k < s.popped.length + slots s.queue.capacity →
      Function.update s.queue.data current (moved (s.queue.data current)) (k % slots s.queue.capacity) =
        s.queue.data (k % slots s.queue.capacity) := by
    intro k hlo hhi
    rw [Function.update_of_ne]
    rw [hcurrent]
    exact (mod_ne hlo hhi).symm
  have hroom := h.room
  refine { head := h.head, tail := ?_, size := ?_, le_capacity := h.le_capacity, room := ?_,
           elements := fun k hk hle => ?_, push := ?_, pop := trivial, isPrefix := ?_ }
  · simpa [Pop.stored] using htail
  · simpa [Pop.uncounted] using hsize
  · show s.accepted.length ≤ (s.popped ++ [s.queue.data current]).length + slots s.queue.capacity
    omega
  · have hle : s.popped.length + 1 ≤ k := hlength ▸ hle
    have hk : k < s.accepted.length := hk
    exact (hother k hle (by omega)).trans (h.elements k hk (by omega))
  · exact h.push.of_consumer rfl rfl le_rfl (by simp) fun hroom => hother _ hlt hroom
  · show s.popped ++ [s.queue.data current] = s.accepted.take (s.popped ++ [s.queue.data current]).length
    rw [hlength, hvalue, List.take_add_one, ← h.isPrefix, List.getElem?_eq_getElem hlt]
    rfl

theorem Inv.consumerStep (h : Inv s) (moved : T → T) : Inv (consumerStep moved s) := by
  have hpop := h.pop
  have htail := h.tail
  have hsize := h.size
  unfold SpscRingQueue.consumerStep
  split
  · exact h
  · -- called: the size is tested
    rename_i hphase
    rw [hphase] at htail hsize
    split
    · exact { h with tail := htail, size := hsize, pop := trivial }
    · rename_i hne
      refine { h with tail := htail, size := hsize, pop := ?_ }
      have hsize : s.queue.currentSize + (s.popped.length + 0) = s.accepted.length := hsize
      show s.popped.length < s.accepted.length
      omega
  · -- admitted: the tail is loaded
    rename_i hphase
    rw [hphase] at hpop htail hsize
    exact { h with tail := htail, size := hsize, pop := ⟨hpop, htail⟩ }
  · -- loaded: the tail is stored
    rename_i current hphase
    rw [hphase] at hpop hsize
    obtain ⟨hlt, hcurrent⟩ := hpop
    refine { h with tail := ?_, size := hsize, pop := ⟨hlt, hcurrent⟩ }
    have hslots : 0 < slots s.queue.capacity := by
      have := h.le_capacity
      have hsize : s.queue.currentSize + (s.popped.length + 0) = s.accepted.length := hsize
      exact slots_pos (n := 0) (by omega)
    show nextIndex s.queue.capacity current = (s.popped.length + 1) % slots s.queue.capacity
    rw [nextIndex_eq (by rw [hcurrent]; exact Nat.mod_lt _ hslots), hcurrent, Nat.mod_add_mod]
  · -- advanced: the element is uncounted
    rename_i current hphase
    rw [hphase] at hpop htail hsize
    obtain ⟨hlt, hcurrent⟩ := hpop
    have hsize : s.queue.currentSize + (s.popped.length + 0) = s.accepted.length := hsize
    refine { h with tail := htail, size := ?_, le_capacity := ?_, push := ?_, pop := ⟨hlt, hcurrent⟩ }
    · show s.queue.currentSize - 1 + (s.popped.length + 1) = s.accepted.length
      omega
    · exact (Nat.sub_le _ _).trans h.le_capacity
    · exact h.push.of_consumer rfl rfl (Nat.sub_le _ _) le_rfl fun _ => rfl
  · -- released: the element is moved out
    rename_i current hphase
    exact h.moveOut moved hphase

/-- One access, of either thread. -/
theorem Inv.step (h : Inv s) (moved : T → T) {access : Access T} (hapart : WritesApart s access) :
    Inv (step moved s access) := by
  cases access with
  | push data =>
    simp only [SpscRingQueue.step]
    split
    · rename_i hphase
      have hhead := h.head
      rw [hphase] at hhead
      exact { h with head := hhead, push := trivial, pop := h.pop }
    · exact h
  | producer => exact h.producerStep hapart
  | pop =>
    simp only [SpscRingQueue.step]
    split
    · rename_i hphase
      have htail := h.tail
      have hsize := h.size
      rw [hphase] at htail hsize
      exact { h with tail := htail, size := hsize, push := h.push, pop := trivial }
    · exact h
  | consumer => exact h.consumerStep moved

/-- **What is popped is a prefix of what was accepted**, in every run in which the producer
writes apart from the consumer. -/
theorem popped_prefix (capacity : ℕ) (value : T) (moved : T → T) {accesses : List (Access T)}
    (hm : Run.Meets WritesApart (SpscRingQueue.step moved) (SpscRingQueue.init capacity value) accesses) :
    let last := accesses.foldl (SpscRingQueue.step moved) (SpscRingQueue.init capacity value)
    last.popped <+: last.accepted := by
  intro last
  have hinv : Inv last := hm.invariant Inv (fun s access h hapart => h.step moved hapart)
    (Inv.init capacity value)
  rw [hinv.isPrefix]
  exact List.take_prefix _ _

instance (s : Threads T) : DecidablePred (WritesApart s) := fun access =>
  match access with
  | .producer =>
    match hpush : s.push with
    | .loaded _ current =>
      decidable_of_iff (s.pop ≠ .released current ∧ s.queue.currentSize < 2 ^ 32) (by simp [WritesApart, hpush])
    | .idle | .called _ | .admitted _ | .written _ _ | .advanced _ => isTrue (by simp [WritesApart, hpush])
  | .push _ | .pop | .consumer => isTrue trivial

/-- A ring of two slots is filled, refuses a value, and then a push and a pop go on together. -/
theorem popped_prefix_full :
    let accesses : List (Access ℕ) :=
      .push 7 :: List.replicate 5 .producer ++ .push 8 :: List.replicate 5 .producer ++
      [.push 9, .producer, .pop] ++ List.replicate 5 .consumer ++ [.push 10, .producer, .pop, .consumer,
        .consumer,
      .producer, .consumer, .producer, .consumer, .producer, .consumer, .producer]
    let last := accesses.foldl (SpscRingQueue.step id) (SpscRingQueue.init 2 0)
    last.accepted = [7, 8, 10] ∧ last.popped = [7, 8] ∧ last.popped <+: last.accepted :=
  ⟨by decide +kernel, by decide +kernel, popped_prefix 2 0 id (by decide +kernel)⟩

/-- On a full ring of one slot the producer writes between the size and the slot accesses
of the consumer: the second value is popped in place of the first. -/
theorem slot_overwritten :
    let accesses : List (Access ℕ) :=
      .push 1 :: List.replicate 5 .producer ++ .pop :: List.replicate 4 .consumer ++
      .push 2 :: List.replicate 3 .producer ++ [.consumer]
    let last := accesses.foldl (SpscRingQueue.step id) (SpscRingQueue.init 1 0)
    last.accepted = [1] ∧ last.popped = [2] ∧ ¬last.popped <+: last.accepted := by
  decide

end ProjectTrans.SpscRingQueue
