import Mathlib.Algebra.Group.Nat.Defs
import Mathlib.Logic.Function.Basic
import Mathlib.Tactic.Common

/-!
# The ring queue, access by access (`concurrent/container/spsc_ring_queue`)

One thread pushes and one pops. Every load and store of an index or of the size, and every
access to a slot, is a step of its own; the capacity never changes, so its loads are not.
An index is a `uint32_t`, the size and the capacity are `std::size_t`.
-/

namespace ProjectTrans

variable {T : Type*}

/-- `SpscRingQueue`. -/
structure SpscRingQueue (T : Type*) where
  capacity : ℕ
  headIndex : ℕ
  tailIndex : ℕ
  data : ℕ → T
  currentSize : ℕ

namespace SpscRingQueue

/-- The index after `current`. -/
def nextIndex (capacity current : ℕ) : ℕ :=
  let nextIndex := (current + 1) % 2 ^ 32
  if nextIndex = capacity then 0 else nextIndex

/-- Where the producer is in `push`; what it has loaded so far. -/
inductive Push (T : Type*)
  | idle
  | called (data : T)
  | admitted (data : T)
  | loaded (data : T) (current : ℕ)
  | written (data : T) (current : ℕ)
  | advanced (data : T)
  deriving DecidableEq

/-- Where the consumer is in `pop`. -/
inductive Pop
  | idle
  | called
  | admitted
  | loaded (current : ℕ)
  | advanced (current : ℕ)
  | released (current : ℕ)
  deriving DecidableEq

/-- The queue and its two threads; the values accepted and the values popped so far. -/
structure Threads (T : Type*) where
  queue : SpscRingQueue T
  push : Push T
  pop : Pop
  accepted : List T
  popped : List T

/-- A thread takes its next step; an idle one calls. -/
inductive Access (T : Type*)
  | push (data : T)
  | producer
  | pop
  | consumer
  deriving DecidableEq

/-- The queue as it is constructed. -/
def init (capacity : ℕ) (value : T) : Threads T := ⟨⟨capacity, 0, 0, fun _ => value, 0⟩, .idle, .idle, [], []⟩

/-- The next step of `push`: test the size, load the head, write the slot, store the head,
count the element. -/
def producerStep (s : Threads T) : Threads T :=
  match s.push with
  | .idle => s
  | .called data =>
    if s.queue.currentSize = s.queue.capacity then { s with push := .idle } else { s with push := .admitted data }
  | .admitted data => { s with push := .loaded data s.queue.headIndex }
  | .loaded data current =>
    { s with
      queue := { s.queue with data := Function.update s.queue.data current data }
      push := .written data current }
  | .written data current =>
    { s with
      queue := { s.queue with headIndex := nextIndex s.queue.capacity current }
      push := .advanced data }
  | .advanced data =>
    { s with
      queue := { s.queue with currentSize := s.queue.currentSize + 1 }
      push := .idle
      accepted := s.accepted ++ [data] }

/-- The next step of `pop`: test the size, load the tail, store the tail, uncount the
element, and move it out; `moved` is what that leaves in the slot. -/
def consumerStep (moved : T → T) (s : Threads T) : Threads T :=
  match s.pop with
  | .idle => s
  | .called => if s.queue.currentSize = 0 then { s with pop := .idle } else { s with pop := .admitted }
  | .admitted => { s with pop := .loaded s.queue.tailIndex }
  | .loaded current =>
    { s with
      queue := { s.queue with tailIndex := nextIndex s.queue.capacity current }
      pop := .advanced current }
  | .advanced current =>
    { s with
      queue := { s.queue with currentSize := s.queue.currentSize - 1 }
      pop := .released current }
  | .released current =>
    { s with
      queue := { s.queue with data := Function.update s.queue.data current (moved (s.queue.data current)) }
      pop := .idle
      popped := s.popped ++ [s.queue.data current] }

/-- One access. A thread that is not idle does not call. -/
def step (moved : T → T) (s : Threads T) : Access T → Threads T
  | .push data =>
    match s.push with
    | .idle => { s with push := .called data }
    | _ => s
  | .producer => producerStep s
  | .pop =>
    match s.pop with
    | .idle => { s with pop := .called }
    | _ => s
  | .consumer => consumerStep moved s

/-! ## Calls, undisturbed -/

/-- `push(data)`: its accesses one after the other. -/
def push (q : SpscRingQueue T) (data : T) : SpscRingQueue T :=
  if q.currentSize = q.capacity then q
  else
    let current := q.headIndex
    { q with
      data := Function.update q.data current data
      headIndex := nextIndex q.capacity current
      currentSize := q.currentSize + 1 }

/-- `push(datas)`. The elements of a constant vector are not moved but copied. -/
def pushAll (q : SpscRingQueue T) (datas : List T) : SpscRingQueue T := datas.foldl push q

/-- `pop`: its accesses one after the other. -/
def pop (moved : T → T) (q : SpscRingQueue T) : SpscRingQueue T × Option T :=
  if q.currentSize = 0 then (q, none)
  else
    let current := q.tailIndex
    ({ q with
        tailIndex := nextIndex q.capacity current
        currentSize := q.currentSize - 1
        data := Function.update q.data current (moved (q.data current)) },
      some (q.data current))

/-- `pop(nums)`, with what it has collected so far. -/
def popMany (moved : T → T) : ℕ → List T → SpscRingQueue T → SpscRingQueue T × Option (List T)
  | 0, result, q => (q, some result)
  | nums + 1, result, q =>
    match q.pop moved with
    | (q, none) => (q, none)
    | (q, some data) => popMany moved nums (result ++ [data]) q

/-- `size`. -/
def size (q : SpscRingQueue T) : ℕ := q.currentSize

/-- A call of either end. -/
inductive Call (T : Type*)
  | push (data : T)
  | pushAll (datas : List T)
  | pop
  deriving DecidableEq

/-- What a call makes of the queue, and what it returns. -/
def call (moved : T → T) (q : SpscRingQueue T) : Call T → SpscRingQueue T × Option T
  | .push data => (q.push data, none)
  | .pushAll datas => (q.pushAll datas, none)
  | .pop => q.pop moved

/-- The slot `push(data)` writes. -/
def pushSlots (q : SpscRingQueue T) : List ℕ := if q.currentSize = q.capacity then [] else [q.headIndex]

/-- The slots `push(datas)` writes. -/
def pushAllSlots : SpscRingQueue T → List T → List ℕ
  | _, [] => []
  | q, data :: datas => q.pushSlots ++ pushAllSlots (q.push data) datas

/-- The slots a call uses. -/
def usedSlots (q : SpscRingQueue T) : Call T → List ℕ
  | .push _ => q.pushSlots
  | .pushAll datas => q.pushAllSlots datas
  | .pop => if q.currentSize = 0 then [] else [q.tailIndex]

end SpscRingQueue

end ProjectTrans
