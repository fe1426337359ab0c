import Mathlib.Algebra.Group.Int.Defs
import Mathlib.Data.Fintype.Basic
import Mathlib.Logic.Function.Basic
import Mathlib.Tactic.Common

/-!
# The bounded queue, critical section by critical section (`concurrent/container/mpmc_bounded_queue`)

A thread holds the lock from where it acquires it to where it waits or unlocks; that is
one step. Notifications come after the lock is released and are steps of their own. A
condition variable is the set of the threads parked on it.
-/

namespace ProjectTrans

/-- `MpmcBoundedQueue`, without its lock and condition variables. -/
structure MpmcBoundedQueue (T : Type*) where
  maxSize : ℕ
  queue : List T
  isRunning : Bool
  deriving DecidableEq

namespace MpmcBoundedQueue

variable {ι T : Type*}

/-- `m_empty_cv` and `m_full_cv`. -/
inductive Cv
  | empty
  | full
  deriving DecidableEq

/-- `notify_one` or `notify_all`. -/
structure Notify where
  cv : Cv
  all : Bool
  deriving DecidableEq

/-- The operations; `popTimed` is `pop_for` and `pop_until`. -/
inductive Op (T : Type*)
  | pop
  | popMany (nums : ℤ)
  | tryPop
  | tryPopMany (nums : ℕ)
  | popTimed
  | push (item : T)
  | pushRange (items : List T)
  | close
  deriving DecidableEq

/-- An operation on its way: its arguments, and what it has collected or inserted so far. -/
inductive Call (T : Type*)
  | pop
  | popMany (nums : ℤ) (result : List T)
  | tryPop
  | tryPopMany (nums : ℕ)
  | popTimed (expired : Bool)
  | push (item : T)
  | pushRange (nums : ℕ) (rest : List T) (isPushed : Bool)
  | close
  deriving DecidableEq

/-- What an operation returns. -/
inductive Result (T : Type*)
  | item (item : Option T)
  | items (items : Option (List T))
  | pushed (isPushed : Bool)
  | closed
  deriving DecidableEq

/-- Where a thread is. Once unlocked it has notifications to make, and then goes back to
the lock or returns. -/
inductive Phase (T : Type*)
  | idle
  | ready (call : Call T)
  | parked (cv : Cv) (call : Call T)
  | unlocked (todo : List Notify) (next : Call T ⊕ Result T)
  deriving DecidableEq

/-- The number of elements of a range, as `push` computes it: through an `int`. -/
def rangeCount (distance : ℕ) : ℕ := ((Int32.ofNat distance).toInt % 2 ^ 64).toNat

/-- The call of an operation. -/
def Op.start : Op T → Call T
  | pop => .pop
  | popMany nums => .popMany nums []
  | tryPop => .tryPop
  | tryPopMany nums => .tryPopMany nums
  | popTimed => .popTimed false
  | push item => .push item
  | pushRange items => .pushRange (rangeCount items.length) items false
  | close => .close

/-- Take elements off a queue until there are enough or it is empty: what is collected,
what is left, and whether it is enough. -/
def popLoop : ℕ → List T → List T → List T × List T × Bool
  | 0, queue, result => (result, queue, true)
  | _ + 1, [], result => (result, [], false)
  | n + 1, item :: queue, result => popLoop n queue (result ++ [item])

/-- What a critical section does to the queue, what enters and leaves it, and where the
thread is afterwards. -/
structure Section (T : Type*) where
  queue : MpmcBoundedQueue T
  entered : List T := []
  left : List T := []
  phase : Phase T
  deriving DecidableEq

variable (q : MpmcBoundedQueue T)

/-- Take one element, or return without one. -/
def takeOne : Section T :=
  match q.queue with
  | [] => { queue := q, phase := .unlocked [] (.inr (.item none)) }
  | item :: rest =>
    { queue := { q with queue := rest }
      left := [item]
      phase := .unlocked [⟨.full, false⟩] (.inr (.item (some item))) }

/-- The critical section of a call. An advance past the end of a range has no result. -/
def criticalSection : Call T → Option (Section T)
  | .pop =>
    if q.queue.isEmpty && q.isRunning then some { queue := q, phase := .parked .empty .pop }
    else some q.takeOne
  | .popMany nums result =>
    match popLoop (nums - result.length).toNat q.queue result with
    | (result', rest, true) =>
      some {
        queue := { q with queue := rest }
        left := result'.drop result.length
        phase := .unlocked [⟨.full, false⟩] (.inr (.items (some result'))) }
    | (result', rest, false) =>
      some {
        queue := { q with queue := rest }
        left := result'.drop result.length
        phase :=
          if q.isRunning then .parked .empty (.popMany nums result') else .unlocked [] (.inr (.items none)) }
  | .tryPop => some q.takeOne
  | .tryPopMany nums =>
    match popLoop nums q.queue [] with
    | (result, rest, isComplete) =>
      some {
        queue := { q with queue := rest }
        left := result
        phase := .unlocked (if isComplete then [⟨.full, true⟩] else []) (.inr (.items (some result))) }
  | .popTimed expired =>
    if q.queue.isEmpty && q.isRunning && !expired then
      some { queue := q, phase := .parked .empty (.popTimed false) }
    else some q.takeOne
  | .push item =>
    if !q.isRunning then some { queue := q, phase := .unlocked [] (.inr (.pushed false)) }
    else if q.queue.length < q.maxSize then
      some {
        queue := { q with queue := q.queue ++ [item] }
        entered := [item]
        phase := .unlocked [⟨.empty, false⟩] (.inr (.pushed true)) }
    else some { queue := q, phase := .parked .full (.push item) }
  | .pushRange nums rest isPushed =>
    if nums = 0 then some { queue := q, phase := .unlocked [] (.inr (.pushed isPushed)) }
    else if !q.isRunning then some { queue := q, phase := .unlocked [] (.inr (.pushed false)) }
    else if q.queue.length < q.maxSize then
      let toInsert := min nums (q.maxSize - q.queue.length)
      if toInsert ≤ rest.length then
        some {
          queue := { q with queue := q.queue ++ rest.take toInsert }
          entered := rest.take toInsert
          phase := .unlocked [⟨.empty, true⟩] (.inl (.pushRange (nums - toInsert) (rest.drop toInsert) true)) }
      else none
    else some { queue := q, phase := .parked .full (.pushRange nums rest isPushed) }
  | .close =>
    some {
      queue := { q with isRunning := false }
      phase := .unlocked [⟨.empty, true⟩, ⟨.full, true⟩] (.inr .closed) }

/-! ## Moves -/

/-- The move constructor: the new queue, whose `m_max_size` has its initializer, and what
is left of the source. -/
def moveConstruct (other : MpmcBoundedQueue T) : MpmcBoundedQueue T × MpmcBoundedQueue T :=
  (⟨0, other.queue, other.isRunning⟩, { other with queue := [], isRunning := false })

/-- The move assignment from another queue: the destination, and what is left of the source. -/
def moveAssign (other : MpmcBoundedQueue T) : MpmcBoundedQueue T × MpmcBoundedQueue T :=
  ({ q with queue := other.queue, isRunning := other.isRunning }, { other with queue := [], isRunning := false })

/-- Queues under their names. -/
abbrev Fleet (T : Type*) := ℕ → Option (MpmcBoundedQueue T)

/-- What is done with a queue: construction, the two moves, and any critical section. -/
inductive Use (T : Type*)
  | construct (i maxSize : ℕ)
  | moveConstruct (i source : ℕ)
  | moveAssign (i source : ℕ)
  | enter (i : ℕ) (call : Call T)
  deriving DecidableEq

/-- One use; what is not possible changes nothing. -/
def Fleet.use (f : Fleet T) : Use T → Fleet T
  | .construct i maxSize =>
    match f i with
    | none => Function.update f i (some ⟨maxSize, [], true⟩)
    | some _ => f
  | .moveConstruct i source =>
    match f i, f source with
    | none, some other =>
      Function.update (Function.update f source (some other.moveConstruct.2)) i (some other.moveConstruct.1)
    | _, _ => f
  | .moveAssign i source =>
    -- `this == &other`
    if i = source then f
    else
      match f i, f source with
      | some q, some other =>
        Function.update (Function.update f source (some (q.moveAssign other).2)) i (some (q.moveAssign other).1)
      | _, _ => f
  | .enter i call =>
    match f i with
    | some q =>
      match q.criticalSection call with
      | some r => Function.update f i (some r.queue)
      | none => f
    | none => f

/-! ## Threads -/

/-- The queue and the threads that use it; what has entered it and left it, and what was
returned to whom. -/
structure System (ι T : Type*) where
  queue : MpmcBoundedQueue T
  threads : ι → Phase T
  entered : List T := []
  left : List T := []
  returned : List (ι × Result T) := []

/-- Whether a thread is parked on a condition variable. -/
def Phase.isParkedOn (cv : Cv) : Phase T → Bool
  | .parked cv' _ => cv' = cv
  | _ => false

/-- A parked thread goes back to the lock. -/
def Phase.wake : Phase T → Phase T
  | .parked _ call => .ready call
  | phase => phase

/-- A step of a thread: it calls, runs a critical section, makes its next notification or
returns, wakes up without one, or runs out of time. A `notify_one` says whom it wakes. -/
inductive Action (ι T : Type*)
  | call (i : ι) (op : Op T)
  | enter (i : ι)
  | next (i : ι) (target : Option ι)
  | wake (i : ι)
  | timeout (i : ι)
  deriving DecidableEq

variable [Fintype ι] [DecidableEq ι]

/-- What a notification makes of the threads: `notify_all` wakes all that are parked, and
`notify_one` one of them, if there is one. -/
def Notify.perform (n : Notify) (target : Option ι) (threads : ι → Phase T) : Option (ι → Phase T) :=
  if n.all then some fun j => if (threads j).isParkedOn n.cv then (threads j).wake else threads j
  else
    match target with
    | some j =>
      if (threads j).isParkedOn n.cv then some (Function.update threads j (threads j).wake) else none
    | none => if ∃ j, (threads j).isParkedOn n.cv then none else some threads

/-- One step of one thread; what is not possible changes nothing. -/
def step (s : System ι T) : Action ι T → System ι T
  | .call i op =>
    match s.threads i with
    | .idle => { s with threads := Function.update s.threads i (.ready op.start) }
    | _ => s
  | .enter i =>
    match s.threads i with
    | .ready call =>
      match s.queue.criticalSection call with
      | some r =>
        { s with
          queue := r.queue
          threads := Function.update s.threads i r.phase
          entered := s.entered ++ r.entered
          left := s.left ++ r.left }
      | none => s
    | _ => s
  | .next i target =>
    match s.threads i with
    | .unlocked (n :: todo) next =>
      match n.perform target s.threads with
      | some threads => { s with threads := Function.update threads i (.unlocked todo next) }
      | none => s
    | .unlocked [] (.inl call) => { s with threads := Function.update s.threads i (.ready call) }
    | .unlocked [] (.inr result) =>
      { s with threads := Function.update s.threads i .idle, returned := s.returned ++ [(i, result)] }
    | _ => s
  | .wake i => { s with threads := Function.update s.threads i (s.threads i).wake }
  | .timeout i =>
    match s.threads i with
    | .parked .empty (.popTimed _) => { s with threads := Function.update s.threads i (.ready (.popTimed true)) }
    | _ => s

/-- A new queue, no thread in a call. -/
def init (maxSize : ℕ) : System ι T := { queue := ⟨maxSize, [], true⟩, threads := fun _ => .idle }

end MpmcBoundedQueue

end ProjectTrans
