import Mathlib.Algebra.Notation.Defs
import Mathlib.Data.Multiset.AddSub
import Mathlib.Logic.Function.Basic
import ProjectTrans.Lib.Multimap

/-!
# The timer manager, critical section by critical section (`concurrent/timer/timer_manager`)

The one-shots come first: the multimap of deadlines, the queue of the timer thread and that
thread's rounds. The section of a thread between taking a lock and giving it up is one step,
and every reading of the clock outside of one is a step of its own. A callback runs when
the timer thread calls it, or calls `m_execute_environment` with it. Periodic tasks stand on
top: their registry, and the calls of `add_periodic_task` and `execute_periodic_task`.
-/

namespace ProjectTrans

variable {Time Duration Callback : Type*}

namespace Timers

/-- An element of `m_timer_callbacks`. Its number tells the order of insertion; neither the
number nor the deadline is left of it in `m_task_queue`, where only the callback is used. -/
structure Task (Time Callback : Type*) where
  deadline : Time
  number : ℕ
  callback : Callback
  deriving DecidableEq

/-- What has been called, when, and in which round. -/
structure Execution (Time Callback : Type*) where
  task : Task Time Callback
  time : Time
  round : ℕ
  deriving DecidableEq

/-- Where the timer thread is: at the head of its loop, before the lock, in `wait_until`
without the lock, at the head of the loop over the queue, in the callback at its front, or
at its end. -/
inductive Thread (Time : Type*)
  | top
  | locking
  | waiting (waitTime : Time)
  | popping
  | executing
  | exited
  deriving DecidableEq

end Timers

/-- The one-shots of the manager. A call that adds one has its deadline first and inserts
afterwards. What has been inserted, the batches that have been moved and what has been called
are kept beside. -/
structure Timers (Time Callback : Type*) where
  clock : Time
  isRunning : Bool := true
  timerCallbacks : List (Timers.Task Time Callback) := []
  taskQueue : List (Timers.Task Time Callback) := []
  thread : Timers.Thread Time := .top
  calls : Multiset (Time × Callback) := 0
  added : List (Timers.Task Time Callback) := []
  rounds : ℕ := 0
  executed : List (Timers.Execution Time Callback) := []

namespace Timers

/-- What can happen: the clock goes on, a call of `add_task_until` or `add_task_for` gets its
deadline, such a call inserts, the timer thread goes on, the manager is destroyed. Calls come
from any thread at any time, callbacks among them. A wait may run out of time. -/
inductive Action (Time Duration Callback : Type*)
  | tick (time : Time)
  | addTaskUntil (time : Time) (callback : Callback)
  | addTaskFor (time : Duration) (callback : Callback)
  | insert (deadline : Time) (callback : Callback)
  | thread (isTimeout : Bool)
  | stop
  deriving DecidableEq

/-- A step of the timer thread. -/
def Action.isThread : Action Time Duration Callback → Bool
  | .thread _ => true
  | _ => false

/-- The action on callbacks of another kind. -/
def Action.map {Callback' : Type*} (f : Callback → Callback') :
    Action Time Duration Callback → Action Time Duration Callback'
  | .tick time => .tick time
  | .addTaskUntil time callback => .addTaskUntil time (f callback)
  | .addTaskFor time callback => .addTaskFor time (f callback)
  | .insert deadline callback => .insert deadline (f callback)
  | .thread isTimeout => .thread isTimeout
  | .stop => .stop

variable [LinearOrder Time] (timeMax : Time) (s : Timers Time Callback)

/-- `m_timer_callbacks.insert`. -/
def insert (deadline : Time) (callback : Callback) : Timers Time Callback :=
  let task : Task Time Callback := ⟨deadline, s.added.length, callback⟩
  { s with timerCallbacks := Multimap.insert Task.deadline task s.timerCallbacks, added := s.added ++ [task] }

/-- The first deadline; `timeMax` is `time_point::max()`. -/
def waitTime : Time := (s.timerCallbacks.head?.map Task.deadline).getD timeMax

/-- The predicate of the wait. -/
def isWoken (waitTime : Time) : Bool := !s.isRunning || s.timerCallbacks.head?.any (·.deadline < waitTime)

/-- From the end of the wait to the end of the section: everything that is due goes to the
queue of the timer thread. -/
def collect : Timers Time Callback :=
  if !s.isRunning then { s with thread := .exited }
  else if s.clock < s.waitTime timeMax || s.timerCallbacks.isEmpty then { s with thread := .top }
  else
    { s with
      timerCallbacks := Multimap.behind Task.deadline s.clock s.timerCallbacks
      taskQueue := s.taskQueue ++ Multimap.upTo Task.deadline s.clock s.timerCallbacks
      rounds := s.rounds + 1
      thread := .popping }

/-- The next step of the timer thread. -/
def threadStep (isTimeout : Bool) : Timers Time Callback :=
  match s.thread with
  | .top => { s with thread := if s.isRunning then .locking else .exited }
  | .locking =>
    if s.isWoken (s.waitTime timeMax) then s.collect timeMax
    else { s with thread := .waiting (s.waitTime timeMax) }
  | .waiting waitTime => if s.isWoken waitTime || isTimeout then s.collect timeMax else s
  | .popping =>
    match s.taskQueue with
    | [] => { s with thread := .top }
    | task :: _ => { s with thread := .executing, executed := s.executed ++ [⟨task, s.clock, s.rounds⟩] }
  | .executing => { s with taskQueue := s.taskQueue.tail, thread := .popping }
  | .exited => s

variable [VAdd Duration Time] [DecidableEq Callback]

/-- One step; what is not possible changes nothing. -/
def step (timeMax : Time) (s : Timers Time Callback) : Action Time Duration Callback → Timers Time Callback
  | .tick time => { s with clock := max s.clock time }
  | .addTaskUntil time callback => { s with calls := (time, callback) ::ₘ s.calls }
  | .addTaskFor time callback => { s with calls := (time +ᵥ s.clock, callback) ::ₘ s.calls }
  | .insert deadline callback =>
    if (deadline, callback) ∈ s.calls then
      { s.insert deadline callback with calls := s.calls.erase (deadline, callback) }
    else s
  | .thread isTimeout => s.threadStep timeMax isTimeout
  | .stop => { s with isRunning := false }

/-- The manager as it is constructed. -/
def init (clock : Time) : Timers Time Callback := { clock }

/-- The callback a step calls. -/
def starts : Action Time Duration Callback → Option Callback
  | .thread _ =>
    match s.thread with
    | .popping => s.taskQueue.head?.map Task.callback
    | _ => none
  | _ => none

end Timers

/-! ## Periodic tasks -/

/-- `PeriodicTask`. -/
structure PeriodicTask (Duration Callback : Type*) where
  time : Duration
  callback : Callback
  remainTimes : ℤ
  deriving DecidableEq

namespace TimerManager

/-- What the one-shots of the manager call: a callback that a caller gave, or the lambda that
calls `execute_periodic_task`. -/
inductive Job (Callback : Type*)
  | task (callback : Callback)
  | periodic (taskId : UInt64)
  deriving DecidableEq

/-- Where a call is. In `add_periodic_task`, it has its task id, has registered the task, or
has read the clock in `add_task_for`; in `execute_periodic_task`, it has not taken the lock,
has read the clock in `add_task_for` and holds the lock, has given up the lock with a copy
of the callback, is in the callback, or has found that no executions remain. -/
inductive Call (Time Duration Callback : Type*)
  | fetched (taskId : UInt64) (task : PeriodicTask Duration Callback)
  | registered (taskId : UInt64) (time : Duration)
  | adding (taskId : UInt64) (deadline : Time)
  | called (taskId : UInt64)
  | rescheduling (taskId : UInt64) (deadline : Time) (callback : Callback)
  | holding (taskId : UInt64) (callback : Callback)
  | running (taskId : UInt64) (callback : Callback)
  | removing (taskId : UInt64)
  deriving DecidableEq

/-- The call holds `m_periodic_task_mutex`. -/
def Call.isLocking : Call Time Duration Callback → Bool
  | .rescheduling .. => true
  | _ => false

/-- The call is one of `execute_periodic_task`. -/
def Call.isExecution : Call Time Duration Callback → Bool
  | .fetched .. => false
  | .registered .. => false
  | .adding .. => false
  | _ => true

/-- What can happen: a step of the one-shots, a call of `add_periodic_task` or of
`cancel_periodic_task`, the next step of a call. -/
inductive Action (Time Duration Callback : Type*)
  | timers (action : Timers.Action Time Duration Callback)
  | addPeriodicTask (time : Duration) (callback : Callback) (remainTimes : ℤ)
  | cancelPeriodicTask (taskId : UInt64)
  | proceed (call : Call Time Duration Callback)
  deriving DecidableEq

/-- A call of `add_periodic_task`. -/
def Action.isAddPeriodicTask : Action Time Duration Callback → Bool
  | .addPeriodicTask .. => true
  | _ => false

end TimerManager

/-- `TimerManager`, and the calls under way. How many task ids were drawn from the counter,
which comes round, what tasks were registered with, which of them were cancelled, which
copies of callbacks were made to be called and which were called are kept beside. Whether
there is an environment does not change in a run. -/
structure TimerManager (Time Duration Callback : Type*) where
  timers : Timers Time (TimerManager.Job Callback)
  hasExecuteEnvironment : Bool
  cycleTaskId : UInt64 := 0
  periodicTasks : UInt64 → Option (PeriodicTask Duration Callback) := fun _ => none
  calls : Multiset (TimerManager.Call Time Duration Callback) := 0
  issued : ℕ := 0
  registrations : UInt64 → Option (PeriodicTask Duration Callback) := fun _ => none
  cancelled : List UInt64 := []
  copied : List (UInt64 × Callback) := []
  ran : List (UInt64 × Callback) := []

namespace TimerManager

variable (m : TimerManager Time Duration Callback)

/-- `m_periodic_task_mutex` is taken. -/
def IsLocked : Prop := ∃ call ∈ m.calls, call.isLocking = true

instance : Decidable m.IsLocked := Multiset.decidableExistsMultiset

/-- A call of `execute_periodic_task` is under way. -/
def IsExecuting : Prop := ∃ call ∈ m.calls, call.isExecution = true

instance : Decidable m.IsExecuting := Multiset.decidableExistsMultiset

variable [LinearOrder Time] [VAdd Duration Time] [DecidableEq Duration] [DecidableEq Callback]

/-- The section of `execute_periodic_task`, to where it has read the clock. -/
def lookUp (taskId : UInt64) (rest : Multiset (Call Time Duration Callback)) :
    TimerManager Time Duration Callback :=
  match m.periodicTasks taskId with
  | none => { m with calls := rest }
  | some task =>
    if task.remainTimes = 0 then { m with calls := .removing taskId ::ₘ rest }
    else
      let task' := if 0 < task.remainTimes then { task with remainTimes := task.remainTimes - 1 } else task
      { m with
        periodicTasks := Function.update m.periodicTasks taskId (some task')
        calls := .rescheduling taskId (task.time +ᵥ m.timers.clock) task.callback ::ₘ rest
        copied := m.copied ++ [(taskId, task.callback)] }

/-- The next step of a call; those that need the lock wait for it. -/
def proceed (call : Call Time Duration Callback) : TimerManager Time Duration Callback :=
  let rest := m.calls.erase call
  match call with
  | .fetched taskId task =>
    if m.IsLocked then m
    else
      { m with
        periodicTasks := Function.update m.periodicTasks taskId ((m.periodicTasks taskId).or (some task))
        calls := .registered taskId task.time ::ₘ rest
        registrations := Function.update m.registrations taskId (some task) }
  | .registered taskId time => { m with calls := .adding taskId (time +ᵥ m.timers.clock) ::ₘ rest }
  | .adding taskId deadline => { m with timers := m.timers.insert deadline (.periodic taskId), calls := rest }
  | .called taskId => if m.IsLocked then m else m.lookUp taskId rest
  | .rescheduling taskId deadline callback =>
    { m with
      timers := m.timers.insert deadline (.periodic taskId)
      calls := .holding taskId callback ::ₘ rest }
  | .holding taskId callback =>
    { m with calls := .running taskId callback ::ₘ rest, ran := m.ran ++ [(taskId, callback)] }
  | .running _ _ => { m with calls := rest }
  | .removing taskId =>
    if m.IsLocked then m
    else { m with periodicTasks := Function.update m.periodicTasks taskId none, calls := rest }

/-- A call of the lambda of a periodic task is one of `execute_periodic_task`. What an
environment is given it calls, at some time. -/
def begin (job : Option (Job Callback)) : Multiset (Call Time Duration Callback) :=
  match job with
  | some (.periodic taskId) => .called taskId ::ₘ m.calls
  | _ => m.calls

/-- One step; what is not possible changes nothing. -/
def step (timeMax : Time) (m : TimerManager Time Duration Callback) :
    Action Time Duration Callback → TimerManager Time Duration Callback
  | .timers action =>
    -- without an environment the timer thread itself is in the call
    if !m.hasExecuteEnvironment ∧ m.timers.thread = .executing ∧ m.IsExecuting ∧
        action.isThread then m
    else
      { m with
        timers := m.timers.step timeMax (action.map .task)
        calls := m.begin (m.timers.starts (action.map (@Job.task Callback))) }
  | .addPeriodicTask time callback remainTimes =>
    { m with
      cycleTaskId := m.cycleTaskId + 1
      calls := .fetched m.cycleTaskId ⟨time, callback, remainTimes⟩ ::ₘ m.calls
      issued := m.issued + 1 }
  | .cancelPeriodicTask taskId =>
    if m.IsLocked then m
    else
      { m with
        periodicTasks := Function.update m.periodicTasks taskId none
        -- an id that no task has got yet names none
        cancelled := if (m.registrations taskId).isSome then m.cancelled ++ [taskId] else m.cancelled }
  | .proceed call => if call ∈ m.calls then m.proceed call else m

/-- The manager as it is constructed. -/
def init (hasExecuteEnvironment : Bool) (clock : Time) : TimerManager Time Duration Callback :=
  { timers := Timers.init clock, hasExecuteEnvironment }

end TimerManager

end ProjectTrans
