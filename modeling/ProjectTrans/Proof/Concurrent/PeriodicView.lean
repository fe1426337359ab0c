import ProjectTrans.Proof.Concurrent.OneShots
import ProjectTrans.Proof.Concurrent.PeriodicTask

/-!
# Periodic tasks

`view` counts what the manager has of one task. A step of the manager is a move of that task
or leaves it alone (`follows_step`), so what the moves of one task keep holds of every task
in every run.
-/

namespace ProjectTrans.TimerManager

variable {Time Duration Callback : Type*}

/-! ## The view of a task -/

/-- The one-shots of a task. -/
def Job.isPeriodic (taskId : UInt64) : Job Callback → Bool
  | .task _ => false
  | .periodic taskId' => taskId' = taskId

/-- The task a call is for. -/
def Call.taskId : Call Time Duration Callback → UInt64
  | .fetched taskId _ => taskId
  | .registered taskId _ => taskId
  | .adding taskId _ => taskId
  | .called taskId => taskId
  | .rescheduling taskId _ _ => taskId
  | .holding taskId _ => taskId
  | .running taskId _ => taskId
  | .removing taskId => taskId

/-- What a call adds to the view of a task. -/
def View.with (taskId : UInt64) (call : Call Time Duration Callback) (v : View Duration Callback) :
    View Duration Callback :=
  match call with
  | .fetched taskId' _ => if taskId' = taskId then { v with fetched := v.fetched + 1 } else v
  | .registered taskId' _ => if taskId' = taskId then { v with inserting := v.inserting + 1 } else v
  | .adding taskId' _ => if taskId' = taskId then { v with inserting := v.inserting + 1 } else v
  | .called taskId' => if taskId' = taskId then { v with called := v.called + 1 } else v
  | .rescheduling taskId' _ callback =>
    if taskId' = taskId then { v with inserting := v.inserting + 1, held := callback ::ₘ v.held } else v
  | .holding taskId' callback => if taskId' = taskId then { v with held := callback ::ₘ v.held } else v
  | .running taskId' _ => if taskId' = taskId then { v with running := v.running + 1 } else v
  | .removing taskId' => if taskId' = taskId then { v with removing := v.removing + 1 } else v

/-- The calls that have the id of a task but have not registered it. -/
def Call.isFetched (taskId : UInt64) : Call Time Duration Callback → Bool
  | .fetched taskId' _ => taskId' = taskId
  | _ => false

/-- The calls that have yet to insert the next one-shot of a task. -/
def Call.isInserting (taskId : UInt64) : Call Time Duration Callback → Bool
  | .registered taskId' _ => taskId' = taskId
  | .adding taskId' _ => taskId' = taskId
  | .rescheduling taskId' _ _ => taskId' = taskId
  | _ => false

/-- The calls that have yet to look a task up. -/
def Call.isCalled (taskId : UInt64) : Call Time Duration Callback → Bool
  | .called taskId' => taskId' = taskId
  | _ => false

/-- The copy of a task's callback that a call has yet to call. -/
def Call.held (taskId : UInt64) : Call Time Duration Callback → Option Callback
  | .rescheduling taskId' _ callback => if taskId' = taskId then some callback else none
  | .holding taskId' callback => if taskId' = taskId then some callback else none
  | _ => none

/-- The calls in the callback of a task. -/
def Call.isRunning (taskId : UInt64) : Call Time Duration Callback → Bool
  | .running taskId' _ => taskId' = taskId
  | _ => false

/-- The calls that are to remove a task. -/
def Call.isRemoving (taskId : UInt64) : Call Time Duration Callback → Bool
  | .removing taskId' => taskId' = taskId
  | _ => false

variable (m : TimerManager Time Duration Callback) (taskId : UInt64)

/-- What the manager has of a task. -/
def view : View Duration Callback where
  isAssigned := taskId.toNat < m.issued
  fetched := m.calls.countP fun call => call.isFetched taskId
  registration := m.registrations taskId
  entry := m.periodicTasks taskId
  isCancelled := taskId ∈ m.cancelled
  inserting := m.calls.countP fun call => call.isInserting taskId
  pending := m.timers.pending.countP fun task => task.callback.isPeriodic taskId
  called := m.calls.countP fun call => call.isCalled taskId
  held := m.calls.filterMap fun call => call.held taskId
  running := m.calls.countP fun call => call.isRunning taskId
  removing := m.calls.countP fun call => call.isRemoving taskId
  scheduled := m.timers.added.countP fun task => task.callback.isPeriodic taskId
  copied := m.copied.countP fun copy => copy.1 = taskId
  ran := ((m.ran.filter fun run => run.1 = taskId).map Prod.snd : List Callback)

variable {m}

/-- What a call adds, field by field. -/
theorem with_eq (call : Call Time Duration Callback) (v : View Duration Callback) :
    v.with taskId call =
      { v with
        fetched := v.fetched + if call.isFetched taskId then 1 else 0
        inserting := v.inserting + if call.isInserting taskId then 1 else 0
        called := v.called + if call.isCalled taskId then 1 else 0
        held := ((call.held taskId).map singleton).getD 0 + v.held
        running := v.running + if call.isRunning taskId then 1 else 0
        removing := v.removing + if call.isRemoving taskId then 1 else 0 } := by
  cases call <;> simp only [View.with] <;> split <;>
    simp [Call.isFetched, Call.isInserting, Call.isCalled, Call.held, Call.isRunning, Call.isRemoving, *]

/-- **One call more.** -/
theorem view_cons (call : Call Time Duration Callback) (rest : Multiset (Call Time Duration Callback)) :
    ({ m with calls := call ::ₘ rest } : TimerManager Time Duration Callback).view taskId =
      (({ m with calls := rest } : TimerManager Time Duration Callback).view taskId).with taskId call := by
  rw [with_eq]
  simp only [view, Multiset.countP_cons, Multiset.filterMap_cons]

/-- A call under way adds to the view. -/
theorem view_of_calls {call : Call Time Duration Callback} {rest : Multiset (Call Time Duration Callback)}
    (h : m.calls = call ::ₘ rest) :
    m.view taskId = (({ m with calls := rest } : TimerManager Time Duration Callback).view taskId).with taskId
      call := by
  rw [← view_cons taskId, ← h]

/-- A call for another task adds nothing. -/
theorem with_of_ne {call : Call Time Duration Callback} (h : call.taskId ≠ taskId) (v : View Duration Callback) :
    v.with taskId call = v := by
  cases call <;> exact if_neg h

theorem view_of_calls_ne {call : Call Time Duration Callback} {rest : Multiset (Call Time Duration Callback)}
    (h : m.calls = call ::ₘ rest) (hne : call.taskId ≠ taskId) :
    m.view taskId = ({ m with calls := rest } : TimerManager Time Duration Callback).view taskId :=
  (view_of_calls taskId h).trans (with_of_ne taskId hne _)

theorem view_timers (timers : Timers Time (Job Callback)) :
    ({ m with timers := timers } : TimerManager Time Duration Callback).view taskId =
      { m.view taskId with
        pending := timers.pending.countP fun task => task.callback.isPeriodic taskId
        scheduled := timers.added.countP fun task => task.callback.isPeriodic taskId } :=
  rfl

variable (m) in
/-- The counter counts the ids that were drawn, and comes round. -/
def Counts : Prop := m.cycleTaskId = .ofNat m.issued

/-- An id is drawn for the first time as long as the counter has not come round. -/
theorem Counts.toNat_cycleTaskId (h : Counts m) (hfew : m.issued < 2 ^ 64) : m.cycleTaskId.toNat = m.issued := by
  rw [h, UInt64.toNat_ofNat', Nat.mod_eq_of_lt hfew]

/-- The calls of `execute_periodic_task` that are under way. -/
def executions (calls : Multiset (Call Time Duration Callback)) : ℕ := calls.countP fun call => call.isExecution

theorem executions_cons (call : Call Time Duration Callback) (rest : Multiset (Call Time Duration Callback)) :
    executions (call ::ₘ rest) = executions rest + if call.isExecution then 1 else 0 :=
  Multiset.countP_cons _ _ _

theorem executions_eq_zero (h : ¬m.IsExecuting) : executions m.calls = 0 :=
  Multiset.countP_eq_zero.2 fun call hmem hexecution => h ⟨call, hmem, hexecution⟩

theorem executions_begin (m : TimerManager Time Duration Callback) (job : Option (Job Callback)) :
    executions (m.begin job) ≤ executions m.calls + 1 := by
  unfold begin
  split
  · simp [executions_cons, Call.isExecution]
  · omega

/-- The calls of `execute_periodic_task` are the ones that hold copies and run callbacks. -/
theorem quiet_of_countP {calls : Multiset (Call Time Duration Callback)}
    (h : executions calls = 0) :
    (calls.filterMap fun call => call.held taskId) = 0 ∧
      (calls.countP fun call => call.isRunning taskId) = 0 := by
  rw [executions, Multiset.countP_eq_zero] at h
  constructor
  · apply Multiset.eq_zero_of_forall_notMem
    intro callback hmem
    obtain ⟨call, hcall, heq⟩ := (Multiset.mem_filterMap _ _).1 hmem
    have hnot := h call hcall
    cases call <;> simp [Call.isExecution, Call.held] at hnot heq
  · rw [Multiset.countP_eq_zero]
    intro call hcall hrunning
    have hnot := h call hcall
    cases call <;> simp [Call.isExecution, Call.isRunning] at hnot hrunning

/-- A call of the lambda of a task begins. -/
theorem view_begin (taskId' : UInt64) :
    ({ m with calls := m.begin (some (.periodic taskId')) } : TimerManager Time Duration Callback).view taskId =
      if taskId' = taskId then { m.view taskId with called := (m.view taskId).called + 1 } else m.view taskId :=
  view_cons taskId (.called taskId') m.calls

/-- A call becomes another. -/
theorem move_of_calls {isSerial : Bool} {taskId : UInt64} {m' : TimerManager Time Duration Callback}
    {call call' : Call Time Duration Callback} {rest rest' : Multiset (Call Time Duration Callback)}
    (h : m.calls = call ::ₘ rest) (h' : m'.calls = call' ::ₘ rest')
    (hmove : View.Move isSerial
      ((({ m with calls := rest } : TimerManager Time Duration Callback).view taskId).with taskId call)
      ((({ m' with calls := rest' } : TimerManager Time Duration Callback).view taskId).with taskId call')) :
    View.Move isSerial (m.view taskId) (m'.view taskId) := by
  rw [view_of_calls taskId h, view_of_calls taskId h']
  exact hmove

/-- **The task is looked up**: it is not there, has an execution left, or none. -/
theorem move_lookUp [VAdd Duration Time] (isSerial : Bool) {taskId : UInt64} :
    View.Move isSerial
      (({ m with calls := .called taskId ::ₘ m.calls } : TimerManager Time Duration Callback).view taskId)
      ((({ m with calls := .called taskId ::ₘ m.calls } : TimerManager Time Duration Callback).lookUp
        taskId m.calls).view taskId) := by
  unfold lookUp
  split
  · rename_i hnone
    rw [view_cons]
    simp only [View.with, ↓reduceIte]
    -- the task is gone, and nothing is done
    exact .miss rfl hnone
  · rename_i task hsome
    split
    · rename_i hzero
      refine move_of_calls rfl rfl ?_
      simp only [View.with, ↓reduceIte]
      exact .finish rfl hsome hzero
    · rename_i hne
      refine move_of_calls rfl rfl ?_
      have hcopied : List.countP (fun copy : UInt64 × Callback => copy.1 = taskId) [(taskId, task.callback)] =
        1 := by simp
      simp only [View.with, ↓reduceIte, view, Function.update_self, List.countP_append, hcopied]
      exact .copy rfl hsome hne

/-- One call of a task's callback more. -/
theorem ran_append (ran : List (UInt64 × Callback)) (taskId : UInt64) (callback : Callback) :
    (((ran ++ [(taskId, callback)]).filter fun run => run.1 = taskId).map Prod.snd : Multiset Callback) =
      callback ::ₘ
        (((ran.filter fun run => run.1 = taskId).map Prod.snd : List Callback) : Multiset Callback) := by
  rw [List.filter_append, List.filter_singleton, decide_eq_true rfl, cond_true, List.map_append]
  exact Quotient.sound (List.perm_append_singleton _ _)

variable [LinearOrder Time]

/-- **A one-shot of a task is inserted.** -/
theorem view_insert (deadline : Time) (taskId' : UInt64) :
    ({ m with timers := m.timers.insert deadline (.periodic taskId') } :
        TimerManager Time Duration Callback).view taskId =
      if taskId' = taskId then
        { m.view taskId with pending := (m.view taskId).pending + 1, scheduled := (m.view taskId).scheduled + 1 }
      else m.view taskId := by
  have hpending := (Timers.pending_insert m.timers deadline (.periodic taskId')).countP_eq
    fun task => task.callback.isPeriodic taskId
  rw [view_timers, hpending]
  split <;> simp [view, Timers.insert, List.countP_append, Job.isPeriodic, *]

variable [DecidableEq Callback]

/-- What callers insert is no one-shot of a task. -/
theorem countP_inserted (s : Timers Time (Job Callback)) (action : Timers.Action Time Duration Callback) :
    ((s.inserted (action.map Job.task)).toList.countP fun task => task.callback.isPeriodic taskId) = 0 := by
  cases action with
  | insert deadline callback =>
    simp only [Timers.Action.map, Timers.inserted]
    split <;> simp [Job.isPeriodic]
  | _ => rfl

/-- A manager without one of its calls. -/
theorem exists_rest [DecidableEq Duration] {call : Call Time Duration Callback} (hmem : call ∈ m.calls) :
    ∃ w : TimerManager Time Duration Callback, m = { w with calls := call ::ₘ w.calls } :=
  ⟨{ m with calls := m.calls.erase call }, by rw [Multiset.cons_erase hmem]⟩

variable [VAdd Duration Time]

/-- **A step of the one-shots** calls a one-shot of the task, or leaves the task alone. -/
theorem follows_timers (timeMax : Time) (isSerial : Bool) (action : Timers.Action Time Duration Callback) :
    (m.view taskId).Follows isSerial
      (({ m with
          timers := m.timers.step timeMax (action.map .task)
          calls := m.begin (m.timers.starts (action.map (@Job.task Callback))) } :
        TimerManager Time Duration Callback).view taskId) := by
  -- the one-shots of the task that are pending, before and after, differ by the one that starts
  have hpending := (Timers.pending_step timeMax m.timers (action.map Job.task)).countP_eq fun task =>
    task.callback.isPeriodic taskId
  have hadded := congrArg (List.countP fun task => task.callback.isPeriodic taskId)
    (Timers.added_step timeMax m.timers (action.map Job.task))
  rw [List.countP_append, List.countP_append, countP_inserted taskId, Nat.add_zero] at hpending
  rw [List.countP_append, countP_inserted taskId, Nat.add_zero] at hadded
  have hsame : ({ m with timers := m.timers.step timeMax (action.map .task) } :
      TimerManager Time Duration Callback).view taskId = { m.view taskId with
        pending := (m.timers.step timeMax (action.map .task)).pending.countP fun task =>
          task.callback.isPeriodic taskId } := by
    rw [view_timers, hadded]
    rfl
  rw [Timers.starts_eq]
  cases hstarted : m.timers.started (action.map (@Job.task Callback)) with
  | none =>
    left
    rw [hstarted, Option.toList_none, List.countP_nil, Nat.zero_add] at hpending
    refine hsame.trans ?_
    rw [hpending]
    rfl
  | some task =>
    rw [hstarted, Option.toList_some, List.countP_singleton] at hpending
    rw [Option.map_some]
    -- a one-shot starts: it may be anybody's callback, or one of a periodic task
    cases hjob : task.callback with
    | task callback =>
      left
      rw [hjob, Job.isPeriodic, if_neg Bool.false_ne_true, Nat.zero_add] at hpending
      refine hsame.trans ?_
      rw [hpending]
      rfl
    | periodic taskId' =>
      rw [hjob, Job.isPeriodic] at hpending
      have hbegin :=
        view_begin (m := { m with timers := m.timers.step timeMax (action.map .task) }) taskId taskId'
      rw [hsame] at hbegin
      by_cases hid : taskId' = taskId
      · -- its own one-shot fires
        right
        rw [if_pos (by simpa using hid), Nat.add_comm] at hpending
        rw [if_pos hid] at hbegin
        refine (congrArg (View.Move isSerial (m.view taskId)) hbegin).mpr ?_
        exact .fire hpending.symm
      · left
        rw [if_neg (by simpa using hid), Nat.zero_add] at hpending
        rw [if_neg hid, hpending] at hbegin
        exact hbegin

variable [DecidableEq Duration] {call : Call Time Duration Callback}

/-- **A call for another task leaves the task alone.** -/
theorem view_proceed_of_ne (hmem : call ∈ m.calls) (hne : call.taskId ≠ taskId) :
    (m.proceed call).view taskId = m.view taskId := by
  -- the call itself is not seen by the task
  have hbefore := view_of_calls_ne taskId (Multiset.cons_erase hmem).symm hne
  unfold proceed
  cases call with
  | fetched taskId' task =>
    have hne : taskId' ≠ taskId := hne
    simp only
    split
    · rfl
    · refine Eq.trans (view_of_calls_ne taskId rfl hne) ?_
      rw [hbefore]
      -- the registry is changed under the other id only
      simp [view, Function.update_of_ne hne.symm]
  | registered taskId' time => exact Eq.trans (view_of_calls_ne taskId rfl hne) hbefore.symm
  | adding taskId' deadline =>
    have hne : taskId' ≠ taskId := hne
    have hinsert := view_insert (m := { m with calls := m.calls.erase (.adding taskId' deadline) }) taskId
      deadline taskId'
    rw [if_neg hne] at hinsert
    exact hinsert.trans hbefore.symm
  | called taskId' =>
    have hne : taskId' ≠ taskId := hne
    simp only
    split
    · rfl
    · unfold lookUp
      split
      · exact hbefore.symm
      · split
        · exact Eq.trans (view_of_calls_ne taskId rfl hne) hbefore.symm
        · refine Eq.trans (view_of_calls_ne taskId rfl hne) ?_
          rw [hbefore]
          simp [view, Function.update_of_ne hne.symm, hne]
  | rescheduling taskId' deadline callback =>
    have hne : taskId' ≠ taskId := hne
    refine Eq.trans (view_of_calls_ne taskId rfl hne) ?_
    have hinsert := view_insert (m := { m with calls := m.calls.erase (.rescheduling taskId' deadline callback) })
      taskId deadline taskId'
    rw [if_neg hne] at hinsert
    exact hinsert.trans hbefore.symm
  | holding taskId' callback =>
    have hne : taskId' ≠ taskId := hne
    refine Eq.trans (view_of_calls_ne taskId rfl hne) ?_
    rw [hbefore]
    simp [view, hne]
  | running taskId' callback => exact hbefore.symm
  | removing taskId' =>
    have hne : taskId' ≠ taskId := hne
    simp only
    split
    · rfl
    · rw [hbefore]
      simp [view, Function.update_of_ne hne.symm]

/-- **A call for a task moves it**, or waits for the lock. -/
theorem follows_proceed {isSerial : Bool} {taskId : UInt64} (hmem : call ∈ m.calls) (hid : call.taskId = taskId)
    (hserial : isSerial = true → executions m.calls ≤ 1) :
    (m.view taskId).Follows isSerial ((m.proceed call).view taskId) := by
  -- the call is taken out first, so that each case says what it puts back
  obtain ⟨w, rfl⟩ := exists_rest hmem
  unfold proceed
  simp only [Multiset.erase_cons_head]
  cases call with
  | fetched taskId' task =>
    obtain rfl : taskId' = taskId := hid
    simp only
    split
    · exact .inl rfl
    · refine .inr (move_of_calls rfl rfl ?_)
      simp only [View.with, ↓reduceIte, view, Function.update_self]
      exact .register task rfl
  | registered taskId' time =>
    obtain rfl : taskId' = taskId := hid
    refine .inl ((view_cons taskId' _ _).trans ?_)
    rw [view_cons]
    rfl
  | adding taskId' deadline =>
    obtain rfl : taskId' = taskId := hid
    have hinsert := view_insert taskId' (m := w) deadline taskId'
    rw [if_pos rfl] at hinsert
    simp only [Timers.insert] at hinsert ⊢
    rw [hinsert, view_cons]
    simp only [View.with, ↓reduceIte]
    exact .inr (.insert rfl)
  | called taskId' =>
    obtain rfl : taskId' = taskId := hid
    simp only
    split
    · exact .inl rfl
    · exact .inr (move_lookUp isSerial)
  | rescheduling taskId' deadline callback =>
    obtain rfl : taskId' = taskId := hid
    refine .inr (move_of_calls rfl rfl ?_)
    have hinsert := view_insert taskId' (m := w) deadline taskId'
    rw [if_pos rfl] at hinsert
    simp only [View.with, ↓reduceIte, Timers.insert] at hinsert ⊢
    rw [hinsert]
    exact .insert rfl
  | holding taskId' callback =>
    obtain rfl : taskId' = taskId := hid
    refine .inr (move_of_calls rfl rfl ?_)
    simp only [View.with, ↓reduceIte, view, ran_append]
    exact .call rfl
  | running taskId' callback =>
    obtain rfl : taskId' = taskId := hid
    rw [view_cons]
    simp only [View.with, ↓reduceIte]
    exact .inr (.leave rfl)
  | removing taskId' =>
    obtain rfl : taskId' = taskId := hid
    simp only
    split
    · exact .inl rfl
    · right
      rw [view_cons]
      simp only [View.with, ↓reduceIte, view, Function.update_self]
      -- the last call of a serial task removes it, when no other execution is left
      refine .remove rfl fun hser => ?_
      have hcount := hserial hser
      rw [executions_cons, if_pos (by rfl)] at hcount
      exact quiet_of_countP taskId' (by omega)

/-! ## Task ids -/

/-- **A task gets its id**, which nothing has had before. -/
theorem follows_addPeriodicTask (hcounts : Counts m) (hfew : m.issued < 2 ^ 64) (isSerial : Bool)
    (taskId : UInt64) (timeMax : Time) (time : Duration) (callback : Callback) (remainTimes : ℤ) :
    (m.view taskId).Follows isSerial
      ((m.step timeMax (.addPeriodicTask time callback remainTimes)).view taskId) := by
  -- the id that is drawn is the number of those drawn before
  have hnext := hcounts.toNat_cycleTaskId hfew
  have hafter := view_cons taskId (m := { m with cycleTaskId := m.cycleTaskId + 1, issued := m.issued + 1 })
    (.fetched m.cycleTaskId ⟨time, callback, remainTimes⟩) m.calls
  simp only [step]
  rw [hafter]
  simp only [View.with]
  split
  · rename_i hid
    rw [hid] at hnext
    have hassigned : ({ m with cycleTaskId := m.cycleTaskId + 1, issued := m.issued + 1 } :
        TimerManager Time Duration Callback).view taskId = { m.view taskId with isAssigned := true } := by
      simp [view, hnext]
    rw [hassigned]
    right
    apply View.Move.fetch
    simp [view, hnext]
  · rename_i hid
    left
    have hne : taskId.toNat ≠ m.issued := fun heq => hid (UInt64.toNat_inj.1 (hnext.trans heq.symm))
    have hiff : taskId.toNat < m.issued + 1 ↔ taskId.toNat < m.issued := by omega
    simp only [view, hiff]

theorem issued_proceed (call : Call Time Duration Callback) :
    (m.proceed call).issued = m.issued ∧ (m.proceed call).cycleTaskId = m.cycleTaskId := by
  unfold proceed
  cases call with
  | called taskId =>
    simp only
    split
    · exact ⟨rfl, rfl⟩
    · unfold lookUp
      split
      · exact ⟨rfl, rfl⟩
      · split <;> exact ⟨rfl, rfl⟩
  | fetched taskId task =>
    simp only
    split <;> exact ⟨rfl, rfl⟩
  | removing taskId =>
    simp only
    split <;> exact ⟨rfl, rfl⟩
  | _ => exact ⟨rfl, rfl⟩

/-- **An id is drawn for each call of `add_periodic_task`.** -/
theorem issued_step (timeMax : Time) (m : TimerManager Time Duration Callback)
    (action : Action Time Duration Callback) :
    (m.step timeMax action).issued = m.issued + (if action.isAddPeriodicTask then 1 else 0) := by
  cases action with
  | proceed call =>
    simp only [step]
    split
    · exact (issued_proceed call).1
    · rfl
  | addPeriodicTask time callback remainTimes => rfl
  | _ =>
    simp only [step]
    split <;> rfl

theorem Counts.step (h : Counts m) (timeMax : Time) (action : Action Time Duration Callback) :
    Counts (m.step timeMax action) := by
  cases action with
  | addPeriodicTask time callback remainTimes =>
    show m.cycleTaskId + 1 = .ofNat (m.issued + 1)
    rw [h, UInt64.ofNat_add]
    rfl
  | proceed call =>
    simp only [TimerManager.step]
    split
    · obtain ⟨hissued, hcycle⟩ := issued_proceed (m := m) call
      rw [Counts, hissued, hcycle]
      exact h
    · exact h
  | _ =>
    simp only [TimerManager.step]
    split <;> exact h

/-! ## One step -/

/-- A task is cancelled, or its cancellation waits for the lock. -/
theorem follows_cancelPeriodicTask (isSerial : Bool) (taskId : UInt64) (timeMax : Time) (taskId' : UInt64) :
    (m.view taskId).Follows isSerial ((m.step timeMax (.cancelPeriodicTask taskId')).view taskId) := by
  simp only [step]
  split
  · exact .inl rfl
  · by_cases hid : taskId' = taskId
    · subst hid
      right
      have hafter : ({ m with
          periodicTasks := Function.update m.periodicTasks taskId' none
          cancelled := if (m.registrations taskId').isSome then m.cancelled ++ [taskId'] else m.cancelled } :
          TimerManager Time Duration Callback).view taskId' =
          { m.view taskId' with
            entry := none
            isCancelled := (m.view taskId').isCancelled || (m.view taskId').registration.isSome } := by
        cases hregistration : m.registrations taskId' <;> simp [view, hregistration]
      rw [hafter]
      exact .cancel
    · left
      -- another task is cancelled, or nobody
      have hmem : (taskId ∈ if (m.registrations taskId').isSome then m.cancelled ++ [taskId'] else m.cancelled) ↔
          taskId ∈ m.cancelled := by
        split
        · simp [Ne.symm hid]
        · exact Iff.rfl
      simp only [view, hmem, Function.update_of_ne (Ne.symm hid)]

/-- **One step of the manager** is at most one move of a task. -/
theorem follows_step {isSerial : Bool} (timeMax : Time) (action : Action Time Duration Callback) (taskId : UInt64)
    (hcounts : Counts m) (hfew : m.issued + (if action.isAddPeriodicTask then 1 else 0) ≤ 2 ^ 64)
    (hserial : isSerial = true → executions m.calls ≤ 1) :
    (m.view taskId).Follows isSerial ((m.step timeMax action).view taskId) := by
  cases action with
  | timers action =>
    simp only [step]
    split
    · exact .inl rfl
    · exact follows_timers taskId timeMax isSerial action
  | addPeriodicTask time callback remainTimes =>
    exact follows_addPeriodicTask hcounts hfew isSerial taskId timeMax time callback remainTimes
  | cancelPeriodicTask taskId' => exact follows_cancelPeriodicTask isSerial taskId timeMax taskId'
  | proceed call =>
    simp only [step]
    split
    · rename_i hmem
      by_cases hid : call.taskId = taskId
      · exact follows_proceed hmem hid hserial
      · exact .inl (view_proceed_of_ne taskId hmem hid)
    · exact .inl rfl

/-! ## One call at a time -/

/-- Without an environment, the calls of `execute_periodic_task` are on the timer thread. -/
structure Serial (m : TimerManager Time Duration Callback) : Prop where
  single : executions m.calls ≤ 1
  isThread : m.timers.thread ≠ .executing → executions m.calls = 0

/-- A call that goes on is not two, and leaves the timer thread where it is. -/
theorem proceed_calls (hmem : call ∈ m.calls) :
    executions (m.proceed call).calls ≤ executions m.calls ∧
      (m.proceed call).timers.thread = m.timers.thread := by
  obtain ⟨w, rfl⟩ := exists_rest hmem
  unfold proceed
  simp only [Multiset.erase_cons_head]
  cases call with
  | fetched taskId task =>
    simp only
    split <;> simp [executions_cons, Call.isExecution]
  | called taskId =>
    simp only
    split
    · exact ⟨le_rfl, rfl⟩
    · unfold lookUp
      split
      · simp [executions_cons]
      · split <;> simp [executions_cons, Call.isExecution]
  | removing taskId =>
    simp only
    split <;> simp [executions_cons]
  | _ => simp [executions_cons, Call.isExecution, Timers.insert]

omit [DecidableEq Duration] in
/-- The timer thread goes on when no call is under way. -/
theorem Serial.thread (hquiet : executions m.calls = 0) (timeMax : Time) (isTimeout : Bool) :
    Serial
      { m with
        timers := m.timers.step timeMax ((.thread isTimeout : Timers.Action Time Duration Callback).map .task)
        calls := m.begin (m.timers.starts
          ((.thread isTimeout : Timers.Action Time Duration Callback).map (@Job.task Callback))) } := by
  have hsingle : executions m.calls ≤ 1 := by omega
  simp only [Timers.step, Timers.Action.map, Timers.threadStep, Timers.starts]
  cases hthread : m.timers.thread with
  | popping =>
    simp only
    split
    · rename_i htasks
      rw [htasks]
      exact ⟨hsingle, fun _ => hquiet⟩
    · rename_i task tasks htasks
      rw [htasks]
      refine ⟨?_, fun hne => absurd rfl hne⟩
      refine (executions_begin m (some task.callback)).trans ?_
      omega
  | _ => exact ⟨hsingle, fun _ => hquiet⟩

/-- **Without an environment, one call of `execute_periodic_task` at a time.** -/
theorem Serial.step (h : Serial m) (hdirect : m.hasExecuteEnvironment = false) (timeMax : Time)
    (action : Action Time Duration Callback) : Serial (m.step timeMax action) := by
  have hsingle := h.single
  cases action with
  | timers action =>
    simp only [TimerManager.step]
    split
    · exact h
    · rename_i hguard
      cases action with
      | thread isTimeout =>
        -- the thread goes on only when no call that it has made is still executing
        have hquiet : executions m.calls = 0 := by
          by_cases hthread : m.timers.thread = .executing
          · exact executions_eq_zero fun hexecuting => hguard ⟨by simp [hdirect], hthread, hexecuting, rfl⟩
          · exact h.isThread hthread
        exact Serial.thread hquiet timeMax isTimeout
      | insert deadline callback =>
        simp only [Timers.step, Timers.Action.map]
        split <;> exact { h with }
      | _ => exact { h with }
  | addPeriodicTask time callback remainTimes =>
    simp only [TimerManager.step]
    constructor
    · simpa [executions_cons, Call.isExecution] using hsingle
    · simpa [executions_cons, Call.isExecution] using h.isThread
  | cancelPeriodicTask taskId =>
    simp only [TimerManager.step]
    split <;> exact { h with }
  | proceed call =>
    simp only [TimerManager.step]
    split
    · rename_i hmem
      obtain ⟨hle, hthread⟩ := proceed_calls hmem
      refine ⟨hle.trans hsingle, fun hne => ?_⟩
      rw [hthread] at hne
      have hzero := h.isThread hne
      omega
    · exact h

end ProjectTrans.TimerManager
