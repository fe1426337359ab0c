import ProjectTrans.Lib.Run
import ProjectTrans.Proof.Concurrent.PeriodicView

/-!
# Periodic tasks over whole runs

What the moves of one task keep holds of every task in every state of every run
(`Good.foldl`). From it: a task has its executions and is removed then, an endless one is
always on its way to the next, and a cancelled one is copied no more (`periodic_tasks`).
-/

namespace ProjectTrans.TimerManager

variable {Time Duration Callback : Type*} {m : TimerManager Time Duration Callback}

/-! ## The invariant -/

variable (m) in
/-- Every task is as its moves leave it. -/
structure Good : Prop where
  tasks : ∀ taskId, (m.view taskId).Inv !m.hasExecuteEnvironment
  counts : Counts m
  serial : m.hasExecuteEnvironment = false → Serial m

theorem Good.init (hasExecuteEnvironment : Bool) (clock : Time) :
    Good (init hasExecuteEnvironment clock : TimerManager Time Duration Callback) where
  tasks := fun taskId => {
    unassigned := fun _ => ⟨rfl, rfl⟩
    fetched_le := Nat.zero_le _
    fetched := fun _ => rfl
    unregistered := fun _ => ⟨rfl, rfl, rfl, rfl, rfl, rfl, rfl, by simp [view, TimerManager.init]⟩
    registered := fun _ h => absurd h.symm (Option.some_ne_none _) }
  counts := rfl
  serial := fun _ => ⟨Nat.zero_le _, fun _ => rfl⟩

variable [LinearOrder Time] [VAdd Duration Time] [DecidableEq Duration] [DecidableEq Callback]

theorem step_hasExecuteEnvironment (timeMax : Time) (action : Action Time Duration Callback) :
    (m.step timeMax action).hasExecuteEnvironment = m.hasExecuteEnvironment := by
  cases action with
  | proceed call =>
    simp only [TimerManager.step]
    split
    · cases call <;> simp only [proceed, lookUp] <;> split_ifs <;> try split
      all_goals try split_ifs
      all_goals rfl
    · rfl
  | addPeriodicTask time callback remainTimes => rfl
  | _ =>
    simp only [TimerManager.step]
    split <;> rfl

variable (m) in
/-- The step draws no id that was drawn before. -/
def Fresh (action : Action Time Duration Callback) : Prop :=
  m.issued + (if action.isAddPeriodicTask then 1 else 0) ≤ 2 ^ 64

/-- **A step is at most one move of each task.** -/
theorem Good.follows (h : Good m) (timeMax : Time) {action : Action Time Duration Callback}
    (hfresh : Fresh m action) (taskId : UInt64) :
    (m.view taskId).Follows (!m.hasExecuteEnvironment) ((m.step timeMax action).view taskId) := by
  apply follows_step timeMax action taskId h.counts hfresh
  intro hser
  exact (h.serial (by simpa using hser)).single

theorem Good.step (h : Good m) (timeMax : Time) {action : Action Time Duration Callback}
    (hfresh : Fresh m action) : Good (m.step timeMax action) where
  tasks := by
    intro taskId
    rw [step_hasExecuteEnvironment]
    rcases h.follows timeMax hfresh taskId with heq | hmove
    · rw [heq]
      exact h.tasks taskId
    · exact (h.tasks taskId).move hmove
  counts := h.counts.step timeMax action
  serial := by
    intro hdirect
    rw [step_hasExecuteEnvironment] at hdirect
    exact (h.serial hdirect).step hdirect timeMax action

/-- While there are not more than `2 ^ 64` calls, no id is drawn twice. -/
theorem meets_fresh (timeMax : Time) {actions : List (Action Time Duration Callback)}
    (hfew : m.issued + actions.countP Action.isAddPeriodicTask ≤ 2 ^ 64) :
    Run.Meets Fresh (TimerManager.step timeMax) m actions :=
  Run.Meets.of_countP (fun m action => (issued_step timeMax m action).le) hfew

theorem Good.foldl (h : Good m) (timeMax : Time) {actions : List (Action Time Duration Callback)}
    (hfew : m.issued + actions.countP Action.isAddPeriodicTask ≤ 2 ^ 64) :
    Good (actions.foldl (TimerManager.step timeMax) m) :=
  (meets_fresh timeMax hfew).invariant Good (fun _ _ h hfresh => h.step timeMax hfresh) h

/-! ## What is done for a task -/

/-- The manager in the course of a run without end. -/
abbrev stateAt (timeMax : Time) (m : TimerManager Time Duration Callback)
    (actions : ℕ → Action Time Duration Callback) : ℕ → TimerManager Time Duration Callback :=
  Run.states (TimerManager.step timeMax) m actions

variable (timeMax : Time) (m) in
/-- A run without end from here on in which the task is not cancelled, in which what is on
its way for it does not stay where it is, and in which no id is drawn twice. -/
structure FairRun (taskId : UInt64) (actions : ℕ → Action Time Duration Callback) : Prop where
  fresh : ∀ t, Fresh (stateAt timeMax m actions t) (actions t)
  uncancelled : ∀ t, taskId ∉ (stateAt timeMax m actions t).cancelled
  fair : ∀ t, ((stateAt timeMax m actions t).view taskId).IsBusy → ∃ t', t ≤ t' ∧
    (stateAt timeMax m actions t').view taskId ≠
      (stateAt timeMax m actions t).view taskId

variable (timeMax : Time) (m) in
/-- **What the manager does for a task** that was registered. What has been called, with the
copies that are yet to be called, is its callback once for each copy, and for each copy the
next one-shot has been inserted or is about to be. While the task stays registered, it has
its remaining executions, and one thing on its way towards the next; it is removed when it
has had them all. Once it is cancelled no copy is made. -/
structure Served (taskId : UInt64) (task : PeriodicTask Duration Callback) : Prop where
  calls : (m.view taskId).ran + (m.view taskId).held = Multiset.replicate (m.view taskId).copied task.callback
  within : 0 ≤ task.remainTimes → ((m.view taskId).copied : ℤ) ≤ task.remainTimes
  rescheduled : (m.view taskId).scheduled + (m.view taskId).inserting = (m.view taskId).copied + 1
  ongoing : taskId ∉ m.cancelled → ∀ entry, m.periodicTasks taskId = some entry →
    entry = task.after (m.view taskId).copied ∧ (m.view taskId).steps = 1
  removed : taskId ∉ m.cancelled → m.periodicTasks taskId = none →
    ((m.view taskId).copied : ℤ) = task.remainTimes ∧ (m.view taskId).steps = 0 ∧
      (m.hasExecuteEnvironment = false →
        (m.view taskId).ran = Multiset.replicate task.remainTimes.toNat task.callback ∧
          (m.view taskId).running = 0)
  completed : 0 ≤ task.remainTimes → ∀ actions, FairRun m timeMax taskId actions → ∃ t, ∀ t', t ≤ t' →
    (stateAt timeMax m actions t').periodicTasks taskId = none ∧
      ((stateAt timeMax m actions t').view taskId).ran =
        Multiset.replicate task.remainTimes.toNat task.callback
  endless : task.remainTimes < 0 → taskId ∉ m.cancelled →
    m.periodicTasks taskId = some task ∧
      (m.view taskId).inserting + (m.view taskId).pending + (m.view taskId).called = 1
  cancelled : taskId ∈ m.cancelled → ∀ actions : List (Action Time Duration Callback),
    m.issued + actions.countP Action.isAddPeriodicTask ≤ 2 ^ 64 →
    ((actions.foldl (TimerManager.step timeMax) m).view taskId).copied = (m.view taskId).copied

variable (timeMax : Time) (m) in
/-- Every registered task is served. -/
def Serves : Prop := ∀ taskId task, m.registrations taskId = some task → Served m timeMax taskId task

variable {taskId : UInt64} {task : PeriodicTask Duration Callback}

/-- A registered task stays registered with what it was. -/
theorem Good.registrations_step (h : Good m) (timeMax : Time) {action : Action Time Duration Callback}
    (hfresh : Fresh m action) (hregistered : m.registrations taskId = some task) :
    (m.step timeMax action).registrations taskId = some task := by
  rcases h.follows timeMax hfresh taskId with heq | hmove
  · exact (congrArg View.registration heq).trans hregistered
  · exact (hmove.registration_eq (h.tasks taskId) hregistered).1

theorem Good.of_stateAt (h : Good m) {timeMax : Time} {actions : ℕ → Action Time Duration Callback}
    (hfair : FairRun m timeMax taskId actions) (hregistered : m.registrations taskId = some task) (t : ℕ) :
    Good (stateAt timeMax m actions t) ∧ (stateAt timeMax m actions t).registrations taskId = some task :=
  Run.states_invariant_of (fun m => Good m ∧ m.registrations taskId = some task)
    (fun _ _ hinv hfresh => ⟨hinv.1.step timeMax hfresh, hinv.1.registrations_step timeMax hfresh hinv.2⟩)
    ⟨h, hregistered⟩ hfair.fresh t

/-! ## A cancelled task -/

/-- The task is gone and stays so: no copy is made. -/
theorem Good.copied_foldl (h : Good m) (timeMax : Time) {actions : List (Action Time Duration Callback)}
    (hmeets : Run.Meets Fresh (TimerManager.step timeMax) m actions)
    (hregistered : m.registrations taskId = some task) (hnone : m.periodicTasks taskId = none) :
    ((actions.foldl (TimerManager.step timeMax) m).view taskId).copied = (m.view taskId).copied := by
  induction actions generalizing m with
  | nil => rfl
  | cons action actions ih =>
    obtain ⟨hfresh, hmeets⟩ := hmeets
    have hnext : (m.step timeMax action).periodicTasks taskId = none ∧
        ((m.step timeMax action).view taskId).copied = (m.view taskId).copied := by
      rcases h.follows timeMax hfresh taskId with heq | hmove
      · exact ⟨(congrArg View.entry heq).trans hnone, congrArg View.copied heq⟩
      · exact hmove.copied_eq (h.tasks taskId) hregistered hnone
    have hrest := ih (h.step timeMax hfresh) hmeets (h.registrations_step timeMax hfresh hregistered) hnext.1
    exact hrest.trans hnext.2

/-! ## A task that is not cancelled -/

/-- **Without a cancellation the moves are used up**: the task is as it was, or has fewer left. -/
theorem Good.left_states (h : Good m) {timeMax : Time} {actions : ℕ → Action Time Duration Callback}
    (hfair : FairRun m timeMax taskId actions) (hregistered : m.registrations taskId = some task)
    (hsign : 0 ≤ task.remainTimes) (t t' : ℕ) (hle : t ≤ t') :
    (stateAt timeMax m actions t').view taskId =
        (stateAt timeMax m actions t).view taskId ∨
      ((stateAt timeMax m actions t').view taskId).left task <
        ((stateAt timeMax m actions t).view taskId).left task := by
  induction t', hle using Nat.le_induction with
  | base => exact .inl rfl
  | succ t' _ ih =>
    obtain ⟨hgood, hregistered⟩ := h.of_stateAt hfair hregistered t'
    rcases hgood.follows timeMax (hfair.fresh t') taskId with heq | hmove
    · rw [stateAt, Run.states, heq]
      exact ih
    · right
      -- a move of this task, which is registered and not cancelled
      have hlt := hmove.left_lt (hgood.tasks taskId) hregistered hsign (by
        have hnext := hfair.uncancelled (t' + 1)
        rw [stateAt, Run.states] at hnext
        simpa [view] using hnext)
      rcases ih with hsame | hless
      · rw [← hsame]
        exact hlt
      · exact hlt.trans hless

/-- **A task that is not cancelled is completed.** -/
theorem Good.completed (h : Good m) (timeMax : Time) (hregistered : m.registrations taskId = some task)
    (hsign : 0 ≤ task.remainTimes) {actions : ℕ → Action Time Duration Callback}
    (hfair : FairRun m timeMax taskId actions) : ∃ t, ∀ t', t ≤ t' →
      (stateAt timeMax m actions t').periodicTasks taskId = none ∧
        ((stateAt timeMax m actions t').view taskId).ran =
          Multiset.replicate task.remainTimes.toNat task.callback := by
  have hleft := h.left_states hfair hregistered hsign
  -- the moves that are left go down as long as something is on its way for the task
  obtain ⟨t, hidle⟩ := Run.exists_not_of_measure (fun t => ((stateAt timeMax m actions t).view taskId).left task)
    (fun t => ((stateAt timeMax m actions t).view taskId).IsBusy) (by
      intro t hbusy
      obtain ⟨t', hle, hne⟩ := hfair.fair t hbusy
      exact ⟨t', (hleft t t' hle).resolve_left hne⟩)
  obtain ⟨hgood, hregistered⟩ := h.of_stateAt hfair hregistered t
  have htracks := (hgood.tasks taskId).registered task hregistered
  have hnot : ((stateAt timeMax m actions t).view taskId).isCancelled = false := by
    simpa [view] using hfair.uncancelled t
  obtain ⟨hnone, hran, hzero⟩ := htracks.of_not_busy hnot hidle
  -- with no move left, nothing changes any more
  refine ⟨t, fun t' hle => ?_⟩
  have hsame := (hleft t t' hle).resolve_right (by omega)
  exact ⟨(congrArg View.entry hsame).trans hnone, (congrArg View.ran hsame).trans hran⟩

/-! ## Runs -/

theorem Good.served (h : Good m) (timeMax : Time) (hregistered : m.registrations taskId = some task) :
    Served m timeMax taskId task := by
  have htracks := (h.tasks taskId).registered task hregistered
  have hflag : taskId ∉ m.cancelled → (m.view taskId).isCancelled = false := by
    intro hnot
    simpa [view] using hnot
  refine {
    calls := htracks.calls
    within := htracks.within
    rescheduled := htracks.scheduled
    ongoing := fun _ entry hentry => ⟨(htracks.registered entry hentry).2.1,
      (htracks.registered entry hentry).2.2.1⟩
    removed := fun hnot hnone => ?_
    completed := fun hsign _ hfair => h.completed timeMax hregistered hsign hfair
    endless := fun hsign hnot => ?_
    cancelled := fun hcancelled actions hfew => ?_ }
  · obtain ⟨hsteps, hcopied, hserial⟩ := htracks.removed hnone (hflag hnot)
    refine ⟨hcopied, hsteps, fun hdirect => ?_⟩
    obtain ⟨hheld, hrunning⟩ := hserial (by simpa using hdirect)
    have hcalls := htracks.calls
    have htimes : task.remainTimes.toNat = (m.view taskId).copied := by omega
    rw [hheld, add_zero, ← htimes] at hcalls
    exact ⟨hcalls, hrunning⟩
  · cases hentry : m.periodicTasks taskId with
    | none =>
      have hcopied := (htracks.removed hentry (hflag hnot)).2.1
      omega
    | some entry =>
      obtain ⟨-, rfl, hsteps, hremoving⟩ := htracks.registered entry hentry
      have hsame : task.after (m.view taskId).copied = task := by
        rw [PeriodicTask.after, if_neg (by omega)]
      rw [hsame] at hremoving ⊢
      unfold View.steps at hsteps
      have hzero : (m.view taskId).removing = 0 := by
        by_contra hne
        have := hremoving hne
        omega
      exact ⟨rfl, by omega⟩
  · -- the entry of a cancelled task is gone
    apply h.copied_foldl timeMax (meets_fresh timeMax hfew) hregistered
    cases hentry : m.periodicTasks taskId with
    | none => rfl
    | some entry =>
      have hnot := (htracks.registered entry hentry).1
      simp [view, hcancelled] at hnot

/-- An old reading of the clock changes nothing. -/
theorem step_tick {time : Time} (timeMax : Time) (hle : time ≤ m.timers.clock) :
    m.step timeMax (.timers (.tick time)) = m := by
  have hclock : max m.timers.clock time = m.timers.clock := max_eq_left hle
  simp [TimerManager.step, Timers.Action.map, Timers.Action.isThread, Timers.step, Timers.starts, begin, hclock]

/-- A run that comes to rest when nothing is on its way for the task puts nothing off. -/
theorem FairRun.of_rest {timeMax : Time} {actions : ℕ → Action Time Duration Callback} {t₀ : ℕ}
    (hrest : ∀ t, t₀ ≤ t → TimerManager.step timeMax (stateAt timeMax m actions t₀) (actions t) =
      stateAt timeMax m actions t₀)
    (hfresh : ∀ t, Fresh (stateAt timeMax m actions t) (actions t))
    (hnot : ∀ t, t ≤ t₀ → taskId ∉ (stateAt timeMax m actions t).cancelled)
    (hidle : ¬((stateAt timeMax m actions t₀).view taskId).IsBusy) : FairRun m timeMax taskId actions where
  fresh := hfresh
  uncancelled := by
    intro t
    rcases le_total t t₀ with hle | hle
    · exact hnot t hle
    · rw [stateAt, Run.states_eq_of_rest hrest hle]
      exact hnot t₀ le_rfl
  fair := by
    intro t hbusy
    rcases le_total t t₀ with hle | hle
    · exact ⟨t₀, hle, fun heq => hidle (heq ▸ hbusy)⟩
    · rw [stateAt, Run.states_eq_of_rest hrest hle] at hbusy
      exact absurd hbusy hidle

/-- **Periodic tasks over every run** in which no task id is drawn twice: whatever is registered
is served. -/
theorem periodic_tasks (hasExecuteEnvironment : Bool) (timeMax clock : Time)
    {actions : List (Action Time Duration Callback)} (hfew : actions.countP Action.isAddPeriodicTask ≤ 2 ^ 64) :
    (actions.foldl (TimerManager.step timeMax) (TimerManager.init hasExecuteEnvironment clock)).Serves
      timeMax := by
  intro taskId task hregistered
  refine ((Good.init hasExecuteEnvironment clock).foldl timeMax ?_).served timeMax hregistered
  simpa [TimerManager.init] using hfew

/-- A task of one execution, and an endless one that its own callback cancels: the first is
called once and removed. -/
theorem periodic_tasks_once :
    let registered : List (Action ℕ ℕ ℕ) := [.addPeriodicTask 5 7 1, .proceed (.fetched 0 ⟨5, 7, 1⟩)]
    let m := registered.foldl (step 1000) (init false 0)
    let rest : List (Action ℕ ℕ ℕ) :=
      [.proceed (.registered 0 5), .proceed (.adding 0 5), .addPeriodicTask 5 8 (-1),
        .proceed (.fetched 1 ⟨5, 8, -1⟩), .proceed (.registered 1 5), .proceed (.adding 1 5),
        .timers (.thread false), .timers (.thread false), .timers (.tick 5), .timers (.thread true),
        .timers (.thread false), .proceed (.called 0), .proceed (.rescheduling 0 10 7), .proceed (.holding 0 7),
        .proceed (.running 0 7), .timers (.thread false), .timers (.thread false), .proceed (.called 1),
        .proceed (.rescheduling 1 10 8), .proceed (.holding 1 8), .cancelPeriodicTask 1, .proceed (.running 1 8),
        .timers (.thread false), .timers (.thread false), .timers (.thread false), .timers (.thread false),
        .timers (.tick 10), .timers (.thread true), .timers (.thread false), .proceed (.called 0),
        .proceed (.removing 0)]
    let actions : ℕ → Action ℕ ℕ ℕ := fun t => (rest[t]?).getD (.timers (.tick 0))
    FairRun m 1000 0 actions ∧ ∃ t, ∀ t', t ≤ t' →
      (stateAt 1000 m actions t').periodicTasks 0 = none ∧ ((stateAt 1000 m actions t').view 0).ran = {7} := by
  intro registered m rest actions
  have hserves : m.Serves 1000 := periodic_tasks false 1000 0 (by decide)
  have hlate : ∀ t, 31 ≤ t → actions t = .timers (.tick 0) := by
    intro t hle
    show (rest[t]?).getD _ = _
    rw [List.getElem?_eq_none hle, Option.getD_none]
  -- after its 31 actions the run only reads the clock again
  have hrest : ∀ t, 31 ≤ t → step 1000 (stateAt 1000 m actions 31) (actions t) = stateAt 1000 m actions 31 := by
    intro t hle
    rw [hlate t hle]
    exact step_tick 1000 (Nat.zero_le _)
  have hfresh : ∀ t, Fresh (stateAt 1000 m actions t) (actions t) := by
    intro t
    rcases Nat.lt_or_ge t 31 with hlt | hle
    · have hall : ∀ t < 31, (stateAt 1000 m actions t).issued ≤ 2 := by decide +kernel
      have htwo := hall t hlt
      unfold Fresh
      split <;> omega
    · rw [stateAt, Run.states_eq_of_rest hrest hle, hlate t hle]
      unfold Fresh
      decide +kernel
  have hnot : ∀ t, t ≤ 31 → 0 ∉ (stateAt 1000 m actions t).cancelled := by decide +kernel
  have hidle : ¬((stateAt 1000 m actions 31).view 0).IsBusy := by
    unfold View.IsBusy
    decide +kernel
  have hfair : FairRun m 1000 0 actions := .of_rest hrest hfresh hnot hidle
  exact ⟨hfair, (hserves 0 ⟨5, 7, 1⟩ (by decide)).completed (by decide) actions hfair⟩

/-- The steps of the periodic tasks insert one-shots. -/
theorem inv_step (h : m.timers.Inv) (timeMax : Time) (action : Action Time Duration Callback) :
    (m.step timeMax action).timers.Inv := by
  cases action with
  | timers action =>
    simp only [TimerManager.step]
    split
    · exact h
    · exact h.step (action.map .task)
  | addPeriodicTask time callback remainTimes => exact h
  | cancelPeriodicTask taskId =>
    simp only [TimerManager.step]
    split <;> exact h
  | proceed call =>
    simp only [TimerManager.step]
    split
    · unfold proceed
      cases call with
      | adding taskId deadline => exact h.insert deadline (.periodic taskId)
      | rescheduling taskId deadline callback => exact h.insert deadline (.periodic taskId)
      | called taskId =>
        simp only
        split
        · exact h
        · unfold lookUp
          split
          · exact h
          · split <;> exact h
      | registered taskId time => exact h
      | holding taskId callback => exact h
      | running taskId callback => exact h
      | _ =>
        simp only
        split <;> exact h
    · exact h

/-- **The one-shots of the manager**, the periodic tasks' among them, are one-shots. -/
theorem keeps_foldl (hasExecuteEnvironment : Bool) (timeMax clock : Time)
    (actions : List (Action Time Duration Callback)) :
    (actions.foldl (TimerManager.step timeMax) (TimerManager.init hasExecuteEnvironment clock)).timers.Keeps :=
  (List.foldlRecOn (motive := fun m : TimerManager Time Duration Callback => m.timers.Inv) actions
    (TimerManager.step timeMax) (Timers.Inv.init clock) fun _ h action _ => inv_step h timeMax action).keeps

end ProjectTrans.TimerManager
