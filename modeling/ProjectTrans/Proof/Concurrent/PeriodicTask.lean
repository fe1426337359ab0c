import ProjectTrans.Model.Concurrent.TimerManager

/-!
# One periodic task

What the manager has of one task, counted: its entry in the registry, the calls that are on
their way for it, its one-shots, the copies of its callback. `Move` says what can happen to
one task; `Tracks` is what all moves keep, and `left` what they use up.
-/

namespace ProjectTrans

variable {Duration Callback : Type*}

/-- A task after some of its executions: a negative count of remaining ones stays. -/
def PeriodicTask.after (task : PeriodicTask Duration Callback) (copied : ℕ) : PeriodicTask Duration Callback :=
  { task with remainTimes := if 0 ≤ task.remainTimes then task.remainTimes - copied else task.remainTimes }

namespace TimerManager

/-- What there is of one task. `inserting` are the calls that have yet to insert its next
one-shot, `pending` the one-shots, `called` the calls that have yet to look the task up,
`held` the copies of the callback that have yet to be called, `running` the calls in it,
and `removing` those that are to remove the task; `scheduled`, `copied` and `ran` are the
one-shots, copies and calls so far. -/
@[ext]
structure View (Duration Callback : Type*) where
  isAssigned : Bool
  fetched : ℕ
  registration : Option (PeriodicTask Duration Callback)
  entry : Option (PeriodicTask Duration Callback)
  isCancelled : Bool
  inserting : ℕ
  pending : ℕ
  called : ℕ
  held : Multiset Callback
  running : ℕ
  removing : ℕ
  scheduled : ℕ
  copied : ℕ
  ran : Multiset Callback

namespace View

/-- The ways in which the task can come to its next look-up or its removal. -/
def steps (v : View Duration Callback) : ℕ := v.inserting + v.pending + v.called + v.removing

/-- What can happen to a task. In a serial manager only one call of `execute_periodic_task`
is under way at a time. -/
inductive Move (isSerial : Bool) : View Duration Callback → View Duration Callback → Prop
  | fetch {v : View Duration Callback} : v.isAssigned = false →
      Move isSerial v { v with isAssigned := true, fetched := v.fetched + 1 }
  | register {v : View Duration Callback} {n : ℕ} (task : PeriodicTask Duration Callback) : v.fetched = n + 1 →
      Move isSerial v
        { v with
          fetched := n
          registration := some task
          entry := v.entry.or (some task)
          inserting := v.inserting + 1 }
  | insert {v : View Duration Callback} {n : ℕ} : v.inserting = n + 1 →
      Move isSerial v { v with inserting := n, pending := v.pending + 1, scheduled := v.scheduled + 1 }
  | fire {v : View Duration Callback} {n : ℕ} : v.pending = n + 1 →
      Move isSerial v { v with pending := n, called := v.called + 1 }
  | miss {v : View Duration Callback} {n : ℕ} : v.called = n + 1 → v.entry = none →
      Move isSerial v { v with called := n }
  | copy {v : View Duration Callback} {n : ℕ} {task : PeriodicTask Duration Callback} : v.called = n + 1 →
      v.entry = some task → task.remainTimes ≠ 0 →
      Move isSerial v
        { v with
          called := n
          entry :=
            some (if 0 < task.remainTimes then { task with remainTimes := task.remainTimes - 1 } else task)
          inserting := v.inserting + 1
          held := task.callback ::ₘ v.held
          copied := v.copied + 1 }
  | finish {v : View Duration Callback} {n : ℕ} {task : PeriodicTask Duration Callback} : v.called = n + 1 →
      v.entry = some task → task.remainTimes = 0 →
        Move isSerial v { v with called := n, removing := v.removing + 1 }
  | call {v : View Duration Callback} {callback : Callback} {held : Multiset Callback} : v.held =
    callback ::ₘ held →
      Move isSerial v { v with held := held, running := v.running + 1, ran := callback ::ₘ v.ran }
  | leave {v : View Duration Callback} {n : ℕ} : v.running = n + 1 → Move isSerial v { v with running := n }
  | remove {v : View Duration Callback} {n : ℕ} : v.removing = n + 1 →
      (isSerial = true → v.held = 0 ∧ v.running = 0) → Move isSerial v { v with removing := n, entry := none }
  | cancel {v : View Duration Callback} :
      Move isSerial v { v with entry := none, isCancelled := v.isCancelled || v.registration.isSome }

/-- One move, or none. -/
def Follows (isSerial : Bool) (v v' : View Duration Callback) : Prop := v' = v ∨ Move isSerial v v'

/-! ## What the moves keep -/

/-- **A task is tracked**: every copy of its callback has been called or is yet to be, and
has been made for one of its one-shots but the next. As long as it is registered there is one
way to go on; removed without a cancellation, it has had all its executions. -/
structure Tracks (isSerial : Bool) (v : View Duration Callback) (task : PeriodicTask Duration Callback) :
    Prop where
  calls : v.ran + v.held = Multiset.replicate v.copied task.callback
  scheduled : v.scheduled + v.inserting = v.copied + 1
  within : 0 ≤ task.remainTimes → (v.copied : ℤ) ≤ task.remainTimes
  registered : ∀ entry, v.entry = some entry →
    v.isCancelled = false ∧ entry = task.after v.copied ∧ v.steps = 1 ∧ (v.removing ≠ 0 → entry.remainTimes = 0)
  gone : v.entry = none → v.steps ≤ 1
  removed : v.entry = none → v.isCancelled = false →
    v.steps = 0 ∧ (v.copied : ℤ) = task.remainTimes ∧ (isSerial = true → v.held = 0 ∧ v.running = 0)

/-- Nothing is there of a task that has not been registered; a registered one is tracked. -/
structure Inv (isSerial : Bool) (v : View Duration Callback) : Prop where
  unassigned : v.isAssigned = false → v.fetched = 0 ∧ v.registration = none
  fetched_le : v.fetched ≤ 1
  fetched : v.fetched ≠ 0 → v.registration = none
  unregistered : v.registration = none →
    v.entry = none ∧ v.steps = 0 ∧ v.held = 0 ∧ v.running = 0 ∧ v.scheduled = 0 ∧ v.copied = 0 ∧ v.ran = 0 ∧
      v.isCancelled = false
  registered : ∀ task, v.registration = some task → Tracks isSerial v task

variable {isSerial : Bool} {v v' : View Duration Callback} {task : PeriodicTask Duration Callback}

/-! ## Moves of a registered task -/

omit task in
theorem after_zero (task : PeriodicTask Duration Callback) : task.after 0 = task := by
  simp [PeriodicTask.after]

/-- One execution more. -/
theorem after_succ (task : PeriodicTask Duration Callback) {copied : ℕ}
    (hne : (task.after copied).remainTimes ≠ 0)
    (hwithin : 0 ≤ task.remainTimes → (copied : ℤ) ≤ task.remainTimes) :
    (if 0 < (task.after copied).remainTimes then
        { task.after copied with remainTimes := (task.after copied).remainTimes - 1 }
      else task.after copied) = task.after (copied + 1) := by
  unfold PeriodicTask.after at hne ⊢
  by_cases hsign : 0 ≤ task.remainTimes
  · have hle := hwithin hsign
    simp only [if_pos hsign] at hne ⊢
    rw [if_pos (by omega)]
    push_cast
    rw [sub_sub]
  · simp only [if_neg hsign]
    rw [if_neg (by omega)]

/-- The task goes one way or another to the same number of steps. -/
theorem Tracks.of_steps (h : Tracks isSerial v task) (hentry : v'.entry = v.entry)
    (hcancelled : v'.isCancelled = v.isCancelled) (hcopied : v'.copied = v.copied)
    (hcalls : v'.ran + v'.held = v.ran + v.held)
    (hscheduled : v'.scheduled + v'.inserting = v.scheduled + v.inserting) (hsteps : v'.steps = v.steps)
    (hremoving : v'.removing ≠ 0 → v.removing ≠ 0 ∨ ∃ entry, v.entry = some entry ∧ entry.remainTimes = 0)
    (hserial : v.held = 0 ∧ v.running = 0 → v'.held = 0 ∧ v'.running = 0) : Tracks isSerial v' task where
  calls := by rw [hcalls, hcopied, h.calls]
  scheduled := by rw [hscheduled, hcopied, h.scheduled]
  within := by rw [hcopied]; exact h.within
  registered := by
    intro entry he
    rw [hentry] at he
    obtain ⟨hnot, heq, hone, hzero⟩ := h.registered entry he
    refine ⟨hcancelled.trans hnot, by rw [hcopied]; exact heq, hsteps.trans hone, fun hne => ?_⟩
    -- a removal on its way was there before, or has just found that nothing is left
    rcases hremoving hne with hne | ⟨entry', he', hzero'⟩
    · exact hzero hne
    · rw [he] at he'
      cases he'
      exact hzero'
  gone := by
    rw [hentry, hsteps]
    exact h.gone
  removed := by
    rw [hentry, hcancelled, hsteps, hcopied]
    intro hnone hnot
    obtain ⟨hzero, hall, hquiet⟩ := h.removed hnone hnot
    exact ⟨hzero, hall, fun hser => hserial (hquiet hser)⟩

/-- **A copy is made**: the task that is found is as registered, less its copies. -/
theorem Tracks.copy (h : Tracks isSerial v task) {n : ℕ} {found : PeriodicTask Duration Callback}
    (hcalled : v.called = n + 1) (hentry : v.entry = some found) (hne : found.remainTimes ≠ 0) :
    Tracks isSerial
      { v with
        called := n
        entry := some
          (if 0 < found.remainTimes then { found with remainTimes := found.remainTimes - 1 } else found)
        inserting := v.inserting + 1
        held := found.callback ::ₘ v.held
        copied := v.copied + 1 } task := by
  obtain ⟨hnot, rfl, hone, hzero⟩ := h.registered found hentry
  unfold steps at hone
  -- the copies are counted, so the entry is the registered task less one more of them
  have hnext := after_succ task hne h.within
  have hscheduled := h.scheduled
  refine { calls := ?_, scheduled := ?_, within := fun hsign => ?_, registered := ?_,
           gone := fun hnone => absurd hnone (Option.some_ne_none _),
           removed := fun hnone => absurd hnone (Option.some_ne_none _) }
  · show v.ran + task.callback ::ₘ v.held = Multiset.replicate (v.copied + 1) task.callback
    rw [Multiset.add_cons, h.calls, Multiset.replicate_succ]
  · show v.scheduled + (v.inserting + 1) = v.copied + 1 + 1
    omega
  · have hle := h.within hsign
    -- an execution was left
    have hne : (task.after v.copied).remainTimes ≠ 0 := hne
    simp only [PeriodicTask.after, if_pos hsign] at hne
    show ((v.copied + 1 : ℕ) : ℤ) ≤ task.remainTimes
    omega
  · intro entry he
    refine ⟨hnot, ?_, ?_, fun hremoving => ?_⟩
    · show entry = task.after (v.copied + 1)
      rw [← hnext]
      exact (Option.some.inj he).symm
    · show v.inserting + 1 + v.pending + n + v.removing = 1
      omega
    · have hremoving : v.removing ≠ 0 := hremoving
      omega

/-- **The task is removed** by its last call: nothing of it remains. -/
theorem Tracks.remove (h : Tracks isSerial v task) {n : ℕ} (hremoving : v.removing = n + 1)
    (hserial : isSerial = true → v.held = 0 ∧ v.running = 0) :
    Tracks isSerial { v with removing := n, entry := none } task := by
  -- at most one step of the task is on its way, and it is this removal
  have hsteps : v.steps ≤ 1 := by
    cases hentry : v.entry with
    | none => exact h.gone hentry
    | some entry => exact (h.registered entry hentry).2.2.1.le
  unfold steps at hsteps
  have hzero : v.inserting + v.pending + v.called + n = 0 := by omega
  refine { h with registered := fun entry he => absurd he.symm (Option.some_ne_none _), gone := fun _ => ?_,
                  removed := fun _ hnot => ⟨hzero, ?_, hserial⟩ }
  · show v.inserting + v.pending + v.called + n ≤ 1
    omega
  · have hnot : v.isCancelled = false := hnot
    cases hentry : v.entry with
    | none =>
      have hnothing := (h.removed hentry hnot).1
      unfold steps at hnothing
      omega
    | some entry =>
      obtain ⟨-, rfl, -, hremain⟩ := h.registered entry hentry
      have hremain := hremain (by omega)
      unfold PeriodicTask.after at hremain
      -- the entry counts down to zero; that of an endless task never gets there
      by_cases hsign : 0 ≤ task.remainTimes
      · simp only [if_pos hsign] at hremain
        show (v.copied : ℤ) = task.remainTimes
        omega
      · simp only [if_neg hsign] at hremain
        omega

/-- The one-shot finds no task. -/
theorem Tracks.miss (h : Tracks isSerial v task) {n : ℕ} (hcalled : v.called = n + 1) (hnone : v.entry = none) :
    Tracks isSerial { v with called := n } task := by
  have hgone := h.gone hnone
  unfold steps at hgone
  refine { h with registered := fun entry he => absurd (hnone.symm.trans he) (Option.some_ne_none _).symm,
                  gone := fun _ => ?_, removed := fun _ hnot => ?_ }
  · show v.inserting + v.pending + n + v.removing ≤ 1
    omega
  · have hnothing := (h.removed hnone hnot).1
    unfold steps at hnothing
    omega

/-- The task is cancelled. -/
theorem Tracks.cancel (h : Tracks isSerial v task) {isCancelled : Bool} (hcancelled : isCancelled = true) :
    Tracks isSerial { v with entry := none, isCancelled := isCancelled } task := by
  refine { h with registered := fun entry he => absurd he.symm (Option.some_ne_none _), gone := fun _ => ?_,
                  removed := fun _ hnot => absurd (hcancelled.symm.trans hnot) (by simp) }
  cases hentry : v.entry with
  | none => exact h.gone hentry
  | some entry => exact (h.registered entry hentry).2.2.1.le

/-- **Every move keeps track of a registered task.** -/
theorem Tracks.move (h : Tracks isSerial v task) (hm : Move isSerial v v')
    (hregistration : v.registration = some task) (hfetched : v.fetched = 0) : Tracks isSerial v' task := by
  cases hm with
  | fetch _ => exact { h with }
  -- it has been registered, so no id is fetched for it any more
  | register _ hn => omega
  | insert hn =>
    have hn := hn
    refine h.of_steps rfl rfl rfl rfl ?_ ?_ .inl id
    · simp only
      omega
    · simp only [steps]
      omega
  | fire hn =>
    refine h.of_steps rfl rfl rfl rfl rfl ?_ .inl id
    simp only [steps]
    omega
  | miss hn hnone => exact h.miss hn hnone
  | copy hn hentry hne => exact h.copy hn hentry hne
  | finish hn hentry hzero =>
    refine h.of_steps rfl rfl rfl rfl rfl ?_ (fun _ => .inr ⟨_, hentry, hzero⟩) id
    simp only [steps]
    omega
  | call hheld =>
    refine h.of_steps rfl rfl rfl ?_ rfl rfl .inl fun hquiet => ?_
    · simp only [hheld, Multiset.add_cons, Multiset.cons_add]
    · rw [hheld] at hquiet
      exact absurd hquiet.1 (Multiset.cons_ne_zero)
  | leave hn =>
    refine h.of_steps rfl rfl rfl rfl rfl rfl .inl fun hquiet => ?_
    omega
  | remove hn hserial => exact h.remove hn hserial
  | cancel =>
    apply h.cancel
    rw [hregistration, Option.isSome_some, Bool.or_true]

theorem Inv.fetched_eq_zero (h : Inv isSerial v) (hregistration : v.registration = some task) :
    v.fetched = 0 := by
  by_contra hne
  rw [h.fetched hne] at hregistration
  exact absurd hregistration.symm (Option.some_ne_none _)

/-- A registered task is not registered again. -/
theorem Move.registration_eq (hm : Move isSerial v v') (h : Inv isSerial v)
    (hregistration : v.registration = some task) :
    v'.registration = some task ∧ v'.fetched = 0 ∧ v'.isAssigned = true := by
  have hfetched := h.fetched_eq_zero hregistration
  have hassigned : v.isAssigned = true := by
    by_contra hne
    rw [(h.unassigned (by simpa using hne)).2] at hregistration
    exact absurd hregistration.symm (Option.some_ne_none _)
  cases hm with
  | fetch hnot => exact absurd (hnot.symm.trans hassigned) (by simp)
  | register _ hn => omega
  | _ => exact ⟨hregistration, hfetched, hassigned⟩

/-- **The task is registered**: its first one-shot is next. -/
theorem Inv.register (h : Inv isSerial v) {n : ℕ} (hn : v.fetched = n + 1)
    (task : PeriodicTask Duration Callback) : Inv isSerial
      { v with
        fetched := n
        registration := some task
        entry := v.entry.or (some task)
        inserting := v.inserting + 1 } := by
  have hnone := h.fetched (by omega)
  obtain ⟨hentry, hsteps, hheld, hrunning, hscheduled, hcopied, hran, hcancelled⟩ := h.unregistered hnone
  unfold steps at hsteps
  have hle := h.fetched_le
  -- nobody had this id, so the entry is the new task
  have hor : v.entry.or (some task) = some task := by rw [hentry, Option.none_or]
  refine { unassigned := fun hnot => ?_, fetched_le := by show n ≤ 1; omega, fetched := fun hne => ?_,
           unregistered := fun hnot => absurd hnot (Option.some_ne_none _), registered := fun task' heq => ?_ }
  · have hzero := (h.unassigned hnot).1
    omega
  · have hne : n ≠ 0 := hne
    omega
  · cases heq
    refine { calls := ?_, scheduled := ?_, within := ?_, registered := ?_, gone := ?_, removed := ?_ }
    · show v.ran + v.held = Multiset.replicate v.copied task.callback
      rw [hran, hheld, hcopied]
      rfl
    · show v.scheduled + (v.inserting + 1) = v.copied + 1
      omega
    · show _ → (v.copied : ℤ) ≤ task.remainTimes
      rw [hcopied]
      exact id
    · intro entry he
      have he : entry = task := Option.some.inj (he.symm.trans hor)
      refine ⟨hcancelled, ?_, ?_, fun hne => ?_⟩
      · show entry = task.after v.copied
        rw [he, hcopied, after_zero]
      · show v.inserting + 1 + v.pending + v.called + v.removing = 1
        omega
      · have hne : v.removing ≠ 0 := hne
        omega
    · exact fun hnot => absurd (hor.symm.trans hnot) (Option.some_ne_none _)
    · exact fun hnot => absurd (hor.symm.trans hnot) (Option.some_ne_none _)

/-- **Every move keeps the invariant.** -/
theorem Inv.move (h : Inv isSerial v) (hm : Move isSerial v v') : Inv isSerial v' := by
  cases hregistration : v.registration with
  | some task =>
    -- a registered task stays registered, and stays tracked
    have htracks := (h.registered task hregistration).move hm hregistration (h.fetched_eq_zero hregistration)
    obtain ⟨hsame, hzero, hassigned⟩ := hm.registration_eq h hregistration
    refine { unassigned := fun hnot => absurd (hnot.symm.trans hassigned) (by simp), fetched_le := by omega,
             fetched := fun hne => absurd hzero hne,
             unregistered := fun hnone => absurd (hsame.symm.trans hnone) (Option.some_ne_none _),
             registered := fun task' heq => ?_ }
    cases hsame.symm.trans heq
    exact htracks
  | none =>
    have hnothing := h.unregistered hregistration
    obtain ⟨hentry, hsteps, hheld, hrunning, -, -, -, hcancelled⟩ := hnothing
    unfold steps at hsteps
    cases hm with
    | fetch hnot =>
      have hzero := (h.unassigned hnot).1
      refine { h with unassigned := fun hfalse => absurd hfalse (by simp), fetched_le := ?_,
                      fetched := fun _ => hregistration,
                      registered := fun task heq =>
                        absurd (hregistration.symm.trans heq) (Option.some_ne_none _).symm }
      show v.fetched + 1 ≤ 1
      omega
    | register task hn => exact h.register hn task
    -- nothing is on its way for an id that is not registered
    | insert hn => omega
    | fire hn => omega
    | miss hn _ => omega
    | copy hn _ _ => omega
    | finish hn _ _ => omega
    | call hheld' => exact absurd (hheld.symm.trans hheld') (Multiset.zero_ne_cons)
    | leave hn => omega
    | remove hn _ => omega
    | cancel =>
      have hor : (v.isCancelled || v.registration.isSome) = v.isCancelled := by
        rw [hregistration, Option.isSome_none, Bool.or_false]
      rw [hor, ← hentry]
      exact h

/-- **No copies are made of a task that is gone**, and it does not come back. -/
theorem Move.copied_eq (hm : Move isSerial v v') (h : Inv isSerial v) (hregistration : v.registration = some task)
    (hnone : v.entry = none) : v'.entry = none ∧ v'.copied = v.copied := by
  cases hm with
  | register _ hn =>
    have hzero := h.fetched_eq_zero hregistration
    omega
  | copy _ hentry _ => exact absurd (hnone.symm.trans hentry) (Option.some_ne_none _).symm
  | remove _ _ => exact ⟨rfl, rfl⟩
  | cancel => exact ⟨rfl, rfl⟩
  | _ => exact ⟨hnone, rfl⟩

/-! ## What the moves use up -/

variable (v task) in
/-- The moves a task with a number of executions has left, counted from above. -/
def left : ℕ :=
  5 * (task.remainTimes - v.copied).toNat + 4 * v.inserting + 3 * v.pending + 2 * v.called + v.removing +
    2 * v.held.card + v.running

/-- **Every move of a registered task but its cancellation uses one up.** -/
theorem Move.left_lt (hm : Move isSerial v v') (h : Inv isSerial v) (hregistration : v.registration = some task)
    (hsign : 0 ≤ task.remainTimes) (hnot : v'.isCancelled = false) : v'.left task < v.left task := by
  have htracks := h.registered task hregistration
  have hsame := hm.registration_eq h hregistration
  unfold left
  cases hm with
  | fetch hunassigned =>
    rw [(h.unassigned hunassigned).2] at hregistration
    exact absurd hregistration.symm (Option.some_ne_none _)
  | register task' hn =>
    rw [h.fetched (by omega)] at hregistration
    exact absurd hregistration.symm (Option.some_ne_none _)
  | copy hn hentry hne =>
    -- its call and the execution are used up, seven; the insertion and the copy bring six
    obtain ⟨-, rfl, -, -⟩ := htracks.registered _ hentry
    have hle := htracks.within hsign
    simp only [PeriodicTask.after, if_pos hsign] at hne
    simp only [Multiset.card_cons]
    push_cast
    omega
  | call hheld =>
    simp only [hheld, Multiset.card_cons]
    omega
  | cancel =>
    simp only [hregistration, Option.isSome_some, Bool.or_true] at hnot
    exact absurd hnot (by simp)
  | _ =>
    simp only
    omega

variable (v) in
/-- Something is on its way for the task. -/
def IsBusy : Prop := v.steps ≠ 0 ∨ v.held ≠ 0 ∨ v.running ≠ 0

/-- A task that nothing is on its way for has had its executions and is removed. -/
theorem Tracks.of_not_busy (h : Tracks isSerial v task) (hnot : v.isCancelled = false) (hidle : ¬v.IsBusy) :
    v.entry = none ∧ v.ran = Multiset.replicate task.remainTimes.toNat task.callback ∧ v.left task = 0 := by
  unfold IsBusy at hidle
  push Not at hidle
  obtain ⟨hsteps, hheld, hrunning⟩ := hidle
  have hnone : v.entry = none := by
    cases hentry : v.entry with
    | none => rfl
    | some entry =>
      have hone := (h.registered entry hentry).2.2.1
      omega
  have hcopied := (h.removed hnone hnot).2.1
  have hcalls := h.calls
  rw [hheld, add_zero] at hcalls
  have htimes : task.remainTimes.toNat = v.copied := by omega
  refine ⟨hnone, by rw [hcalls, htimes], ?_⟩
  unfold steps at hsteps
  have hremain : (task.remainTimes - v.copied).toNat = 0 := by omega
  rw [left, hremain, hheld, Multiset.card_zero]
  omega

end View

end TimerManager

end ProjectTrans
