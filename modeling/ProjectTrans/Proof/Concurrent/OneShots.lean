import ProjectTrans.Model.Concurrent.TimerManager

/-!
# One-shots

What is inserted is pending until its callback is called: at most once, in the order of the
multimap within a round, and not before the clock has reached its deadline (`one_shots`).
`added_step` and `pending_step` say what a step inserts and what it makes of the pending tasks.
-/

namespace ProjectTrans.Timers

variable {Time Duration Callback : Type*}

/-! ## What a step inserts and what it calls -/

/-- The tasks of the queue whose callbacks have not been called. -/
def waiting (s : Timers Time Callback) : List (Task Time Callback) :=
  match s.thread with
  | .executing => s.taskQueue.tail
  | _ => s.taskQueue

/-- The tasks whose callbacks have not been called. -/
def pending (s : Timers Time Callback) : List (Task Time Callback) := s.waiting ++ s.timerCallbacks

theorem waiting_eq {s : Timers Time Callback} (h : s.thread ≠ .executing) : s.waiting = s.taskQueue := by
  unfold waiting
  split
  · contradiction
  · rfl

/-- The task whose callback a step calls. -/
def started (s : Timers Time Callback) : Action Time Duration Callback → Option (Task Time Callback)
  | .thread _ =>
    match s.thread with
    | .popping => s.taskQueue.head?
    | _ => none
  | _ => none

theorem starts_eq (s : Timers Time Callback) (action : Action Time Duration Callback) :
    s.starts action = (s.started action).map Task.callback := by
  cases action with
  | thread isTimeout =>
    unfold starts started
    cases s.thread <;> rfl
  | _ => rfl

variable [LinearOrder Time] {timeMax : Time} {s : Timers Time Callback}

theorem collect_pending (timeMax : Time) (h : s.thread ≠ .executing) :
    (s.collect timeMax).pending = s.pending := by
  have hwaiting := waiting_eq h
  unfold collect
  split
  · rw [pending, pending, hwaiting]
    rfl
  · split
    · rw [pending, pending, hwaiting]
      rfl
    · show s.taskQueue ++ Multimap.upTo Task.deadline s.clock s.timerCallbacks ++
        Multimap.behind Task.deadline s.clock s.timerCallbacks = s.pending
      rw [pending, hwaiting, List.append_assoc, Multimap.upTo_append_behind]

theorem collect_added : (s.collect timeMax).added = s.added := by
  unfold collect
  split_ifs <;> rfl

/-! ## The invariant -/

variable (s) in
/-- The multimap is in order, and so is what is left of the batch, behind the callbacks of
its round that have been called. -/
structure Inv : Prop where
  numbered : s.added.map Task.number = List.range s.added.length
  placed : (s.executed.map Execution.task ++ s.pending).Perm s.added
  ordered : Multimap.Ordered Task.deadline Task.number s.timerCallbacks
  batch : Multimap.Ordered Task.deadline Task.number s.taskQueue
  due : ∀ task ∈ s.taskQueue, task.deadline ≤ s.clock
  onTime : ∀ execution ∈ s.executed, execution.task.deadline ≤ execution.time
  inOrder : s.executed.Pairwise fun x y =>
    x.round ≤ y.round ∧ (x.round = y.round → Multimap.Before Task.deadline Task.number x.task y.task)
  current : ∀ execution ∈ s.executed, execution.round ≤ s.rounds ∧
    (execution.round = s.rounds →
      ∀ task ∈ s.waiting, Multimap.Before Task.deadline Task.number execution.task task)
  empty : s.thread ≠ .popping → s.thread ≠ .executing → s.taskQueue = []

theorem Inv.init (clock : Time) : Inv (init clock : Timers Time Callback) where
  numbered := rfl
  placed := List.Perm.refl []
  ordered := List.Pairwise.nil
  batch := List.Pairwise.nil
  due := fun _ h => absurd h List.not_mem_nil
  onTime := fun _ h => absurd h List.not_mem_nil
  inOrder := List.Pairwise.nil
  current := fun _ h => absurd h List.not_mem_nil
  empty := fun _ _ => rfl

theorem Inv.mem_added (h : Inv s) {task : Task Time Callback} (hmem : task ∈ s.pending) : task ∈ s.added :=
  h.placed.mem_iff.1 (List.mem_append_right _ hmem)

/-- The numbers so far are less than the next one. -/
theorem Inv.number_lt (h : Inv s) {task : Task Time Callback} (hmem : task ∈ s.added) :
    task.number < s.added.length := by
  have hmap := List.mem_map_of_mem (f := Task.number) hmem
  rw [h.numbered] at hmap
  exact List.mem_range.1 hmap

/-- An insertion makes one task more pending. -/
theorem pending_insert (s : Timers Time Callback) (deadline : Time) (callback : Callback) :
    (s.insert deadline callback).pending.Perm (⟨deadline, s.added.length, callback⟩ :: s.pending) := by
  have hinsert := Multimap.insert_perm Task.deadline ⟨deadline, s.added.length, callback⟩ s.timerCallbacks
  exact (hinsert.append_left s.waiting).trans List.perm_middle

theorem Inv.insert (h : Inv s) (deadline : Time) (callback : Callback) : Inv (s.insert deadline callback) where
  numbered := by
    simp only [Timers.insert, List.map_append, h.numbered, List.map_cons, List.map_nil, List.length_append,
      List.length_singleton, List.range_succ]
  placed := by
    have hpending := (pending_insert s deadline callback).append_left (s.executed.map Execution.task)
    have hplaced := List.perm_middle.trans (h.placed.cons ⟨deadline, s.added.length, callback⟩)
    exact (hpending.trans hplaced).trans (List.perm_append_singleton _ _).symm
  ordered := by
    apply h.ordered.insert
    intro task hmem
    exact h.number_lt (h.mem_added (List.mem_append_right _ hmem))
  batch := h.batch
  due := h.due
  onTime := h.onTime
  inOrder := h.inOrder
  current := h.current
  empty := h.empty

/-- Between two batches, the thread goes on. -/
theorem Inv.goTo (h : Inv s) (thread : Thread Time) (hempty : s.taskQueue = []) :
    Inv { s with thread := thread } := by
  have hwaiting : ∀ t, ({ s with thread := t } : Timers Time Callback).waiting = [] := by
    intro t
    unfold waiting
    cases t <;> simp [hempty]
  have hnow := hwaiting s.thread
  refine { h with
    placed := ?_
    current := fun execution hmem => ⟨(h.current execution hmem).1, ?_⟩
    empty := fun _ _ => hempty }
  · have hplaced := h.placed
    rw [pending, hnow] at hplaced
    rw [pending, hwaiting thread]
    exact hplaced
  · intro _ task htask
    rw [hwaiting thread] at htask
    exact absurd htask List.not_mem_nil

/-- **A batch is moved.** -/
theorem Inv.collect (h : Inv s) (hempty : s.taskQueue = []) (hne : s.thread ≠ .executing) :
    Inv (s.collect timeMax) := by
  have hpending := collect_pending timeMax hne
  unfold Timers.collect at hpending ⊢
  split
  · exact h.goTo .exited hempty
  · split
    · exact h.goTo .top hempty
    · rename_i hrunning hdue
      rw [if_neg hrunning, if_neg hdue] at hpending
      refine { h with placed := ?_, ordered := h.ordered.behind s.clock, batch := ?_, due := ?_, current := ?_,
                      empty := fun hpop _ => absurd rfl hpop }
      · rw [hpending]
        exact h.placed
      · show Multimap.Ordered Task.deadline Task.number (s.taskQueue ++ _)
        rw [hempty]
        exact h.ordered.upTo s.clock
      · intro task hmem
        have hmem : task ∈ s.taskQueue ++ Multimap.upTo Task.deadline s.clock s.timerCallbacks := hmem
        rw [hempty] at hmem
        exact Multimap.key_le_of_mem_upTo hmem
      · -- the round is new
        intro execution hmem
        have hround := (h.current execution hmem).1
        exact ⟨hround.trans (Nat.le_succ _),
          fun heq => absurd heq (by show execution.round ≠ s.rounds + 1; omega)⟩

/-- **The callback at the front is called.** -/
theorem Inv.execute (h : Inv s) (hthread : s.thread = .popping) {task : Task Time Callback}
    {tasks : List (Task Time Callback)} (htasks : s.taskQueue = task :: tasks) :
    Inv { s with thread := .executing, executed := s.executed ++ [⟨task, s.clock, s.rounds⟩] } := by
  have hwaiting : s.waiting = task :: tasks := by rw [waiting_eq (by simp [hthread]), htasks]
  have hbatch := h.batch
  rw [htasks] at hbatch
  have hfirst := (List.pairwise_cons.1 hbatch).1
  refine { h with placed := ?_, onTime := ?_, inOrder := ?_, current := ?_, empty := fun _ hex => absurd rfl hex }
  · have hplaced := h.placed
    rw [pending, hwaiting] at hplaced
    simpa [pending, waiting, htasks] using hplaced
  · intro execution hmem
    rcases List.mem_append.1 hmem with hmem | hmem
    · exact h.onTime execution hmem
    · rw [List.mem_singleton.1 hmem]
      -- it is in the batch, so its deadline has passed
      exact h.due task (by rw [htasks]; exact List.mem_cons_self)
  · refine List.pairwise_append.2 ⟨h.inOrder, List.pairwise_singleton _ _, ?_⟩
    intro execution hmem last hlast
    rw [List.mem_singleton.1 hlast]
    obtain ⟨hround, hbefore⟩ := h.current execution hmem
    refine ⟨hround, fun heq => ?_⟩
    apply hbefore heq
    rw [hwaiting]
    exact List.mem_cons_self
  · intro execution hmem
    -- the rest of the batch was waiting, and is all that waits now
    have hrest : ∀ task' ∈ tasks, task' ∈ s.waiting := fun task' htask' => by
      rw [hwaiting]
      exact List.mem_cons_of_mem _ htask'
    have hwaiting' : ∀ (executed : List (Execution Time Callback)),
        ({ s with thread := .executing, executed } : Timers Time Callback).waiting = tasks := fun _ => by
      simp [waiting, htasks]
    rw [hwaiting']
    rcases List.mem_append.1 hmem with hmem | hmem
    · obtain ⟨hround, hbefore⟩ := h.current execution hmem
      exact ⟨hround, fun heq task' htask' => hbefore heq task' (hrest task' htask')⟩
    · rw [List.mem_singleton.1 hmem]
      exact ⟨le_rfl, fun _ => hfirst⟩

/-- **The callback returns**, and its task leaves the queue. -/
theorem Inv.pop (h : Inv s) (hthread : s.thread = .executing) :
    Inv { s with taskQueue := s.taskQueue.tail, thread := .popping } := by
  have hwaiting : s.waiting = s.taskQueue.tail := by simp [waiting, hthread]
  refine { h with placed := ?_, batch := h.batch.sublist (List.tail_sublist _), due := ?_, current := ?_,
                  empty := fun hpop _ => absurd rfl hpop }
  · have hplaced := h.placed
    rw [pending, hwaiting] at hplaced
    exact hplaced
  · exact fun task hmem => h.due task (List.mem_of_mem_tail hmem)
  · intro execution hmem
    have hcurrent := h.current execution hmem
    rw [hwaiting] at hcurrent
    exact hcurrent

theorem Inv.threadStep (h : Inv s) (isTimeout : Bool) : Inv (s.threadStep timeMax isTimeout) := by
  unfold Timers.threadStep
  cases hthread : s.thread with
  | top => exact h.goTo _ (h.empty (by simp [hthread]) (by simp [hthread]))
  | locking =>
    have hempty := h.empty (by simp [hthread]) (by simp [hthread])
    simp only
    split
    · exact h.collect hempty (by simp [hthread])
    · exact h.goTo _ hempty
  | waiting waitTime =>
    simp only
    split
    · exact h.collect (h.empty (by simp [hthread]) (by simp [hthread])) (by simp [hthread])
    · exact h
  | popping =>
    simp only
    split
    · rename_i htasks
      exact h.goTo .top htasks
    · rename_i task tasks htasks
      exact h.execute hthread htasks
  | executing => exact h.pop hthread
  | exited => exact h

/-! ## What the one-shots keep -/

variable (s) in
/-- What has been inserted has the number of its insertion. It is called at most once and
not before its deadline; within a round in the order of the deadlines, and at one deadline
in the order of insertion; until then it is in one of the two containers. -/
structure Keeps : Prop where
  numbered : s.added.map Task.number = List.range s.added.length
  added : ∀ execution ∈ s.executed, execution.task ∈ s.added
  once : (s.executed.map fun execution => execution.task.number).Nodup
  onTime : ∀ execution ∈ s.executed, execution.task.deadline ≤ execution.time
  inOrder : s.executed.Pairwise fun x y => x.round = y.round →
    x.task.deadline < y.task.deadline ∨ x.task.deadline = y.task.deadline ∧ x.task.number < y.task.number
  kept : ∀ task ∈ s.added,
    task ∈ s.timerCallbacks ∨ task ∈ s.taskQueue ∨ ∃ execution ∈ s.executed, execution.task = task

theorem Inv.keeps (h : Inv s) : s.Keeps where
  numbered := h.numbered
  added := by
    intro execution hmem
    exact h.placed.mem_iff.1 (List.mem_append_left _ (List.mem_map_of_mem hmem))
  once := by
    -- all numbers that are placed differ
    have hnumbers := h.placed.map Task.number
    rw [h.numbered, List.map_append, List.map_map] at hnumbers
    have hnodup := hnumbers.nodup_iff.2 List.nodup_range
    exact (List.nodup_append.1 hnodup).1
  onTime := h.onTime
  inOrder := h.inOrder.imp fun hxy => hxy.2
  kept := by
    intro task hmem
    rcases List.mem_append.1 (h.placed.mem_iff.2 hmem) with hexecuted | hpending
    · obtain ⟨execution, hmem, heq⟩ := List.mem_map.1 hexecuted
      exact .inr (.inr ⟨execution, hmem, heq⟩)
    · rcases List.mem_append.1 hpending with hwaiting | hlater
      · refine .inr (.inl ?_)
        unfold waiting at hwaiting
        split at hwaiting
        · exact List.mem_of_mem_tail hwaiting
        · exact hwaiting
      · exact .inl hlater

/-! ## Runs -/

variable [VAdd Duration Time] [DecidableEq Callback]

/-- The task a step inserts. -/
def inserted (s : Timers Time Callback) : Action Time Duration Callback → Option (Task Time Callback)
  | .insert deadline callback =>
    if (deadline, callback) ∈ s.calls then some ⟨deadline, s.added.length, callback⟩ else none
  | _ => none

/-- **A step inserts one task**, or none. -/
theorem added_step (timeMax : Time) (s : Timers Time Callback) (action : Action Time Duration Callback) :
    (s.step timeMax action).added = s.added ++ (s.inserted action).toList := by
  cases action with
  | insert deadline callback =>
    simp only [step, inserted]
    split
    · rfl
    · exact (List.append_nil _).symm
  | thread isTimeout =>
    simp only [step, threadStep, inserted, Option.toList_none, List.append_nil]
    split <;> try split
    all_goals first | rfl | exact collect_added
  | _ => exact (List.append_nil _).symm

/-- **What is pending**: what was, with what has been inserted and without what has been called. -/
theorem pending_step (timeMax : Time) (s : Timers Time Callback) (action : Action Time Duration Callback) :
    ((s.started action).toList ++ (s.step timeMax action).pending).Perm
      (s.pending ++ (s.inserted action).toList) := by
  cases action with
  | insert deadline callback =>
    simp only [step, inserted]
    split
    · exact (pending_insert s deadline callback).trans (List.perm_append_singleton _ _).symm
    · exact .of_eq (List.append_nil _).symm
  | thread isTimeout =>
    refine .of_eq ?_
    simp only [step, threadStep, started, inserted, Option.toList_none, List.append_nil]
    cases hthread : s.thread with
    | popping =>
      simp only
      cases htasks : s.taskQueue with
      | nil => simp [pending, waiting, hthread, htasks]
      | cons task tasks => simp [pending, waiting, hthread, htasks]
    | executing => simp [pending, waiting, hthread]
    | _ =>
      have hne : s.thread ≠ .executing := by simp [hthread]
      simp only [Option.toList_none, List.nil_append]
      try split
      all_goals first | exact collect_pending timeMax hne | simp [pending, waiting, hthread]
  | _ => exact .of_eq (List.append_nil _).symm

theorem Inv.step (h : Inv s) (action : Action Time Duration Callback) : Inv (s.step timeMax action) := by
  cases action with
  | tick time => exact { h with due := fun task hmem => (h.due task hmem).trans (le_max_left _ _) }
  | insert deadline callback =>
    simp only [Timers.step]
    split
    · exact { h.insert deadline callback with }
    · exact h
  | thread isTimeout => exact h.threadStep isTimeout
  | _ => exact { h with }

theorem inv_run (clock : Time) (actions : List (Action Time Duration Callback)) :
    Inv (actions.foldl (Timers.step timeMax) (Timers.init clock)) :=
  List.foldlRecOn actions _ (Inv.init clock) fun _ h action _ => h.step action

/-- **The one-shots over every run**, whoever inserts them and whenever. -/
theorem one_shots (timeMax clock : Time) (actions : List (Action Time Duration Callback)) :
    (actions.foldl (Timers.step timeMax) (Timers.init clock)).Keeps :=
  (inv_run clock actions).keeps

end ProjectTrans.Timers
