import ProjectTrans.Proof.Client.Completion

/-!
# Downloads make progress (`controller/block_schedule_controller`)

What the schedule does in the end. `requested_in_turn`: a block in the queue is requested
after as many ticks as it has entries in front of it and one more, whatever else is called,
as long as its task is neither cancelled nor paused; entries of paused tasks go to the back
and cannot delay it further. `downloads_finish`: a task that is enqueued is completed and
announced, if ticks go on, its requests are answered, and its responses can be written.
-/

namespace ProjectTrans

open BlockScheduleController

/-- The call neither cancels nor pauses the task. -/
def ScheduleCall.Keeps (taskId : Int64) : ScheduleCall → Prop
  | .onTaskCancle cancelled => cancelled ≠ taskId
  | .onTaskPaused paused isPaused => paused = taskId → isPaused = false
  | _ => True

namespace BlockScheduleController

variable {c c' : BlockScheduleController} {call : ScheduleCall} {taskId : Int64}

/-- The task is scheduled under its id, and not paused. -/
def Running (c : BlockScheduleController) (taskId : Int64) : Prop :=
  ∃ task, c.pending taskId = some task ∧ task.isPaused = false ∧ task.taskEntity.taskId = taskId

/-! ## One call -/

/-- A task goes on running. -/
theorem Running.step (h : c.Running taskId) (hkeeps : call.Keeps taskId) : (c.step call).1.Running taskId := by
  obtain ⟨task, htask, hrunning, hid⟩ := h
  cases call with
  | onTaskEnqueue eventSource endpoint taskEntity =>
    by_cases he : taskId = taskEntity.taskId
    · subst he
      -- enqueued again, with a record that is not paused
      exact ⟨_, Function.update_self .., rfl, rfl⟩
    · exact ⟨task, (Function.update_of_ne he ..).trans htask, hrunning, hid⟩
  | onTaskCancle cancelled =>
    -- another task is cancelled
    exact ⟨task, (Function.update_of_ne (Ne.symm hkeeps) ..).trans htask, hrunning, hid⟩
  | onTaskPaused paused isPaused =>
    unfold Running
    rw [BlockScheduleController.step, onTaskPaused_pending]
    by_cases hp : taskId = paused
    · subst hp
      refine ⟨{ task with isPaused := isPaused }, ?_, hkeeps rfl, hid⟩
      rw [Function.update_self, htask]
      rfl
    · exact ⟨task, (Function.update_of_ne hp ..).trans htask, hrunning, hid⟩
  | onBlockRequest =>
    refine ⟨task, ?_, hrunning, hid⟩
    rw [BlockScheduleController.step, onBlockRequest_pending]
    exact htask
  | onBlockResponse outcome response =>
    have hsame := onBlockResponse_same (c := c) outcome response
    have hmark := hsame.marks taskId
    have hentity := hsame.entities taskId
    rw [htask] at hmark hentity
    obtain ⟨task', htask', hpaused⟩ := Option.map_eq_some_iff.1 hmark
    rw [htask'] at hentity
    have hentity : task'.taskEntity = task.taskEntity := Option.some.inj hentity
    exact ⟨task', htask', hpaused.trans hrunning, by rw [hentity, hid]⟩

/-- A call that is no tick only adds to the queue. -/
theorem step_queue (hcall : call ≠ .onBlockRequest) : c.queue <+: (c.step call).1.queue := by
  cases call with
  | onTaskEnqueue eventSource endpoint taskEntity => exact List.prefix_append _ _
  | onTaskCancle cancelled => exact List.prefix_rfl
  | onTaskPaused paused isPaused =>
    rw [BlockScheduleController.step, onTaskPaused_queue]
  | onBlockRequest => exact absurd rfl hcall
  | onBlockResponse outcome response =>
    have hqueue := (onBlockResponse_same (c := c) outcome response).queue
    rw [BlockScheduleController.step, hqueue]

/-- **A tick takes the first entry**: its block is requested, if its task is running. Otherwise
it is gone, or at the back. -/
theorem step_tick {first : BlockRequestTransfer} {rest : List BlockRequestTransfer}
    (hqueue : c.queue = first :: rest) : rest <+: (c.step .onBlockRequest).1.queue ∧ (c.Running first.taskId →
      ∃ eventSource endpoint, .blockRequest eventSource endpoint first ∈ (c.step .onBlockRequest).2) := by
  simp only [BlockScheduleController.step, onBlockRequest, hqueue]
  split
  · rename_i hnone
    refine ⟨List.prefix_rfl, ?_⟩
    rintro ⟨task, htask, -⟩
    rw [hnone] at htask
    cases htask
  · rename_i task htask
    split
    · rename_i hpaused
      refine ⟨List.prefix_append _ _, ?_⟩
      rintro ⟨task', htask', hrunning, -⟩
      rw [htask] at htask'
      rw [← Option.some.inj htask', hpaused] at hrunning
      cases hrunning
    · refine ⟨List.prefix_rfl, fun _ => ?_⟩
      exact ⟨task.eventSource, task.endpoint, List.mem_singleton.2 rfl⟩

/-- The entry stands in the queue, with so many in front of it. -/
def QueuedAt (c : BlockScheduleController) (position : ℕ) (transfer : BlockRequestTransfer) : Prop :=
  c.queue[position]? = some transfer

theorem QueuedAt.of_longer {queue : List BlockRequestTransfer} {position : ℕ} {transfer : BlockRequestTransfer}
    (h : queue[position]? = some transfer) (hlonger : queue <+: c.queue) : c.QueuedAt position transfer := by
  obtain ⟨more, hmore⟩ := hlonger
  obtain ⟨hlt, -⟩ := List.getElem?_eq_some_iff.1 h
  unfold QueuedAt
  rw [← hmore, List.getElem?_append_left hlt]
  exact h

/-- An entry keeps its place until a tick, which brings it forward. -/
theorem QueuedAt.step {position : ℕ} {transfer : BlockRequestTransfer} (h : c.QueuedAt position transfer)
    (hrunning : c.Running transfer.taskId) (call : ScheduleCall) :
    (call ≠ .onBlockRequest ∧ (c.step call).1.QueuedAt position transfer) ∨
      call = .onBlockRequest ∧ ((∃ before, position = before + 1 ∧ (c.step call).1.QueuedAt before transfer) ∨
        ∃ eventSource endpoint, .blockRequest eventSource endpoint transfer ∈ (c.step call).2) := by
  by_cases hcall : call = .onBlockRequest
  · subst hcall
    refine .inr ⟨rfl, ?_⟩
    unfold QueuedAt at h
    cases hqueue : c.queue with
    | nil =>
      rw [hqueue] at h
      cases h
    | cons first rest =>
      rw [hqueue] at h
      obtain ⟨hrest, hrequest⟩ := step_tick hqueue
      cases position with
      | zero =>
        obtain rfl := Option.some.inj h
        exact .inr (hrequest hrunning)
      | succ before => exact .inl ⟨before, rfl, .of_longer h hrest⟩
  · exact .inl ⟨hcall, .of_longer h (step_queue hcall)⟩

end BlockScheduleController

/-! ## Bounded waiting -/

/-- What has happened is not forgotten. -/
theorem mem_history {happening : Happening} (calls : List ScheduleCall) :
    ∀ {r : Recorded}, happening ∈ r.history → happening ∈ (calls.foldl Recorded.record r).history := by
  induction calls with
  | nil =>
    intro r h
    exact h
  | cons call calls ih =>
    intro r h
    exact ih (List.mem_append_left _ h)

/-- **Requested in turn**: the wait is bounded by the place in the queue, whatever is called. -/
theorem requested_in_turn {transfer : BlockRequestTransfer} {calls : List ScheduleCall} :
    ∀ {r : Recorded} {position : ℕ}, r.controller.QueuedAt position transfer →
      r.controller.Running transfer.taskId → (∀ call ∈ calls, call.Keeps transfer.taskId) →
        position < calls.count .onBlockRequest →
          ∃ eventSource endpoint, .signal (.blockRequest eventSource endpoint transfer) ∈
            (calls.foldl Recorded.record r).history := by
  induction calls with
  | nil =>
    intro r position _ _ _ hticks
    exact absurd hticks (Nat.not_lt_zero _)
  | cons call calls ih =>
    intro r position hqueued hrunning hkeeps hticks
    have hnext : (r.record call).controller.Running transfer.taskId :=
      hrunning.step (hkeeps call List.mem_cons_self)
    have hlater : ∀ call' ∈ calls, call'.Keeps transfer.taskId :=
      fun call' hcall' => hkeeps call' (List.mem_cons_of_mem _ hcall')
    -- no tick, a tick that moves the entry one forward, or the tick that requests it
    rcases hqueued.step hrunning call with ⟨hcall, hsame⟩ | ⟨rfl,
      ⟨before, rfl, hbefore⟩ | ⟨eventSource, endpoint, hrequest⟩⟩
    · rw [List.count_cons_of_ne hcall] at hticks
      exact ih hsame hnext hlater hticks
    · rw [List.count_cons_self] at hticks
      exact ih hbefore hnext hlater (by omega)
    · refine ⟨eventSource, endpoint, mem_history calls ?_⟩
      apply List.mem_append_right
      apply List.mem_cons_of_mem
      exact List.mem_map_of_mem hrequest

/-- Two blocks in the queue, the first one of a paused task. -/
def pausedFirst : BlockScheduleController :=
  { twoBlocks with
    queue := [⟨9, 9, 9, 0, 1⟩, ⟨2, 1, 1, 1, 1⟩]
    pending := fun taskId =>
      some ⟨taskId = 9, ⟨[]⟩, ⟨[], 80⟩, { taskId := taskId, fileId := 1, state := .waiting }, none⟩ }

theorem requested_in_turn_second :
    ∃ eventSource endpoint, .signal (.blockRequest eventSource endpoint ⟨2, 1, 1, 1, 1⟩) ∈
      ([ScheduleCall.onBlockRequest, .onTaskCancle 9, .onBlockRequest].foldl Recorded.record
        ⟨pausedFirst, []⟩).history := by
  have hqueued : pausedFirst.QueuedAt 1 ⟨2, 1, 1, 1, 1⟩ := rfl
  have hrunning : pausedFirst.Running 1 := ⟨_, rfl, rfl, rfl⟩
  have hkeeps : ∀ call ∈ [ScheduleCall.onBlockRequest, .onTaskCancle 9, .onBlockRequest], call.Keeps 1 := by
    simp [ScheduleCall.Keeps]
  exact requested_in_turn hqueued hrunning hkeeps (by decide)

/-! ## Downloads that finish -/

namespace BlockScheduleController

/-- The controller after so many calls. -/
def after (c : BlockScheduleController) (calls : ℕ → ScheduleCall) : ℕ → BlockScheduleController :=
  Run.states (fun c call => (c.step call).1) c calls

/-- What a call emits. -/
def emitted (c : BlockScheduleController) (calls : ℕ → ScheduleCall) (t : ℕ) : List ScheduleSignal :=
  ((c.after calls t).step (calls t)).2

/-- What goes on while a task is loaded: it is neither cancelled nor paused, ticks come again,
what is requested for it is answered later, its responses can be written, and a response
names the task its block belongs to. -/
structure Loads (c : BlockScheduleController) (calls : ℕ → ScheduleCall) (taskId : Int64) : Prop where
  keeps : ∀ t, (calls t).Keeps taskId
  ticks : ∀ t, ∃ t', t ≤ t' ∧ calls t' = .onBlockRequest
  answered : ∀ t eventSource endpoint transfer, transfer.taskId = taskId →
    .blockRequest eventSource endpoint transfer ∈ c.emitted calls t → ∃ t' outcome response, t < t' ∧
      calls t' = .onBlockResponse outcome response ∧ response.taskId = taskId ∧
        response.blockId = transfer.blockId
  written : ∀ t outcome response, calls t = .onBlockResponse outcome response → response.taskId = taskId →
    (c.after calls t).Writes outcome response
  own : ∀ t outcome response, calls t = .onBlockResponse outcome response → ∀ row ∈ (c.after calls t).blocks,
    row.blockId = response.blockId → row.taskId = response.taskId

variable {c : BlockScheduleController} {calls : ℕ → ScheduleCall} {taskId : Int64}

/-- A running task is running later. -/
theorem Loads.running (h : c.Loads calls taskId) {t t' : ℕ} (hle : t ≤ t')
    (hrunning : (c.after calls t).Running taskId) : (c.after calls t').Running taskId := by
  induction t', hle using Nat.le_induction with
  | base => exact hrunning
  | succ t' _ ih => exact ih.step (h.keeps t')

/-- With the next tick an entry comes forward or is requested. -/
theorem Loads.moves (h : c.Loads calls taskId) {transfer : BlockRequestTransfer}
    (htransfer : transfer.taskId = taskId)
    {position : ℕ} (d : ℕ) : ∀ {t : ℕ}, calls (t + d) = .onBlockRequest → (c.after calls t).Running taskId →
      (c.after calls t).QueuedAt position transfer → ∃ t', t ≤ t' ∧
        ((∃ before, position = before + 1 ∧ (c.after calls (t' + 1)).QueuedAt before transfer) ∨
          ∃ eventSource endpoint, .blockRequest eventSource endpoint transfer ∈ c.emitted calls t') := by
  induction d with
  | zero =>
    intro t htick hrunning hqueued
    rcases hqueued.step (htransfer ▸ hrunning) (calls t) with ⟨hcall, -⟩ | ⟨-, hmoved⟩
    · exact absurd htick hcall
    · exact ⟨t, le_rfl, hmoved⟩
  | succ d ih =>
    intro t htick hrunning hqueued
    rcases hqueued.step (htransfer ▸ hrunning) (calls t) with ⟨-, hkept⟩ | ⟨-, hmoved⟩
    · have hlater : calls (t + 1 + d) = .onBlockRequest := by
        rw [← htick]
        congr 1
        omega
      obtain ⟨t', hle, hmoved⟩ := ih hlater (h.running (Nat.le_succ t) hrunning) hkept
      exact ⟨t', by omega, hmoved⟩
    · exact ⟨t, le_rfl, hmoved⟩

/-- **A queued block is requested** at some time. -/
theorem Loads.requested (h : c.Loads calls taskId) {transfer : BlockRequestTransfer}
    (htransfer : transfer.taskId = taskId)
    (position : ℕ) : ∀ {t : ℕ}, (c.after calls t).Running taskId → (c.after calls t).QueuedAt position transfer →
      ∃ t' eventSource endpoint, t ≤ t' ∧ .blockRequest eventSource endpoint transfer ∈ c.emitted calls t' := by
  induction position with
  | zero =>
    intro t hrunning hqueued
    -- the next tick requests the entry, or moves it forward
    obtain ⟨u, hu, htick⟩ := h.ticks t
    obtain ⟨d, rfl⟩ := Nat.exists_eq_add_of_le hu
    obtain ⟨t', hle, ⟨before, hbefore, -⟩ | ⟨eventSource, endpoint, hrequest⟩⟩ :=
      h.moves htransfer d htick hrunning hqueued
    · exact absurd hbefore (Nat.succ_ne_zero before).symm
    · exact ⟨t', eventSource, endpoint, hle, hrequest⟩
  | succ position ih =>
    intro t hrunning hqueued
    obtain ⟨u, hu, htick⟩ := h.ticks t
    obtain ⟨d, rfl⟩ := Nat.exists_eq_add_of_le hu
    obtain ⟨t', hle, ⟨before, hbefore, hmoved⟩ | ⟨eventSource, endpoint, hrequest⟩⟩ :=
      h.moves htransfer d htick hrunning hqueued
    · obtain rfl : before = position := by omega
      obtain ⟨t'', eventSource, endpoint, hle', hrequest⟩ :=
        ih (h.running (show t ≤ t' + 1 by omega) hrunning) hmoved
      exact ⟨t'', eventSource, endpoint, by omega, hrequest⟩
    · exact ⟨t', eventSource, endpoint, hle, hrequest⟩

/-! ## Rows -/

/-- The ids of the blocks, and of the tasks they belong to. -/
def keys (c : BlockScheduleController) : List (Int64 × Int64) := c.blocks.map fun row => (row.blockId, row.taskId)

/-- A row is written over by one of the same ids. -/
theorem update_keys {rows : List BlockEntity} (hkeyed : (rows.map (·.blockId)).Nodup) {block block' : BlockEntity}
    (hblock : block ∈ rows) (hid : block'.blockId = block.blockId) (htask : block'.taskId = block.taskId) :
    (BlockRepository.update rows block').map (fun row => (row.blockId, row.taskId)) =
      rows.map fun row => (row.blockId, row.taskId) := by
  unfold BlockRepository.update
  rw [List.map_map]
  apply List.map_congr_left
  intro row hrow
  simp only [Function.comp_apply]
  split
  · rename_i hsame
    obtain rfl : row = block := List.inj_on_of_nodup_map hkeyed hrow hblock (hsame.trans hid)
    rw [hid, htask]
  · rfl

/-- No call changes them. -/
theorem step_keys (hkeyed : c.KeyedBlocks) (call : ScheduleCall) : (c.step call).1.keys = c.keys := by
  by_cases hcall : ∃ outcome response, call = .onBlockResponse outcome response
  · obtain ⟨outcome, response, rfl⟩ := hcall
    unfold keys
    rw [step]
    obtain h | ⟨task, block, -, hblock, h | ⟨-, h⟩⟩ := c.onBlockResponse_cases outcome response
    · rw [h]
    · rw [h]
      exact update_keys hkeyed (BlockRepository.getByBlockId_some hblock).1 rfl rfl
    · rw [h, completeTask_blocks]
      exact update_keys hkeyed (BlockRepository.getByBlockId_some hblock).1 rfl rfl
  · obtain ⟨hblocks, -, -⟩ := step_tables fun outcome response heq => hcall ⟨outcome, response, heq⟩
    unfold keys
    rw [hblocks]

theorem after_keys (hkeyed : c.KeyedBlocks) (calls : ℕ → ScheduleCall) (t : ℕ) :
    (c.after calls t).KeyedBlocks ∧ (c.after calls t).keys = c.keys := by
  apply Run.states_invariant (fun d : BlockScheduleController => d.KeyedBlocks ∧ d.keys = c.keys)
  · rintro d call ⟨hd, hkeys⟩
    refine ⟨?_, (step_keys hd call).trans hkeys⟩
    unfold KeyedBlocks
    rw [step_ids]
    exact hd
  · exact ⟨hkeyed, rfl⟩

/-- A row of a later time is one of the first, under its ids. -/
theorem exists_first (hkeyed : c.KeyedBlocks) (calls : ℕ → ScheduleCall) {t : ℕ} {row : BlockEntity}
    (hrow : row ∈ (c.after calls t).blocks) : ∃ old ∈ c.blocks, old.blockId = row.blockId ∧
      old.taskId = row.taskId := by
  have hkey : (row.blockId, row.taskId) ∈ c.keys := by
    rw [← (after_keys hkeyed calls t).2]
    exact List.mem_map_of_mem hrow
  obtain ⟨old, hold, heq⟩ := List.mem_map.1 hkey
  obtain ⟨hblockId, htaskId⟩ := Prod.mk.inj heq
  exact ⟨old, hold, hblockId, htaskId⟩

/-- A block belongs to one task all the time. -/
theorem row_taskId (hkeyed : c.KeyedBlocks) (calls : ℕ → ScheduleCall) {t : ℕ} {row row' : BlockEntity}
    (hrow : row ∈ c.blocks) (hrow' : row' ∈ (c.after calls t).blocks) (hsame : row'.blockId = row.blockId) :
    row'.taskId = row.taskId := by
  obtain ⟨old, hold, hblockId, htaskId⟩ := exists_first hkeyed calls hrow'
  obtain rfl : old = row := List.inj_on_of_nodup_map hkeyed hold hrow (hblockId.trans hsame)
  exact htaskId.symm

/-- The block has been written. -/
def Arrived (c : BlockScheduleController) (blockId : Int64) : Prop :=
  ∀ row ∈ c.blocks, row.blockId = blockId → row.state = .completed

/-- What a response does that is written. -/
theorem onBlockResponse_written {outcome : FileOutcome} {response : BlockResponseTransfer}
    (h : c.Writes outcome response) :
    ∃ task block, c.pending response.taskId = some task ∧
      BlockRepository.getByBlockId c.blocks response.blockId = some block ∧
      c.onBlockResponse outcome response = { c.afterWrite outcome task response with
        blocks := BlockRepository.update c.blocks { block with state := .completed, endTime := outcome.blockEnd }
      }.completeTask outcome task.taskEntity.taskId := by
  obtain ⟨task, block, htask, hblock, hdone⟩ := h
  refine ⟨task, block, htask, hblock, ?_⟩
  rw [onBlockResponse_eq outcome htask hblock, if_pos hdone]

/-- Its block has arrived. -/
theorem Writes.arrived {outcome : FileOutcome} {response : BlockResponseTransfer}
    (h : c.Writes outcome response) : (c.onBlockResponse outcome response).1.Arrived response.blockId := by
  obtain ⟨task, block, -, hblock, heq⟩ := onBlockResponse_written h
  obtain ⟨-, hid⟩ := BlockRepository.getByBlockId_some hblock
  rw [heq]
  intro row hrow hrowId
  rw [completeTask_blocks] at hrow
  rcases BlockRepository.mem_update hrow with rfl | ⟨-, hne⟩
  · rfl
  · exact absurd (hrowId.trans hid.symm) hne

/-- A response that leaves all rows of its task completed announces the task and marks it. -/
theorem Writes.announced {outcome : FileOutcome} {response : BlockResponseTransfer}
    (h : c.Writes outcome response) (hrunning : c.Running response.taskId)
    (hcomplete : (c.onBlockResponse outcome response).1.Complete response.taskId) :
    .taskCompleted response.taskId ∈ (c.onBlockResponse outcome response).2 ∧
      ∀ task ∈ (c.onBlockResponse outcome response).1.tasks, task.taskId = response.taskId →
        task.state = .completed := by
  obtain ⟨task, block, htask, -, heq⟩ := onBlockResponse_written h
  obtain ⟨task', htask', -, hid⟩ := hrunning
  obtain rfl : task = task' := Option.some.inj (htask.symm.trans htask')
  rw [heq, hid] at hcomplete ⊢
  -- no row of the task is Waiting, which is what the controller asks
  have hzero : BlockRepository.getCountByTaskIdAndBlockState (BlockRepository.update c.blocks
      { block with state := .completed, endTime := outcome.blockEnd }) response.taskId .waiting = 0 := by
    rw [BlockRepository.getCount_eq_zero]
    intro row hrow hrowTask hwaiting
    have hdone := hcomplete row (by rw [completeTask_blocks]; exact hrow) hrowTask
    rw [hwaiting] at hdone
    cases hdone
  unfold completeTask
  rw [if_pos hzero]
  refine ⟨List.mem_singleton.2 rfl, ?_⟩
  dsimp only
  intro row hrow hrowId
  split at hrow
  · rename_i found hfound
    have hfoundId : found.taskId = response.taskId := by simpa using List.find?_some hfound
    obtain ⟨old, -, rfl⟩ := List.mem_map.1 hrow
    split at hrowId
    · rename_i hsame
      rw [if_pos hsame]
    · rename_i hne
      exact absurd (hrowId.trans hfoundId.symm) hne
  · rename_i hnone
    have hother := List.find?_eq_none.1 hnone row hrow
    exact absurd hrowId (by simpa using hother)

/-- A row of a task is left as it is, or marked as completed. -/
theorem step_tasks (call : ScheduleCall) : ∀ task ∈ (c.step call).1.tasks, task ∈ c.tasks ∨
    task.state = .completed := by
  intro task htask
  by_cases hcall : ∃ outcome response, call = .onBlockResponse outcome response
  · obtain ⟨outcome, response, rfl⟩ := hcall
    rw [step] at htask
    obtain h | ⟨_, block, -, -, h | ⟨-, h⟩⟩ := c.onBlockResponse_cases outcome response
    · rw [h] at htask
      exact .inl htask
    · rw [h] at htask
      exact .inl htask
    · rw [h] at htask
      unfold completeTask at htask
      split at htask
      · dsimp only at htask
        split at htask
        · obtain ⟨old, hold, rfl⟩ := List.mem_map.1 htask
          split
          · exact .inr rfl
          · exact .inl hold
        · exact .inl htask
      · exact .inl htask
  · obtain ⟨-, htasks, -⟩ := step_tables fun outcome response heq => hcall ⟨outcome, response, heq⟩
    rw [htasks] at htask
    exact .inl htask

/-- **A block that has arrived stays so.** -/
theorem Loads.arrived (h : c.Loads calls taskId) {blockId : Int64} {t t' : ℕ} (hle : t ≤ t')
    (hbelongs : ∀ t, ∀ row ∈ (c.after calls t).blocks, row.blockId = blockId → row.taskId = taskId)
    (harrived : (c.after calls t).Arrived blockId) : (c.after calls t').Arrived blockId := by
  induction t', hle using Nat.le_induction with
  | base => exact harrived
  | succ t' _ ih =>
    show ((c.after calls t').step (calls t')).1.Arrived blockId
    by_cases hcall : ∃ outcome response, calls t' = .onBlockResponse outcome response
    · obtain ⟨outcome, response, hcall⟩ := hcall
      rw [hcall, step]
      by_cases hown : response.taskId = taskId
      · -- it is written, so its row is completed too
        obtain ⟨task, block, -, -, heq⟩ := onBlockResponse_written (h.written t' outcome response hcall hown)
        rw [heq]
        intro row hrow hrowId
        rw [completeTask_blocks] at hrow
        rcases BlockRepository.mem_update hrow with rfl | ⟨hold, -⟩
        · rfl
        · exact ih row hold hrowId
      · -- its block belongs to another task
        have hother : ∀ row ∈ (c.after calls t').blocks, row.blockId = response.blockId →
            row.blockId ≠ blockId := by
          intro row hrow hrowId hsame
          have hrowTask := h.own t' outcome response hcall row hrow hrowId
          exact hown (hrowTask.symm.trans (hbelongs t' row hrow hsame))
        obtain heq | ⟨task, block, -, hblock, heq | ⟨-, heq⟩⟩ :=
          (c.after calls t').onBlockResponse_cases outcome response
        · rw [heq]
          exact ih
        all_goals
          obtain ⟨hmem, hid⟩ := BlockRepository.getByBlockId_some hblock
          rw [heq]
          intro row hrow hrowId
          try rw [completeTask_blocks] at hrow
          rcases BlockRepository.mem_update hrow with rfl | ⟨hold, -⟩
          · -- the row that is written is not the one of this block
            exact absurd hrowId (hother block hmem hid)
          · exact ih row hold hrowId
    · have hother : ∀ outcome response, calls t' ≠ .onBlockResponse outcome response :=
        fun outcome response heq => hcall ⟨outcome, response, heq⟩
      obtain ⟨hblocks, -, -⟩ := step_tables (c := c.after calls t') hother
      unfold Arrived
      rw [hblocks]
      exact ih

/-- A block whose response has come has arrived from then on. -/
theorem Loads.arrived_later (h : c.Loads calls taskId) (hkeyed : c.KeyedBlocks) {row : BlockEntity}
    (hrow : row ∈ c.blocks)
    (hrowTask : row.taskId = taskId) {t t' : ℕ} {outcome : FileOutcome} {response : BlockResponseTransfer}
    (hcall : calls t = .onBlockResponse outcome response) (htask : response.taskId = taskId)
    (hblock : response.blockId = row.blockId) (hlt : t < t') : (c.after calls t').Arrived row.blockId := by
  have hbelongs : ∀ t, ∀ row' ∈ (c.after calls t).blocks, row'.blockId = row.blockId → row'.taskId = taskId :=
    fun t row' hrow' hsame => (row_taskId hkeyed calls hrow hrow' hsame).trans hrowTask
  have hdone := (h.written t outcome response hcall htask).arrived
  rw [hblock] at hdone
  refine h.arrived (show t + 1 ≤ t' from hlt) hbelongs ?_
  show ((c.after calls t).step (calls t)).1.Arrived row.blockId
  rw [hcall]
  exact hdone

/-- The row of a task that is marked stays so. -/
theorem marked_later {t t' : ℕ} (hle : t ≤ t')
    (h : ∀ task ∈ (c.after calls t).tasks, task.taskId = taskId → task.state = .completed) :
    ∀ task ∈ (c.after calls t').tasks, task.taskId = taskId → task.state = .completed := by
  induction t', hle using Nat.le_induction with
  | base => exact h
  | succ t' _ ih =>
    intro task htask hid
    rcases step_tasks (calls t') task htask with hold | hdone
    · exact ih task hold hid
    · exact hdone

variable {eventSource : EventContext} {endpoint : NetworkEndpoint} {taskEntity : TaskEntity}

/-- A task that is enqueued is running. -/
theorem running_enqueued (hstart : calls 0 = .onTaskEnqueue eventSource endpoint taskEntity) :
    (c.after calls 1).Running taskEntity.taskId := by
  show (c.step (calls 0)).1.Running taskEntity.taskId
  rw [hstart]
  exact ⟨_, Function.update_self .., rfl, rfl⟩

/-- Every block of a task that is enqueued is answered at some time. -/
theorem Loads.answered_block (h : c.Loads calls taskEntity.taskId)
    (hstart : calls 0 = .onTaskEnqueue eventSource endpoint taskEntity) {row : BlockEntity}
    (hrow : row ∈ c.blocks) (hrowTask : row.taskId = taskEntity.taskId) :
    ∃ t, ∃ outcome response, calls t = .onBlockResponse outcome response ∧
      response.taskId = taskEntity.taskId ∧ response.blockId = row.blockId := by
  have hqueued : BlockRequestTransfer.ofBlock row ∈ (c.after calls 1).queue := by
    show _ ∈ (c.step (calls 0)).1.queue
    rw [hstart]
    apply List.mem_append_right
    apply List.mem_map_of_mem
    exact BlockRepository.mem_getByTaskId.2 ⟨hrow, hrowTask⟩
  obtain ⟨position, hposition⟩ := List.mem_iff_getElem?.1 hqueued
  obtain ⟨t, source, server, -, hrequest⟩ := h.requested hrowTask position (running_enqueued hstart) hposition
  obtain ⟨t', outcome, response, -, hcall, htask, hblock⟩ := h.answered t source server _ hrowTask hrequest
  exact ⟨t', outcome, response, hcall, htask, hblock⟩

/-- One of them is the last that is answered; by then all have arrived. -/
theorem Loads.last_answer (h : c.Loads calls taskEntity.taskId) (hkeyed : c.KeyedBlocks)
    (hstart : calls 0 = .onTaskEnqueue eventSource endpoint taskEntity)
    (hsome : ∃ row ∈ c.blocks, row.taskId = taskEntity.taskId) :
    ∃ t₀ outcome response, calls t₀ = .onBlockResponse outcome response ∧ response.taskId = taskEntity.taskId ∧
      ∀ t, t₀ < t → (c.after calls t).Complete taskEntity.taskId := by
  choose! time htime using fun row (hrow : row ∈ BlockRepository.getByTaskId c.blocks taskEntity.taskId) =>
    h.answered_block hstart (BlockRepository.mem_getByTaskId.1 hrow).1 (BlockRepository.mem_getByTaskId.1 hrow).2
  have hnonempty : (BlockRepository.getByTaskId c.blocks taskEntity.taskId).toFinset.Nonempty := by
    obtain ⟨row, hrow, hrowTask⟩ := hsome
    exact ⟨row, List.mem_toFinset.2 (BlockRepository.mem_getByTaskId.2 ⟨hrow, hrowTask⟩)⟩
  obtain ⟨last, hlast, hmax⟩ := Finset.exists_max_image _ time hnonempty
  obtain ⟨outcome, response, hcall, htask, -⟩ := htime last (List.mem_toFinset.1 hlast)
  refine ⟨time last, outcome, response, hcall, htask, ?_⟩
  intro t ht row hrow hrowTask
  obtain ⟨old, hold, hblockId, htaskId⟩ := exists_first hkeyed calls hrow
  have holdTask : old.taskId = taskEntity.taskId := htaskId.trans hrowTask
  have hmem := BlockRepository.mem_getByTaskId.2 ⟨hold, holdTask⟩
  obtain ⟨outcome', response', hcall', htask', hblock'⟩ := htime old hmem
  have hlt : time old < t := (hmax old (List.mem_toFinset.2 hmem)).trans_lt ht
  exact h.arrived_later hkeyed hold holdTask hcall' htask' hblock' hlt row hrow hblockId.symm

/-- **Downloads finish**: a task that is enqueued is announced at some time, and from then on
all its blocks are completed, and its row. -/
theorem downloads_finish (hkeyed : c.KeyedBlocks) {eventSource : EventContext} {endpoint : NetworkEndpoint}
    {taskEntity : TaskEntity} (hstart : calls 0 = .onTaskEnqueue eventSource endpoint taskEntity)
    (hsome : ∃ row ∈ c.blocks, row.taskId = taskEntity.taskId) (h : c.Loads calls taskEntity.taskId) :
    ∃ t₀, .taskCompleted taskEntity.taskId ∈ c.emitted calls t₀ ∧ ∀ t, t₀ < t →
      (c.after calls t).Complete taskEntity.taskId ∧
        ∀ task ∈ (c.after calls t).tasks, task.taskId = taskEntity.taskId → task.state = .completed := by
  obtain ⟨t₀, outcome, response, hcall, htask, hcomplete⟩ := h.last_answer hkeyed hstart hsome
  have hwrites := h.written t₀ outcome response hcall htask
  have hnext : c.after calls (t₀ + 1) = ((c.after calls t₀).onBlockResponse outcome response).1 := by
    show ((c.after calls t₀).step (calls t₀)).1 = _
    rw [hcall]
    rfl
  have hrunning : (c.after calls t₀).Running taskEntity.taskId := by
    -- the call at zero is the enqueue, so the last answer comes after it
    have hpositive : 1 ≤ t₀ := by
      rcases Nat.eq_zero_or_pos t₀ with rfl | hpos
      · rw [hstart] at hcall
        cases hcall
      · exact hpos
    exact h.running hpositive (running_enqueued hstart)
  have hdone : (c.after calls (t₀ + 1)).Complete taskEntity.taskId := hcomplete _ (Nat.lt_succ_self t₀)
  rw [hnext, ← htask] at hdone
  have hannounced := hwrites.announced (htask ▸ hrunning) hdone
  rw [htask, ← hnext] at hannounced
  obtain ⟨hsignal, hmarked⟩ := hannounced
  refine ⟨t₀, ?_, fun t ht => ⟨hcomplete t ht, marked_later (show t₀ + 1 ≤ t from ht) hmarked⟩⟩
  show _ ∈ ((c.after calls t₀).step (calls t₀)).2
  rw [hcall]
  exact hsignal

/-- Task 1 is started, both blocks are requested and answered, and the timer goes on. -/
def twoBlocksLoaded : ℕ → ScheduleCall
  | 0 => startTask
  | 1 => .onBlockRequest
  | 2 => .onBlockRequest
  | 3 => .onBlockResponse oneByte ⟨1, 1, 1, 0, 1, [7]⟩
  | 4 => .onBlockResponse oneByte ⟨2, 1, 1, 1, 1, [8]⟩
  | _ + 5 => .onBlockRequest

theorem twoBlocksLoaded_queue (n : ℕ) : (twoBlocks.after twoBlocksLoaded (n + 5)).queue = [] := by
  induction n with
  | zero => rfl
  | succ n ih =>
    show ((twoBlocks.after twoBlocksLoaded (n + 5)).onBlockRequest).1.queue = []
    unfold onBlockRequest
    rw [ih]
    exact ih

theorem twoBlocksLoaded_loads : twoBlocks.Loads twoBlocksLoaded 1 where
  keeps := by
    rintro (_ | _ | _ | _ | _ | n)
    all_goals trivial
  ticks := fun t => ⟨t + 5, by omega, rfl⟩
  answered := by
    rintro (_ | _ | _ | _ | _ | n) eventSource endpoint transfer - hrequest
    · exact absurd hrequest List.not_mem_nil
    · obtain ⟨-, -, rfl⟩ := ScheduleSignal.blockRequest.inj (List.mem_singleton.1 hrequest)
      exact ⟨3, _, _, by omega, rfl, rfl, rfl⟩
    · obtain ⟨-, -, rfl⟩ := ScheduleSignal.blockRequest.inj (List.mem_singleton.1 hrequest)
      exact ⟨4, _, _, by omega, rfl, rfl, rfl⟩
    · exact absurd hrequest List.not_mem_nil
    · exact absurd (List.mem_singleton.1 hrequest) (by simp)
    · have hnone : (twoBlocks.after twoBlocksLoaded (n + 5)).onBlockRequest.2 = [] := by
        unfold onBlockRequest
        rw [twoBlocksLoaded_queue]
      change _ ∈ (twoBlocks.after twoBlocksLoaded (n + 5)).onBlockRequest.2 at hrequest
      rw [hnone] at hrequest
      exact absurd hrequest List.not_mem_nil
  written := by
    rintro (_ | _ | _ | _ | _ | n) outcome response hcall -
    · cases hcall
    · cases hcall
    · cases hcall
    · obtain ⟨rfl, rfl⟩ := ScheduleCall.onBlockResponse.inj hcall
      exact ⟨_, _, rfl, rfl, rfl⟩
    · obtain ⟨rfl, rfl⟩ := ScheduleCall.onBlockResponse.inj hcall
      exact ⟨_, _, rfl, rfl, rfl⟩
    · cases hcall
  own := by
    rintro (_ | _ | _ | _ | _ | n) outcome response hcall
    · cases hcall
    · cases hcall
    · cases hcall
    · obtain ⟨rfl, rfl⟩ := ScheduleCall.onBlockResponse.inj hcall
      decide
    · obtain ⟨rfl, rfl⟩ := ScheduleCall.onBlockResponse.inj hcall
      decide
    · cases hcall

theorem downloads_finish_two :
    ∃ t₀, .taskCompleted 1 ∈ twoBlocks.emitted twoBlocksLoaded t₀ ∧ ∀ t, t₀ < t →
      (twoBlocks.after twoBlocksLoaded t).Complete 1 ∧
        ∀ task ∈ (twoBlocks.after twoBlocksLoaded t).tasks, task.taskId = 1 → task.state = .completed :=
  downloads_finish (show (twoBlocks.blocks.map (·.blockId)).Nodup by decide)
    (show twoBlocksLoaded 0 = startTask from rfl)
    ⟨_, List.mem_cons_self, rfl⟩ twoBlocksLoaded_loads

end BlockScheduleController

end ProjectTrans
