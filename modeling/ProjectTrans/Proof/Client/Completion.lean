import ProjectTrans.Proof.Client.Schedule

/-!
# Completion of downloads

A task is announced when no row of it waits any more, whatever became of its other rows,
and again with every later response. `completion_sound`: in runs in which every response
that leaves no row waiting finds all other rows completed and the task not announced yet,
tasks are announced only when complete, and once per enqueue. A response whose own row waits
finds its task not announced yet (`completesLast_of_rows`).
-/

namespace ProjectTrans

open BlockScheduleController

/-- How often a task has been announced since it was last enqueued. -/
def announcements (taskId : Int64) (history : List Happening) : ℕ :=
  history.foldl (fun n happening =>
    match happening with
    | .call (.onTaskEnqueue _ _ taskEntity) => if taskEntity.taskId = taskId then 0 else n
    | .signal (.taskCompleted completed) => if completed = taskId then n + 1 else n
    | _ => n) 0

/-- All rows of a task are completed. -/
def BlockScheduleController.Complete (c : BlockScheduleController) (taskId : Int64) : Prop :=
  ∀ row ∈ c.blocks, row.taskId = taskId → row.state = .completed

/-- A call announces and marks only complete tasks, and none twice since its last enqueue. -/
structure Recorded.CompletesRightly (r : Recorded) (call : ScheduleCall) : Prop where
  announced : ∀ taskId, .taskCompleted taskId ∈ (r.controller.step call).2 →
    (r.record call).controller.Complete taskId
  marked : ∀ task ∈ (r.record call).controller.tasks, task ∉ r.controller.tasks →
    (r.record call).controller.Complete task.taskId
  once : ∀ taskId, announcements taskId (r.record call).history ≤ 1

/-- A response that is written and leaves no row of its task waiting finds all other rows
of the task completed, and the task not announced since its last enqueue. -/
def Recorded.CompletesLast (r : Recorded) : ScheduleCall → Prop
  | .onBlockResponse outcome response =>
    r.controller.Writes outcome response →
    (∀ row ∈ r.controller.blocks, row.taskId = response.taskId → row.blockId ≠ response.blockId →
      row.state ≠ .waiting) →
    (∀ row ∈ r.controller.blocks, row.taskId = response.taskId → row.blockId ≠ response.blockId →
      row.state = .completed) ∧ announcements response.taskId r.history = 0
  | _ => True

/-! ## One call -/

/-- Scheduled tasks are kept under their ids. -/
def BlockScheduleController.KeyedTasks (c : BlockScheduleController) : Prop :=
  ∀ taskId task, c.pending taskId = some task → task.taskEntity.taskId = taskId

theorem BlockScheduleController.KeyedTasks.step {c : BlockScheduleController} (h : c.KeyedTasks)
    (call : ScheduleCall) : (c.step call).1.KeyedTasks := by
  intro taskId task htask
  cases call with
  | onTaskEnqueue eventSource endpoint taskEntity =>
    rcases update_eq_some htask with ⟨rfl, hnew⟩ | ⟨-, hold⟩
    · obtain rfl := Option.some.inj hnew
      rfl
    · exact h taskId task hold
  | onTaskCancle cancelled =>
    rcases update_eq_some htask with ⟨-, hnew⟩ | ⟨-, hold⟩
    · exact absurd hnew (by simp)
    · exact h taskId task hold
  | onTaskPaused paused isPaused =>
    rw [BlockScheduleController.step, onTaskPaused_pending] at htask
    rcases update_eq_some htask with ⟨rfl, hnew⟩ | ⟨-, hold⟩
    · obtain ⟨old, hold, rfl⟩ := Option.map_eq_some_iff.1 hnew
      exact h taskId old hold
    · exact h taskId task hold
  | onBlockRequest =>
    rw [BlockScheduleController.step, onBlockRequest_pending] at htask
    exact h taskId task htask
  | onBlockResponse outcome response =>
    -- a response may replace the record of a task, and not its entity
    have hentity := (onBlockResponse_same (c := c) outcome response).entities taskId
    rw [BlockScheduleController.step] at htask
    rw [htask] at hentity
    obtain ⟨old, hold, heq⟩ := Option.map_eq_some_iff.1 hentity.symm
    have heq : old.taskEntity = task.taskEntity := heq
    rw [← heq]
    exact h taskId old hold

/-- A task that is marked as completed by `completeTask` is the one it looks at. -/
theorem completeTask_marks {c : BlockScheduleController} {outcome : FileOutcome} {taskId : Int64}
    {task : TaskEntity} (h : task ∈ (c.completeTask outcome taskId).1.tasks) (hnew : task ∉ c.tasks) :
    task.taskId = taskId ∧ BlockRepository.getCountByTaskIdAndBlockState c.blocks taskId .waiting = 0 := by
  unfold completeTask at h
  split at h
  · rename_i hcount
    refine ⟨?_, hcount⟩
    simp only at h
    split at h
    · rename_i old hold
      obtain ⟨row, hrow, rfl⟩ := List.mem_map.1 h
      split
      · simpa using List.find?_some hold
      · rename_i hne
        rw [if_neg hne] at hnew
        exact absurd hrow hnew
    · exact absurd h hnew
  · exact absurd h hnew

/-- **A completed task has no row that waits or failed**: what a response announces or
marks, when all rows but its own are completed. -/
theorem onBlockResponse_complete {c : BlockScheduleController} (hkeyed : c.KeyedTasks) {outcome : FileOutcome}
    {response : BlockResponseTransfer} {taskId : Int64}
    (hrest : c.Writes outcome response →
      (∀ row ∈ c.blocks, row.taskId = response.taskId → row.blockId ≠ response.blockId → row.state ≠ .waiting) →
      ∀ row ∈ c.blocks, row.taskId = response.taskId → row.blockId ≠ response.blockId → row.state = .completed)
    (h : .taskCompleted taskId ∈ (c.onBlockResponse outcome response).2 ∨
      ∃ task ∈ (c.onBlockResponse outcome response).1.tasks, task ∉ c.tasks ∧ task.taskId = taskId) :
    taskId = response.taskId ∧ c.Writes outcome response ∧
      (∀ row ∈ c.blocks, row.taskId = response.taskId → row.blockId ≠ response.blockId → row.state ≠ .waiting) ∧
      (c.onBlockResponse outcome response).1.Complete taskId := by
  obtain hr | ⟨task, block, htask, hblock, hr | ⟨hwrites, hr⟩⟩ := c.onBlockResponse_cases outcome response
  · -- neither of these outcomes announces or marks
    rw [hr] at h
    rcases h with h | ⟨task, htask, hnew, -⟩
    · exact absurd h List.not_mem_nil
    · exact absurd htask hnew
  · rw [hr] at h
    rcases h with h | ⟨task, htask, hnew, -⟩
    · exact absurd h List.not_mem_nil
    · exact absurd htask hnew
  · have hkey := hkeyed response.taskId task htask
    obtain ⟨-, hid⟩ := BlockRepository.getByBlockId_some hblock
    rw [hr, hkey] at h ⊢
    -- whatever was announced or marked, the count was zero
    have hcount : taskId = response.taskId ∧
        BlockRepository.getCountByTaskIdAndBlockState (BlockRepository.update c.blocks
          { block with state := .completed, endTime := outcome.blockEnd }) response.taskId .waiting = 0 := by
      rcases h with h | ⟨task', htask', hnew, rfl⟩
      · unfold completeTask at h
        split at h
        · rename_i hzero
          simp only [List.mem_singleton, ScheduleSignal.taskCompleted.injEq] at h
          exact ⟨h, hzero⟩
        · exact absurd h List.not_mem_nil
      · exact completeTask_marks htask' hnew
    obtain ⟨rfl, hzero⟩ := hcount
    rw [BlockRepository.getCount_eq_zero] at hzero
    have hwait : ∀ row ∈ c.blocks, row.taskId = response.taskId → row.blockId ≠ response.blockId →
        row.state ≠ .waiting := by
      intro row hrow ht hne
      exact hzero row (BlockRepository.mem_update_of_ne hrow (by rw [hid]; exact hne)) ht
    refine ⟨rfl, hwrites, hwait, fun row hrow ht => ?_⟩
    rw [completeTask_blocks] at hrow
    rcases BlockRepository.mem_update hrow with rfl | ⟨hold, hne⟩
    · rfl
    · exact hrest hwrites hwait row hold ht (by rw [← hid]; exact hne)

/-! ## Histories -/

/-- What happens after a history changes the count. -/
theorem announcements_append (taskId : Int64) (history : List Happening) (happening : Happening) :
    announcements taskId (history ++ [happening]) =
      match happening with
      | .call (.onTaskEnqueue _ _ taskEntity) =>
        if taskEntity.taskId = taskId then 0 else announcements taskId history
      | .signal (.taskCompleted completed) =>
        if completed = taskId then announcements taskId history + 1 else announcements taskId history
      | _ => announcements taskId history := by
  unfold announcements
  rw [List.foldl_append]
  rfl

/-- **Counting announcements**: a call starts a task anew, or adds what it announces. -/
theorem announcements_record (r : Recorded) (call : ScheduleCall) (taskId : Int64) :
    announcements taskId (r.record call).history ≤ announcements taskId r.history ∨
      .taskCompleted taskId ∈ (r.controller.step call).2 ∧
        announcements taskId (r.record call).history = announcements taskId r.history + 1 := by
  have hsplit : (r.record call).history =
      (r.history ++ [.call call]) ++ (r.controller.step call).2.map .signal := by
    simp [Recorded.record]
  rw [hsplit]
  cases call with
  | onTaskEnqueue eventSource endpoint taskEntity =>
    left
    simp only [BlockScheduleController.step, List.map_nil, List.append_nil, announcements_append]
    -- an enqueue of the task starts its count anew
    split <;> omega
  | onTaskCancle cancelled =>
    left
    simp only [BlockScheduleController.step, List.map_nil, List.append_nil, announcements_append, le_refl]
  | onTaskPaused paused isPaused =>
    left
    simp only [BlockScheduleController.step, List.map_nil, List.append_nil, announcements_append, le_refl]
  | onBlockRequest =>
    left
    rw [BlockScheduleController.step]
    obtain h | ⟨_, _, _, h⟩ := onBlockRequest_signals r.controller
    · simp only [h, List.map_nil, List.append_nil, announcements_append, le_refl]
    · simp only [h, List.map_cons, List.map_nil, announcements_append, le_refl]
  | onBlockResponse outcome response =>
    rw [BlockScheduleController.step]
    obtain h | ⟨completed, h⟩ := onBlockResponse_signals r.controller outcome response
    · left
      simp only [h, List.map_nil, List.append_nil, announcements_append, le_refl]
    · by_cases ht : completed = taskId
      · subst ht
        right
        simp only [h, List.map_cons, List.map_nil, announcements_append, if_true, List.mem_singleton, and_self]
      · left
        simp only [h, List.map_cons, List.map_nil, announcements_append, ht, if_false, le_refl]

/-- **Downloads complete once and wholly** in every run whose responses complete tasks last. -/
theorem completion_sound {c : BlockScheduleController} (hfresh : c.Fresh) {calls : List ScheduleCall}
    (hm : Run.Meets Recorded.CompletesLast Recorded.record ⟨c, []⟩ calls) :
    Run.Meets Recorded.CompletesRightly Recorded.record ⟨c, []⟩ calls := by
  refine hm.imp_of_invariant
    (fun r => r.controller.KeyedTasks ∧ ∀ taskId, announcements taskId r.history ≤ 1) ?_
    ⟨fun taskId task htask => by simp [hfresh.pending taskId] at htask, fun taskId => by simp [announcements]⟩
  rintro r call ⟨hkeyed, honce⟩ hlast
  -- what is announced or marked is complete, and has not been announced before
  have hcomplete : ∀ taskId, (.taskCompleted taskId ∈ (r.controller.step call).2 ∨
      ∃ task ∈ (r.controller.step call).1.tasks, task ∉ r.controller.tasks ∧ task.taskId = taskId) →
      (r.controller.step call).1.Complete taskId ∧ announcements taskId r.history = 0 := by
    intro taskId h
    by_cases hcall : ∃ outcome response, call = .onBlockResponse outcome response
    · obtain ⟨outcome, response, rfl⟩ := hcall
      obtain ⟨rfl, hwrites, hwait, hdone⟩ := onBlockResponse_complete hkeyed (fun hw hr => (hlast hw hr).1) h
      exact ⟨hdone, (hlast hwrites hwait).2⟩
    · obtain ⟨-, htasks, hsignals⟩ := step_tables (c := r.controller)
        fun outcome response heq => hcall ⟨outcome, response, heq⟩
      rcases h with h | ⟨task, htask, hnew, -⟩
      · exact absurd h (hsignals taskId)
      · rw [htasks] at htask
        exact absurd htask hnew
  have honce' : ∀ taskId, announcements taskId (r.record call).history ≤ 1 := by
    intro taskId
    rcases announcements_record r call taskId with hle | ⟨hmem, heq⟩
    · exact hle.trans (honce taskId)
    · rw [heq, (hcomplete taskId (.inl hmem)).2]
  exact ⟨⟨hkeyed.step call, honce'⟩, fun taskId h => (hcomplete taskId (.inl h)).1,
    fun task htask hnew => (hcomplete task.taskId (.inr ⟨task, htask, hnew, rfl⟩)).1, honce'⟩

/-! ## Conditions on the rows -/

/-- A response that is written and leaves no other row of its task waiting brings the last block:
its own row waits, and the others are completed. -/
def BlockScheduleController.BringsLast (c : BlockScheduleController) : ScheduleCall → Prop
  | .onBlockResponse outcome response =>
    c.Writes outcome response →
    (∀ row ∈ c.blocks, row.taskId = response.taskId → row.blockId ≠ response.blockId → row.state ≠ .waiting) →
    (∀ row ∈ c.blocks, row.taskId = response.taskId → row.blockId ≠ response.blockId → row.state = .completed) ∧
      ∃ row ∈ c.blocks, row.taskId = response.taskId ∧ row.state = .waiting
  | _ => True

/-- No call makes a row wait. -/
theorem BlockScheduleController.waiting_step {c : BlockScheduleController} (call : ScheduleCall)
    {row : BlockEntity}
    (hrow : row ∈ (c.step call).1.blocks) (hwaiting : row.state = .waiting) : row ∈ c.blocks := by
  by_cases hcall : ∃ outcome response, call = .onBlockResponse outcome response
  · obtain ⟨outcome, response, rfl⟩ := hcall
    rw [BlockScheduleController.step] at hrow
    obtain h | ⟨task, block, -, -, h | ⟨-, h⟩⟩ := c.onBlockResponse_cases outcome response
    · rwa [h] at hrow
    · rw [h] at hrow
      obtain rfl | ⟨hold, -⟩ := BlockRepository.mem_update hrow
      · cases hwaiting
      · exact hold
    · rw [h, completeTask_blocks] at hrow
      obtain rfl | ⟨hold, -⟩ := BlockRepository.mem_update hrow
      · cases hwaiting
      · exact hold
  · obtain ⟨hblocks, -, -⟩ := step_tables fun outcome response heq => hcall ⟨outcome, response, heq⟩
    rwa [hblocks] at hrow

/-- An announced task has no row that waits. -/
theorem BlockScheduleController.announced_step {c : BlockScheduleController} {call : ScheduleCall}
    {taskId : Int64} (h : .taskCompleted taskId ∈ (c.step call).2) :
    ∀ row ∈ (c.step call).1.blocks, row.taskId = taskId → row.state ≠ .waiting := by
  by_cases hcall : ∃ outcome response, call = .onBlockResponse outcome response
  · obtain ⟨outcome, response, rfl⟩ := hcall
    rw [BlockScheduleController.step] at h ⊢
    obtain hr | ⟨task, block, -, -, hr | ⟨-, hr⟩⟩ := c.onBlockResponse_cases outcome response
    · rw [hr] at h
      exact absurd h List.not_mem_nil
    · rw [hr] at h
      exact absurd h List.not_mem_nil
    · rw [hr] at h ⊢
      rw [completeTask_blocks, ← BlockRepository.getCount_eq_zero]
      unfold completeTask at h
      split at h
      · rename_i hzero
        obtain rfl : taskId = task.taskEntity.taskId := by simpa using h
        exact hzero
      · exact absurd h List.not_mem_nil
  · obtain ⟨-, -, hsignals⟩ := step_tables (c := c) fun outcome response heq => hcall ⟨outcome, response, heq⟩
    exact absurd h (hsignals taskId)

/-- **What the rows say is enough**: a task with a row that waits has not been announced. -/
theorem completesLast_of_rows {c : BlockScheduleController} {calls : List ScheduleCall}
    (hm : Run.Meets (fun r call => r.controller.BringsLast call) Recorded.record ⟨c, []⟩ calls) :
    Run.Meets Recorded.CompletesLast Recorded.record ⟨c, []⟩ calls := by
  refine hm.imp_of_invariant (fun r => ∀ taskId, announcements taskId r.history ≠ 0 →
    ∀ row ∈ r.controller.blocks, row.taskId = taskId → row.state ≠ .waiting) ?_ (fun _ hne => absurd rfl hne)
  intro r call hinv hlast
  refine ⟨fun taskId hne row hrow hid hwaiting => ?_, ?_⟩
  · rcases announcements_record r call taskId with hle | ⟨hannounced, -⟩
    · exact hinv taskId (by omega) row (r.controller.waiting_step call hrow hwaiting) hid hwaiting
    · exact announced_step hannounced row hrow hid hwaiting
  · cases call with
    | onBlockResponse outcome response =>
      intro hwrites hwait
      obtain ⟨hdone, row, hrow, hid, hwaiting⟩ := hlast hwrites hwait
      refine ⟨hdone, ?_⟩
      by_contra hne
      exact hinv response.taskId hne row hrow hid hwaiting
    | _ => trivial

/-- Both blocks arrive, and then the task is complete. -/
theorem completion_sound_twoBlocks :
    let calls : List ScheduleCall := [startTask, .onBlockResponse oneByte ⟨1, 1, 1, 0, 1, [7]⟩,
      .onBlockResponse oneByte ⟨2, 1, 1, 1, 1, [8]⟩]
    Run.Meets Recorded.CompletesRightly Recorded.record ⟨twoBlocks, []⟩ calls := by
  have hlast : Run.Meets (fun r call => r.controller.BringsLast call) Recorded.record ⟨twoBlocks, []⟩
      [startTask, .onBlockResponse oneByte ⟨1, 1, 1, 0, 1, [7]⟩,
        .onBlockResponse oneByte ⟨2, 1, 1, 1, 1, [8]⟩] := by
    refine ⟨trivial, fun _ h => ?_, fun _ _ => ⟨by decide, ?_⟩, trivial⟩
    · -- the second block still waits
      exact absurd rfl (h ⟨2, 1, 1, 1, 1, .waiting, 0, 0⟩ (by decide) (by decide) (by decide))
    · exact ⟨⟨2, 1, 1, 1, 1, .waiting, 0, 0⟩, by decide, rfl, rfl⟩
  exact completion_sound ⟨rfl, fun _ => rfl⟩ (completesLast_of_rows hlast)

/-- The first block comes without its data and fails; with the second one the task is announced. -/
theorem failedBlock_completes :
    let calls : List ScheduleCall := [startTask, .onBlockResponse oneByte ⟨1, 1, 1, 0, 1, []⟩,
      .onBlockResponse oneByte ⟨2, 1, 1, 1, 1, [8]⟩]
    ¬Run.Meets Recorded.CompletesRightly Recorded.record ⟨twoBlocks, []⟩ calls := by
  rintro calls ⟨-, -, h, -⟩
  have hcomplete := h.announced 1 (by decide)
  exact absurd (hcomplete ⟨1, 1, 1, 0, 1, .failed, 0, 0⟩ (by decide) rfl) (by decide)

end ProjectTrans
