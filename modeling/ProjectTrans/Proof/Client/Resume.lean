import ProjectTrans.Proof.Client.Schedule

/-!
# Resuming a task

Starting a task again puts all of its rows into the queue, completed ones too, so it is
resumed as it should be exactly when none of them is completed (`resumes_iff`).
-/

namespace ProjectTrans

open BlockScheduleController

/-- Starting a task appends requests for its rows, for those that are not completed and no others. -/
def BlockScheduleController.Resumes (c : BlockScheduleController) (eventSource : EventContext)
    (endpoint : NetworkEndpoint) (taskEntity : TaskEntity) : Prop :=
  ∃ added, (c.step (.onTaskEnqueue eventSource endpoint taskEntity)).1.queue = c.queue ++ added ∧
    (∀ transfer ∈ added, ∃ row ∈ c.blocks, row.taskId = taskEntity.taskId ∧ transfer = .ofBlock row) ∧
    ∀ row ∈ c.blocks, row.taskId = taskEntity.taskId → (.ofBlock row ∈ added ↔ row.state ≠ .completed)

/-- What an enqueue appends. -/
theorem onTaskEnqueue_queue (c : BlockScheduleController) (eventSource : EventContext)
    (endpoint : NetworkEndpoint)
    (taskEntity : TaskEntity) : (c.step (.onTaskEnqueue eventSource endpoint taskEntity)).1.queue =
      c.queue ++ (BlockRepository.getByTaskId c.blocks taskEntity.taskId).map .ofBlock := rfl

/-- **A task is resumed exactly when** none of its rows is completed, in whatever state the
calls before have left the controller. -/
theorem resumes_iff (c : BlockScheduleController) (calls : List ScheduleCall) (eventSource : EventContext)
    (endpoint : NetworkEndpoint) (taskEntity : TaskEntity) :
    let last := (calls.foldl Recorded.record ⟨c, []⟩).controller
    last.Resumes eventSource endpoint taskEntity ↔
      ∀ row ∈ last.blocks, row.taskId = taskEntity.taskId → row.state ≠ .completed := by
  intro last
  constructor
  · rintro ⟨added, hqueue, -, hadded⟩ row hrow ht
    rw [onTaskEnqueue_queue] at hqueue
    rw [← hadded row hrow ht, ← List.append_cancel_left hqueue]
    exact List.mem_map_of_mem (BlockRepository.mem_getByTaskId.2 ⟨hrow, ht⟩)
  · intro h
    refine ⟨_, onTaskEnqueue_queue last eventSource endpoint taskEntity, fun transfer htransfer => ?_,
      fun row hrow ht => ?_⟩
    · obtain ⟨row, hrow, rfl⟩ := List.mem_map.1 htransfer
      exact ⟨row, (BlockRepository.mem_getByTaskId.1 hrow).1, (BlockRepository.mem_getByTaskId.1 hrow).2, rfl⟩
    · exact iff_of_true (List.mem_map_of_mem (BlockRepository.mem_getByTaskId.2 ⟨hrow, ht⟩)) (h row hrow ht)

/-- The first block has arrived; starting the task again asks for it once more. -/
theorem resume_requests_completed :
    let last := ([startTask, .onBlockRequest, .onBlockRequest,
      .onBlockResponse oneByte ⟨1, 1, 1, 0, 1, [7]⟩].foldl Recorded.record ⟨twoBlocks, []⟩).controller
    let again := (last.step startTask).1
    (∃ row ∈ last.blocks, row.taskId = 1 ∧ row.state = .completed ∧ .ofBlock row ∈ again.queue) ∧
      ¬last.Resumes ⟨[]⟩ ⟨[], 80⟩ { taskId := 1, fileId := 1, state := .waiting } := by
  intro last again
  refine ⟨by decide, fun ⟨added, hqueue, _, hadded⟩ => ?_⟩
  have hfirst := (hadded ⟨1, 1, 1, 0, 1, .completed, 0, 0⟩ (by decide) rfl).1
  rw [onTaskEnqueue_queue] at hqueue
  rw [← List.append_cancel_left hqueue] at hfirst
  exact absurd (hfirst (by decide)) (by decide)

end ProjectTrans
