import ProjectTrans.Lib.Run
import ProjectTrans.Model.Client.BlockScheduleController

/-!
# Histories of the block schedule

A history lists the calls of the controller and what they emitted. Responses leave the
queue and the marks of the tasks alone (`onBlockResponse_same`); what they do to the
tables is in `onBlockResponse_blocks` and `onBlockResponse_completes`.
-/

namespace ProjectTrans

/-- What a history lists. -/
inductive Happening
  | call (call : ScheduleCall)
  | signal (signal : ScheduleSignal)
  deriving DecidableEq

/-- The controller and its history. -/
structure Recorded where
  controller : BlockScheduleController
  history : List Happening

/-- A call is made and recorded, with what it emits. -/
def Recorded.record (r : Recorded) (call : ScheduleCall) : Recorded :=
  ⟨(r.controller.step call).1, r.history ++ .call call :: (r.controller.step call).2.map .signal⟩

/-- A controller on which nothing has been called. -/
structure BlockScheduleController.Fresh (c : BlockScheduleController) : Prop where
  queue : c.queue = []
  pending : ∀ taskId, c.pending taskId = none

/-- The rows have different ids, as a primary key has. -/
def BlockScheduleController.KeyedBlocks (c : BlockScheduleController) : Prop := (c.blocks.map (·.blockId)).Nodup

namespace BlockRepository

variable {rows : List BlockEntity} {block row : BlockEntity}

theorem mem_getByTaskId {taskId : Int64} : row ∈ getByTaskId rows taskId ↔ row ∈ rows ∧ row.taskId = taskId := by
  simp [getByTaskId]

theorem getByBlockId_some {blockId : Int64} (h : getByBlockId rows blockId = some block) :
    block ∈ rows ∧ block.blockId = blockId :=
  ⟨List.mem_of_find?_eq_some h, by simpa using List.find?_some h⟩

theorem getCount_eq_zero {taskId : Int64} {state : BlockState} :
    getCountByTaskIdAndBlockState rows taskId state = 0 ↔ ∀ row ∈ rows, row.taskId = taskId →
      row.state ≠ state := by
  simp [getCountByTaskIdAndBlockState, getByTaskIdAndBlockState]

/-- The rows after an update: the new one, and those of other ids. -/
theorem mem_update (h : row ∈ update rows block) : row = block ∨ row ∈ rows ∧ row.blockId ≠ block.blockId := by
  obtain ⟨old, hold, rfl⟩ := List.mem_map.1 h
  split
  · exact .inl rfl
  · exact .inr ⟨hold, ‹_›⟩

theorem mem_update_of_ne (h : row ∈ rows) (hne : row.blockId ≠ block.blockId) : row ∈ update rows block :=
  List.mem_map.2 ⟨row, h, if_neg hne⟩

theorem mem_update_self (h : row ∈ rows) (hid : block.blockId = row.blockId) : block ∈ update rows block :=
  List.mem_map.2 ⟨row, h, if_pos hid.symm⟩

/-- Updates keep the ids. -/
theorem update_ids : (update rows block).map (·.blockId) = rows.map (·.blockId) := by
  rw [update, List.map_map]
  refine List.map_congr_left fun row _ => ?_
  simp only [Function.comp_apply]
  split
  · exact Eq.symm ‹_›
  · rfl

end BlockRepository

namespace BlockScheduleController

/-- Two controllers with the same queue, and the same tasks and marks. -/
structure SameSchedule (c c' : BlockScheduleController) : Prop where
  queue : c'.queue = c.queue
  marks : ∀ taskId, (c'.pending taskId).map (·.isPaused) = (c.pending taskId).map (·.isPaused)
  entities : ∀ taskId, (c'.pending taskId).map (·.taskEntity) = (c.pending taskId).map (·.taskEntity)

theorem SameSchedule.refl (c : BlockScheduleController) : SameSchedule c c := ⟨rfl, fun _ => rfl, fun _ => rfl⟩

variable {c : BlockScheduleController}

/-- A destination file set for a task changes neither its mark nor its entity. -/
theorem sameSchedule_of_destFile {c' : BlockScheduleController} {taskId : Int64} {task : TaskPending}
    {file : Option DestFile} (h : c.pending taskId = some task) (hqueue : c'.queue = c.queue)
    (hpending : c'.pending = Function.update c.pending taskId (some { task with destFile := file })) :
    SameSchedule c c' := by
  refine ⟨hqueue, fun t => ?_, fun t => ?_⟩
  all_goals
    rw [hpending]
    by_cases ht : t = taskId
    · subst ht
      rw [Function.update_self, h]
      rfl
    · rw [Function.update_of_ne ht]

theorem update_eq_some {f : Int64 → Option TaskPending} {taskId t : Int64} {x : Option TaskPending}
    {task : TaskPending} (h : Function.update f taskId x t = some task) :
    t = taskId ∧ x = some task ∨ t ≠ taskId ∧ f t = some task := by
  by_cases ht : t = taskId
  · subst ht
    rw [Function.update_self] at h
    exact .inl ⟨rfl, h⟩
  · rw [Function.update_of_ne ht] at h
    exact .inr ⟨ht, h⟩

/-- A pause marks the task, if it is scheduled. -/
theorem onTaskPaused_pending (taskId : Int64) (isPaused : Bool) :
    (c.onTaskPaused taskId isPaused).pending =
      Function.update c.pending taskId
        ((c.pending taskId).map fun task => { task with isPaused := isPaused }) := by
  unfold onTaskPaused
  cases h : c.pending taskId with
  | none =>
    have hself := Function.update_eq_self taskId c.pending
    rw [h] at hself
    exact hself.symm
  | some task => rfl

@[simp] theorem onTaskPaused_queue (taskId : Int64) (isPaused : Bool) :
    (c.onTaskPaused taskId isPaused).queue = c.queue := by
  unfold onTaskPaused; split <;> rfl

@[simp] theorem onBlockRequest_pending : c.onBlockRequest.1.pending = c.pending := by
  unfold onBlockRequest
  split
  · rfl
  · split
    · rfl
    · split <;> rfl

@[simp] theorem completeTask_queue (outcome : FileOutcome) (taskId : Int64) :
    (c.completeTask outcome taskId).1.queue = c.queue := by
  unfold completeTask; split <;> rfl

@[simp] theorem completeTask_pending (outcome : FileOutcome) (taskId : Int64) :
    (c.completeTask outcome taskId).1.pending = c.pending := by
  unfold completeTask; split <;> rfl

@[simp] theorem completeTask_blocks (outcome : FileOutcome) (taskId : Int64) :
    (c.completeTask outcome taskId).1.blocks = c.blocks := by
  unfold completeTask; split <;> rfl

@[simp] theorem completeTask_written (outcome : FileOutcome) (taskId : Int64) :
    (c.completeTask outcome taskId).1.written = c.written := by
  unfold completeTask; split <;> rfl

/-- The destination file of a task, as a response finds it. -/
def responseFile (outcome : FileOutcome) (task : TaskPending) : DestFile × Bool :=
  openDestFile outcome (task.destFile.getD { path := task.taskEntity.savedPath })

/-- What a response writes, and whether all of its data is written. -/
def responseData (outcome : FileOutcome) (task : TaskPending) (response : BlockResponseTransfer) :
    List FileWrite × Bool :=
  if (responseFile outcome task).2 then writeData outcome (responseFile outcome task).1.path response
  else ([], false)

/-- The controller once a response has been written, before the rows are updated. -/
def afterWrite (c : BlockScheduleController) (outcome : FileOutcome) (task : TaskPending)
    (response : BlockResponseTransfer) : BlockScheduleController :=
  { c with
    pending := Function.update c.pending response.taskId
      (some { task with destFile := some (responseFile outcome task).1 })
    written := c.written ++ (responseData outcome task response).1 }

/-- A response for a scheduled task and a known block. -/
theorem onBlockResponse_eq (outcome : FileOutcome) {response : BlockResponseTransfer} {task : TaskPending}
    {block : BlockEntity} (htask : c.pending response.taskId = some task)
    (hblock : BlockRepository.getByBlockId c.blocks response.blockId = some block) :
    c.onBlockResponse outcome response =
      if (responseData outcome task response).2 then
        { c.afterWrite outcome task response with
          blocks := BlockRepository.update c.blocks
            { block with state := .completed, endTime := outcome.blockEnd }
        }.completeTask outcome task.taskEntity.taskId
      else ({ c.afterWrite outcome task response with
          blocks := BlockRepository.update c.blocks { block with state := .failed } }, []) := by
  unfold onBlockResponse afterWrite responseData responseFile
  simp only [htask, hblock]
  cases (openDestFile outcome (task.destFile.getD { path := task.taskEntity.savedPath })).2 with
  | false => simp only [Bool.not_false, if_true, List.append_nil, Bool.false_eq_true, if_false]
  | true =>
    simp only [Bool.not_true, Bool.false_eq_true, if_false, if_true]
    split
    · rename_i hfail
      rw [if_neg (by simpa using hfail)]
    · rename_i hdone
      rw [if_pos (by simpa using hdone)]

/-- A response for another task, or an unknown block. -/
theorem onBlockResponse_ignored {outcome : FileOutcome} {response : BlockResponseTransfer}
    (h : c.pending response.taskId = none ∨ BlockRepository.getByBlockId c.blocks response.blockId = none) :
    c.onBlockResponse outcome response = (c, []) := by
  unfold onBlockResponse
  rcases h with h | h
  · rw [h]
  · cases c.pending response.taskId with
    | none => rfl
    | some task => simp only [h]

/-- The response is for a scheduled task and a known block, and all of its data is written. -/
def Writes (c : BlockScheduleController) (outcome : FileOutcome) (response : BlockResponseTransfer) : Prop :=
  ∃ task block, c.pending response.taskId = some task ∧
    BlockRepository.getByBlockId c.blocks response.blockId = some block ∧
    (responseData outcome task response).2 = true

/-- **What a response does**: nothing, or the block fails, or it is completed and the task
is looked at. -/
theorem onBlockResponse_cases (c : BlockScheduleController) (outcome : FileOutcome)
    (response : BlockResponseTransfer) :
    c.onBlockResponse outcome response = (c, []) ∨
      ∃ task block, c.pending response.taskId = some task ∧
        BlockRepository.getByBlockId c.blocks response.blockId = some block ∧
        (c.onBlockResponse outcome response = ({ c.afterWrite outcome task response with
            blocks := BlockRepository.update c.blocks { block with state := .failed } }, []) ∨
          c.Writes outcome response ∧ c.onBlockResponse outcome response =
            { c.afterWrite outcome task response with
              blocks := BlockRepository.update c.blocks
                { block with state := .completed, endTime := outcome.blockEnd }
            }.completeTask outcome task.taskEntity.taskId) := by
  cases htask : c.pending response.taskId with
  | none => exact .inl (onBlockResponse_ignored (.inl htask))
  | some task =>
    cases hblock : BlockRepository.getByBlockId c.blocks response.blockId with
    | none => exact .inl (onBlockResponse_ignored (.inr hblock))
    | some block =>
      refine .inr ⟨task, block, rfl, rfl, ?_⟩
      have heq := onBlockResponse_eq outcome htask hblock
      -- the row is completed when all of the data is written, else failed
      by_cases hdone : (responseData outcome task response).2 = true
      · exact .inr ⟨⟨task, block, htask, hblock, hdone⟩, by rw [heq, if_pos hdone]⟩
      · exact .inl (by rw [heq, if_neg hdone])

/-- Responses leave the schedule alone. -/
theorem onBlockResponse_same (outcome : FileOutcome) (response : BlockResponseTransfer) :
    SameSchedule c (c.onBlockResponse outcome response).1 := by
  obtain h | ⟨task, block, htask, -, h | ⟨-, h⟩⟩ := c.onBlockResponse_cases outcome response
  · rw [h]
    exact .refl c
  · rw [h]
    exact sameSchedule_of_destFile htask rfl rfl
  · rw [h]
    exact sameSchedule_of_destFile htask (by rw [completeTask_queue]; rfl) (by rw [completeTask_pending]; rfl)

/-- What a call other than a response does to the tables and announces: nothing. -/
theorem step_tables {c : BlockScheduleController} {call : ScheduleCall}
    (h : ∀ outcome response, call ≠ .onBlockResponse outcome response) :
    (c.step call).1.blocks = c.blocks ∧ (c.step call).1.tasks = c.tasks ∧
      ∀ taskId, .taskCompleted taskId ∉ (c.step call).2 := by
  cases call with
  | onTaskEnqueue eventSource endpoint taskEntity => exact ⟨rfl, rfl, fun _ => List.not_mem_nil⟩
  | onTaskCancle taskId => exact ⟨rfl, rfl, fun _ => List.not_mem_nil⟩
  | onTaskPaused taskId isPaused =>
    simp only [BlockScheduleController.step, onTaskPaused]
    split <;> exact ⟨rfl, rfl, fun _ => List.not_mem_nil⟩
  | onBlockRequest =>
    simp only [BlockScheduleController.step, onBlockRequest]
    split
    · exact ⟨rfl, rfl, fun _ => List.not_mem_nil⟩
    · split
      · exact ⟨rfl, rfl, fun _ => List.not_mem_nil⟩
      · split <;> exact ⟨rfl, rfl, by simp⟩
  | onBlockResponse outcome response => exact absurd rfl (h outcome response)

/-- A tick announces no task. -/
theorem onBlockRequest_signals (c : BlockScheduleController) :
    c.onBlockRequest.2 = [] ∨ ∃ eventSource endpoint transfer,
      c.onBlockRequest.2 = [.blockRequest eventSource endpoint transfer] := by
  unfold onBlockRequest
  split
  · exact .inl rfl
  · split
    · exact .inl rfl
    · split
      · exact .inl rfl
      · exact .inr ⟨_, _, _, rfl⟩

/-- A response announces one task at most. -/
theorem onBlockResponse_signals (c : BlockScheduleController) (outcome : FileOutcome)
    (response : BlockResponseTransfer) :
    (c.onBlockResponse outcome response).2 = [] ∨
      ∃ taskId, (c.onBlockResponse outcome response).2 = [.taskCompleted taskId] := by
  obtain h | ⟨task, block, -, -, h | ⟨-, h⟩⟩ := c.onBlockResponse_cases outcome response
  · exact .inl (by rw [h])
  · exact .inl (by rw [h])
  · rw [h]
    unfold completeTask
    split
    · exact .inr ⟨_, rfl⟩
    · exact .inl rfl

/-- No call changes the ids of the blocks. -/
theorem step_ids (c : BlockScheduleController) (call : ScheduleCall) :
    (c.step call).1.blocks.map (·.blockId) = c.blocks.map (·.blockId) := by
  by_cases hcall : ∃ outcome response, call = .onBlockResponse outcome response
  · obtain ⟨outcome, response, rfl⟩ := hcall
    rw [step]
    obtain h | ⟨task, block, -, hblock, h | ⟨-, h⟩⟩ := c.onBlockResponse_cases outcome response
    · rw [h]
    · rw [h]
      exact BlockRepository.update_ids
    · rw [h, completeTask_blocks]
      exact BlockRepository.update_ids
  · obtain ⟨hblocks, -, -⟩ := step_tables fun outcome response heq => hcall ⟨outcome, response, heq⟩
    rw [hblocks]

end BlockScheduleController

/-! ## Two blocks -/

/-- Two blocks of task 1, both waiting. -/
def twoBlocks : BlockScheduleController where
  queue := []
  pending := fun _ => none
  blocks := [⟨1, 1, 1, 0, 1, .waiting, 0, 0⟩, ⟨2, 1, 1, 1, 1, .waiting, 0, 0⟩]
  tasks := [{ taskId := 1, fileId := 1, state := .waiting }]
  written := []

/-- A file that opens and takes one byte. -/
def oneByte : FileOutcome := ⟨true, true, true, true, [1], 0, 0⟩

/-- Start task 1. -/
def startTask : ScheduleCall := .onTaskEnqueue ⟨[]⟩ ⟨[], 80⟩ { taskId := 1, fileId := 1, state := .waiting }

end ProjectTrans
