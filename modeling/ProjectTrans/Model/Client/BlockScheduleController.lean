import ProjectTrans.Model.Client.Block

/-!
# Scheduling blocks (`controller/block_schedule_controller`)

One queue of block requests for all tasks, and a map of the tasks that are scheduled. A
timer takes requests off the queue; responses are written to the destination file and
noted in the block table. The slots run one after another on one thread, so the
controller is a machine with one step for each call.
-/

namespace ProjectTrans

open Wire

/-- `EventContext`. -/
structure EventContext where
  objectName : Bytes
  deriving DecidableEq, Repr

/-- `NetworkEndpoint`. -/
structure NetworkEndpoint where
  ip : Bytes
  port : UInt16
  deriving DecidableEq, Repr

/-- A destination file. -/
structure DestFile where
  path : Bytes
  isOpen : Bool := false
  deriving DecidableEq, Repr

/-- `TaskPending`. -/
structure TaskPending where
  isPaused : Bool := false
  eventSource : EventContext
  endpoint : NetworkEndpoint
  taskEntity : TaskEntity
  destFile : Option DestFile := none
  deriving DecidableEq, Repr

/-- Bytes written to a file. -/
structure FileWrite where
  path : Bytes
  offset : ℤ
  data : Bytes
  deriving DecidableEq, Repr

/-- `BlockScheduleController`, the tables behind its services, and what has been written. -/
structure BlockScheduleController where
  queue : List BlockRequestTransfer
  pending : Int64 → Option TaskPending
  blocks : List BlockEntity
  tasks : List TaskEntity
  written : List FileWrite

/-- The calls of its slots; a response comes with the behaviour of files and clock. -/
structure FileOutcome where
  dirExists : Bool
  mkpath : Bool
  opens : Bool
  seeks : Bool
  /-- What the writes return, one after another; those after the last one fail. -/
  writes : List Int64
  blockEnd : Int64
  taskEnd : Int64
  deriving DecidableEq, Repr

inductive ScheduleCall
  | onTaskEnqueue (eventSource : EventContext) (endpoint : NetworkEndpoint) (taskEntity : TaskEntity)
  | onTaskCancle (taskId : Int64)
  | onTaskPaused (taskId : Int64) (isPaused : Bool)
  | onBlockRequest
  | onBlockResponse (outcome : FileOutcome) (response : BlockResponseTransfer)
  deriving DecidableEq, Repr

/-- What the controller emits. -/
inductive ScheduleSignal
  | blockRequest (eventSource : EventContext) (endpoint : NetworkEndpoint) (transfer : BlockRequestTransfer)
  | taskCompleted (taskId : Int64)
  deriving DecidableEq, Repr

/-- The request for a block. -/
def BlockRequestTransfer.ofBlock (block : BlockEntity) : BlockRequestTransfer :=
  ⟨block.blockId, block.fileId, block.taskId, block.offset, block.blockSize⟩

namespace BlockScheduleController

variable (c : BlockScheduleController)

/-- `on_task_enqueue`. -/
def onTaskEnqueue (eventSource : EventContext) (endpoint : NetworkEndpoint) (taskEntity : TaskEntity) :
    BlockScheduleController :=
  { c with
    pending := Function.update c.pending taskEntity.taskId
      (some { endpoint := endpoint, eventSource := eventSource, taskEntity := taskEntity })
    queue := c.queue ++ (BlockRepository.getByTaskId c.blocks taskEntity.taskId).map .ofBlock }

/-- `on_task_cancle`. -/
def onTaskCancle (taskId : Int64) : BlockScheduleController :=
  { c with pending := Function.update c.pending taskId none }

/-- `on_task_paused`. -/
def onTaskPaused (taskId : Int64) (isPaused : Bool) : BlockScheduleController :=
  match c.pending taskId with
  | none => c
  | some task => { c with pending := Function.update c.pending taskId (some { task with isPaused := isPaused }) }

/-- `on_block_request`. -/
def onBlockRequest : BlockScheduleController × List ScheduleSignal :=
  match c.queue with
  | [] => (c, [])
  | transfer :: queue =>
    match c.pending transfer.taskId with
    | none => ({ c with queue := queue }, [])
    | some task =>
      if task.isPaused then ({ c with queue := queue ++ [transfer] }, [])
      else ({ c with queue := queue }, [.blockRequest task.eventSource task.endpoint transfer])

/-- Open the destination file unless it is open. -/
def openDestFile (outcome : FileOutcome) (file : DestFile) : DestFile × Bool :=
  if file.isOpen then (file, true)
  else if !outcome.dirExists && !outcome.mkpath then (file, false)
  else if outcome.opens then ({ file with isOpen := true }, true)
  else (file, false)

/-- The loop that writes the data: what is written, and whether all of it is. -/
def writeLoop (path : Bytes) (response : BlockResponseTransfer) : ℤ → ℤ → List Int64 → List FileWrite × Bool
  | restBytes, hasWrite, results =>
    if restBytes ≤ 0 then ([], true)
    else
      match results with
      | [] => ([], false)
      | bytesWritten :: results =>
        if bytesWritten < 0 then ([], false)
        else
          let n := bytesWritten.toInt
          let rest := writeLoop path response (restBytes - n) (hasWrite + n) results
          (⟨path, response.offset.toInt + hasWrite, (response.data.drop hasWrite.toNat).take n.toNat⟩ :: rest.1,
            rest.2)
  termination_by structural _ _ results => results

/-- Seek, check the size of the data, and write it. -/
def writeData (outcome : FileOutcome) (path : Bytes) (response : BlockResponseTransfer) : List FileWrite × Bool :=
  if !outcome.seeks then ([], false)
  else if response.blockSize.toUInt64.toNat > response.data.length then ([], false)
  else writeLoop path response response.blockSize.toInt 0 outcome.writes

/-- What follows once the block is completed: a task with no block left to wait for is completed. -/
def completeTask (outcome : FileOutcome) (taskId : Int64) : BlockScheduleController × List ScheduleSignal :=
  if BlockRepository.getCountByTaskIdAndBlockState c.blocks taskId .waiting = 0 then
    let tasks :=
      match TaskRepository.getByTaskId c.tasks taskId with
      | some task => TaskRepository.update c.tasks { task with endTime := outcome.taskEnd, state := .completed }
      | none => c.tasks
    ({ c with tasks := tasks }, [.taskCompleted taskId])
  else (c, [])

/-- `on_block_response`. -/
def onBlockResponse (outcome : FileOutcome) (response : BlockResponseTransfer) :
    BlockScheduleController × List ScheduleSignal :=
  match c.pending response.taskId with
  | none => (c, [])
  | some task =>
    match BlockRepository.getByBlockId c.blocks response.blockId with
    | none => (c, [])
    | some block =>
      let opened := openDestFile outcome (task.destFile.getD { path := task.taskEntity.savedPath })
      let c := { c with
        pending := Function.update c.pending response.taskId (some { task with destFile := some opened.1 }) }
      if !opened.2 then ({ c with blocks := BlockRepository.update c.blocks { block with state := .failed } }, [])
      else
        let data := writeData outcome opened.1.path response
        let c := { c with written := c.written ++ data.1 }
        if !data.2 then ({ c with blocks := BlockRepository.update c.blocks { block with state := .failed } }, [])
        else
          { c with
            blocks := BlockRepository.update c.blocks
              { block with state := .completed, endTime := outcome.blockEnd }
          }.completeTask outcome task.taskEntity.taskId

/-- One call. -/
def step : ScheduleCall → BlockScheduleController × List ScheduleSignal
  | .onTaskEnqueue eventSource endpoint taskEntity => (c.onTaskEnqueue eventSource endpoint taskEntity, [])
  | .onTaskCancle taskId => (c.onTaskCancle taskId, [])
  | .onTaskPaused taskId isPaused => (c.onTaskPaused taskId isPaused, [])
  | .onBlockRequest => c.onBlockRequest
  | .onBlockResponse outcome response => c.onBlockResponse outcome response

end BlockScheduleController

end ProjectTrans
