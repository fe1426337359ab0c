import ProjectTrans.Model.Protocol.Transfer

/-!
# Blocks and tasks (`model/entity`, `repository`, `service`)

The rows the client keeps, and what its repositories do with them when SQLite runs their
statements with their SQL meaning. Times are time points at the precision that the rows
keep.
-/

namespace ProjectTrans

open Wire

/-- `BlockState`. -/
inductive BlockState
  | completed
  | failed
  | inTransfer
  | waiting
  | unknown
  deriving DecidableEq, Repr

/-- `BlockEntity`. -/
structure BlockEntity where
  blockId : Int64 := -1
  taskId : Int64 := -1
  fileId : Int64 := -1
  offset : Int64
  blockSize : Int64
  state : BlockState
  startTime : Int64 := 0
  endTime : Int64 := 0
  deriving DecidableEq, Repr

/-- `TaskState`. -/
inductive TaskState
  | completed
  | failed
  | inTransfer
  | waiting
  | unknown
  deriving DecidableEq, Repr

/-- `Operation`. -/
inductive Operation
  | unknown
  | download
  | upload
  deriving DecidableEq, Repr

/-- `TaskEntity`. -/
structure TaskEntity where
  taskId : Int64 := -1
  fileId : Int64 := -1
  savedPath : Bytes := []
  sourceUrl : Bytes := []
  operation : Operation := .unknown
  state : TaskState
  startTime : Int64 := 0
  endTime : Int64 := 0
  deriving DecidableEq, Repr

/-! ## Repositories -/

namespace BlockRepository

variable (rows : List BlockEntity)

/-- `get_by_task_id`. -/
def getByTaskId (taskId : Int64) : List BlockEntity := rows.filter fun row => row.taskId = taskId

/-- `get_by_block_id`. -/
def getByBlockId (blockId : Int64) : Option BlockEntity := rows.find? fun row => row.blockId = blockId

/-- `get_by_task_id_and_block_state`. -/
def getByTaskIdAndBlockState (taskId : Int64) (state : BlockState) : List BlockEntity :=
  rows.filter fun row => row.taskId = taskId ∧ row.state = state

/-- `get_count_by_task_id_and_block_state`. -/
def getCountByTaskIdAndBlockState (taskId : Int64) (state : BlockState) : ℕ :=
  (getByTaskIdAndBlockState rows taskId state).length

/-- `add`; `assigned` is the id the database gives the row, none when the insert fails. -/
def add (block : BlockEntity) (assigned : Option Int64) : List BlockEntity × Bool :=
  match assigned with
  | some blockId => (rows ++ [{ block with blockId := blockId }], true)
  | none => (rows, false)

/-- `update`. -/
def update (block : BlockEntity) : List BlockEntity :=
  rows.map fun row => if row.blockId = block.blockId then block else row

end BlockRepository

namespace TaskRepository

variable (rows : List TaskEntity)

/-- `get_by_task_id`. -/
def getByTaskId (taskId : Int64) : Option TaskEntity := rows.find? fun row => row.taskId = taskId

/-- `update`. -/
def update (task : TaskEntity) : List TaskEntity :=
  rows.map fun row => if row.taskId = task.taskId then task else row

end TaskRepository

/-! ## Cutting a file into blocks -/

/-- A signed sum, if it fits. -/
def addInt64 (a b : Int64) : Option Int64 :=
  if -2 ^ 63 ≤ a.toInt + b.toInt ∧ a.toInt + b.toInt < 2 ^ 63 then some (a + b) else none

/-- A signed difference, if it fits. -/
def subInt64 (a b : Int64) : Option Int64 :=
  if -2 ^ 63 ≤ a.toInt - b.toInt ∧ a.toInt - b.toInt < 2 ^ 63 then some (a - b) else none

/-- `ClientFileEntity`, as far as blocks are concerned. -/
structure ClientFileEntity where
  fileId : Int64
  fileSize : Int64
  deriving DecidableEq, Repr

/-- `BlockParam`. -/
structure BlockParam where
  blockBytes : Int64 := 134217728
  deriving DecidableEq, Repr

/-- How the call ends: the table and what is returned, or a signed overflow. -/
inductive AddResult
  | returns (rows : List BlockEntity) (succeeded : Bool)
  | overflow
  deriving DecidableEq, Repr

namespace BlockService

/-- The loop of `add`. `assigned` is what the database makes of the inserts, one after
another; without fuel the call has not returned. -/
def addLoop (file : ClientFileEntity) (taskId : Int64) (param : BlockParam) :
    ℕ → (ℕ → Option Int64) → Int64 → List BlockEntity → Option AddResult
  | 0, _, _, _ => none
  | fuel + 1, assigned, offset, rows =>
    if offset < file.fileSize then
      match subInt64 file.fileSize offset with
      | none => some .overflow
      | some rest =>
        let block : BlockEntity :=
          { fileId := file.fileId
            offset := offset
            blockSize := if rest ≥ param.blockBytes then param.blockBytes else rest
            taskId := taskId
            state := .waiting }
        match addInt64 offset block.blockSize with
        | none => some .overflow
        | some offset =>
          match BlockRepository.add rows block (assigned 0) with
          | (rows, true) => addLoop file taskId param fuel (fun k => assigned (k + 1)) offset rows
          | (rows, false) => some (.returns rows false)
    else some (.returns rows true)

/-- `add` of the blocks of a file. -/
def add (fuel : ℕ) (assigned : ℕ → Option Int64) (rows : List BlockEntity) (file : ClientFileEntity)
    (taskId : Int64) (param : BlockParam) : Option AddResult :=
  addLoop file taskId param fuel assigned 0 rows

end BlockService

end ProjectTrans
