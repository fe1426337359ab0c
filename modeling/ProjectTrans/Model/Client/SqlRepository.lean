import ProjectTrans.Model.Client.Block
import ProjectTrans.Model.Database.SqliteDriver

/-!
# The repositories and their statements (`repository/task_repository`, `block_repository`)

Each operation looks its columns up, makes cells and conditions, has the query build and
run a statement, and decodes the rows by the names of their cells. Results are missing
where a cell has another type than the decoding expects, or a value no enumerator has.
-/

namespace ProjectTrans

/-! ## Columns, cells and times -/

namespace SqlTableItem

variable (table : SqlTableItem)

/-- The cell of a column, by its name. -/
def namedCell (columnName : Text) (data : CellData) : Option SqlCell :=
  (table.getColumnInfo columnName).map fun column => { column.getDefaultCell with data := data }

/-- The condition that a column has a value. -/
def pointCondition (columnName : Text) (value : Int64) : Option SqlConditionItem :=
  (table.getColumnInfo columnName).map fun column =>
    ⟨true, column, some (.range ((RangeCondition.ofPoint value).getIntegerIntervals id)), none⟩

end SqlTableItem

/-- A column that is not null. -/
def SqlColumnItem.plain (columnIndex : Int32) (columnName : Text) (dataType : DataType) : SqlColumnItem :=
  ⟨columnIndex, columnName, dataType, false, true, false, none⟩

/-- A primary key. -/
def SqlColumnItem.key (columnIndex : Int32) (columnName : Text) : SqlColumnItem :=
  ⟨columnIndex, columnName, .int64, true, true, true, none⟩

/-- `to_time_ms`, of nanoseconds. -/
def toTimeMs (time : Int64) : Int64 := time / 1000000

/-- `from_time_ms`. -/
def fromTimeMs (time : Int64) : Int64 := time * 1000000

/-! ## Enumerations -/

def BlockState.toInt64 : BlockState → Int64
  | completed => 0
  | failed => 1
  | inTransfer => 2
  | waiting => 3
  | unknown => 4

def BlockState.ofInt64 (v : Int64) : Option BlockState :=
  [BlockState.completed, .failed, .inTransfer, .waiting, .unknown].find? fun state => state.toInt64 = v

def TaskState.toInt64 : TaskState → Int64
  | completed => 0
  | failed => 1
  | inTransfer => 2
  | waiting => 3
  | unknown => 4

def TaskState.ofInt64 (v : Int64) : Option TaskState :=
  [TaskState.completed, .failed, .inTransfer, .waiting, .unknown].find? fun state => state.toInt64 = v

def Operation.toInt64 : Operation → Int64
  | unknown => 0
  | download => 1
  | upload => 2

def Operation.ofInt64 (v : Int64) : Option Operation :=
  [Operation.unknown, .download, .upload].find? fun operation => operation.toInt64 = v

/-! ## The repository of tasks -/

/-- `TaskRepository`; the table and the query are the same in all that are initialised. -/
structure SqlTaskRepository where
  isInit : Bool := false
  deriving DecidableEq

namespace SqlTaskRepository

/-- The table that `init` describes. -/
def table : SqlTableItem where
  tableName := "task".toList
  columnItems :=
    [.key 0 "task_id".toList, .plain 1 "file_id".toList .int64, .plain 2 "saved_path".toList .string,
      .plain 3 "source_url".toList .string, .plain 4 "operation".toList .int64, .plain 5 "state".toList .int64,
      .plain 6 "start_time".toList .int64, .plain 7 "end_time".toList .int64]
  isUnique := true

def tableQuery : SqlTableQuery := ⟨some table, some ⟨.default⟩, true⟩

/-- The cells of all columns but the id. -/
def cells (task : TaskEntity) : Option (List SqlCell) :=
  [("file_id".toList, .int64 task.fileId), ("saved_path".toList, .string task.savedPath),
    ("source_url".toList, .string task.sourceUrl), ("operation".toList, .int64 task.operation.toInt64),
    ("state".toList, .int64 task.state.toInt64), ("start_time".toList, .int64 (toTimeMs task.startTime)),
    ("end_time".toList, CellData.int64 (toTimeMs task.endTime))].mapM fun c => table.namedCell c.1 c.2

/-- What a cell of a row sets. -/
def setField (task : TaskEntity) (cell : SqlCell) : Option TaskEntity :=
  if cell.columnName = "task_id".toList then cell.data.getInt64.map fun v => { task with taskId := v }
  else if cell.columnName = "file_id".toList then cell.data.getInt64.map fun v => { task with fileId := v }
  else if cell.columnName = "saved_path".toList then cell.data.getString.map fun v => { task with savedPath := v }
  else if cell.columnName = "source_url".toList then cell.data.getString.map fun v => { task with sourceUrl := v }
  else if cell.columnName = "operation".toList then do
    let operation ← Operation.ofInt64 (← cell.data.getInt64)
    return { task with operation := operation }
  else if cell.columnName = "state".toList then do
    let state ← TaskState.ofInt64 (← cell.data.getInt64)
    return { task with state := state }
  else if cell.columnName = "start_time".toList then
    cell.data.getInt64.map fun v => { task with startTime := fromTimeMs v }
  else if cell.columnName = "end_time".toList then
    cell.data.getInt64.map fun v => { task with endTime := fromTimeMs v }
  else some task

/-- `from_query_data`. -/
def fromQueryData (data : List (List SqlCell)) : Option (List TaskEntity) :=
  -- the state has no initial value
  data.mapM fun row => row.foldlM setField { state := .unknown }

variable (widen : UInt32 → UInt64) (owned : Bool) (r : SqlTaskRepository) (db : Sql.Database)
  (choice : Sql.Choice)

/-- `init`. -/
def init : Option (SqlTaskRepository × Sql.Database) :=
  if r.isInit then some (r, db)
  else do
    let (db, created) ← SqlTableQuery.command widen owned db choice tableQuery.create
    return (⟨created⟩, db)

/-- `add`. -/
def add (task : TaskEntity) : Option (Sql.Database × Bool) :=
  if !r.isInit then some (db, false)
  else if task.taskId ≤ 0 then some (db, false)
  else
    match table.namedCell "task_id".toList (.int64 task.taskId), cells task with
    | some taskId, some cells => SqlTableQuery.command widen owned db choice (tableQuery.insert (taskId :: cells))
    | _, _ => some (db, false)

/-- `update`. -/
def update (task : TaskEntity) : Option (Sql.Database × Bool) :=
  if !r.isInit then some (db, false)
  else
    match table.pointCondition "task_id".toList task.taskId, cells task with
    | some condition, some cells =>
      SqlTableQuery.command widen owned db choice (tableQuery.update cells [condition])
    | _, _ => some (db, false)

/-- `remove`. -/
def remove (taskId : Int64) : Option (Sql.Database × Bool) :=
  if !r.isInit then some (db, false)
  else
    match table.pointCondition "task_id".toList taskId with
    | some condition => SqlTableQuery.command widen owned db choice (tableQuery.remove [condition])
    | none => some (db, false)

/-- The entities that satisfy conditions. -/
def selectWhere (conditions : List SqlConditionItem) : Option (Sql.Database × List TaskEntity) := do
  let (db, data) ← SqlTableQuery.query widen owned db choice (tableQuery.select table.columnItems conditions)
  let tasks ← fromQueryData data
  return (db, tasks)

/-- `get_all`. -/
def getAll : Option (Sql.Database × List TaskEntity) :=
  if !r.isInit then some (db, []) else selectWhere widen owned db choice []

/-- `get_by_task_id`. -/
def getByTaskId (taskId : Int64) : Option (Sql.Database × Option TaskEntity) :=
  if !r.isInit then some (db, none)
  else
    match table.pointCondition "task_id".toList taskId with
    | some condition => (selectWhere widen owned db choice [condition]).map fun result =>
      (result.1, result.2.head?)
    | none => some (db, none)

/-- `get_by_file_id`. -/
def getByFileId (fileId : Int64) : Option (Sql.Database × List TaskEntity) :=
  if !r.isInit then some (db, [])
  else
    match table.pointCondition "file_id".toList fileId with
    | some condition => selectWhere widen owned db choice [condition]
    | none => some (db, [])

/-- `get_all_count`. -/
def getAllCount : Option (Sql.Database × Int64) :=
  if !r.isInit then some (db, -1)
  else SqlTableQuery.queryCount widen owned db choice (tableQuery.count [])

/-- `get_max_task_id`. -/
def getMaxTaskId : Option (Sql.Database × Int64) :=
  if !r.isInit then some (db, -1)
  else do
    let sql := "SELECT COALESCE(MAX(task_id), 0) FROM task;".toList
    match ← SqliteDriver.executeQuery widen owned db choice (.prepare sql) with
    | (db, (cell :: _) :: _) => return (db, ← cell.data.getInt64)
    | (db, _) => return (db, -1)

end SqlTaskRepository

/-! ## The repository of blocks -/

/-- `BlockRepository`. -/
structure SqlBlockRepository where
  isInit : Bool := false
  deriving DecidableEq

namespace SqlBlockRepository

/-- The table that `init` describes. -/
def table : SqlTableItem where
  tableName := "block".toList
  columnItems :=
    [.key 0 "block_id".toList, .plain 1 "task_id".toList .int64, .plain 2 "file_id".toList .int64,
      .plain 3 "offset".toList .int64, .plain 4 "block_size".toList .int64, .plain 5 "state".toList .int64,
      .plain 6 "start_time".toList .int64, .plain 7 "end_time".toList .int64]
  isUnique := true

def tableQuery : SqlTableQuery := ⟨some table, some ⟨.default⟩, true⟩

/-- The cells of all columns but the id. -/
def cells (block : BlockEntity) : Option (List SqlCell) :=
  [("task_id".toList, block.taskId), ("file_id".toList, block.fileId), ("offset".toList, block.offset),
    ("block_size".toList, block.blockSize), ("state".toList, block.state.toInt64),
    ("start_time".toList, toTimeMs block.startTime), ("end_time".toList, toTimeMs block.endTime)].mapM fun c =>
      table.namedCell c.1 (.int64 c.2)

/-- What a cell of a row sets. -/
def setField (block : BlockEntity) (cell : SqlCell) : Option BlockEntity :=
  if cell.columnName = "block_id".toList then cell.data.getInt64.map fun v => { block with blockId := v }
  else if cell.columnName = "task_id".toList then cell.data.getInt64.map fun v => { block with taskId := v }
  else if cell.columnName = "file_id".toList then cell.data.getInt64.map fun v => { block with fileId := v }
  else if cell.columnName = "offset".toList then cell.data.getInt64.map fun v => { block with offset := v }
  else if cell.columnName = "block_size".toList then cell.data.getInt64.map fun v => { block with blockSize := v }
  else if cell.columnName = "state".toList then do
    let state ← BlockState.ofInt64 (← cell.data.getInt64)
    return { block with state := state }
  else if cell.columnName = "start_time".toList then
    cell.data.getInt64.map fun v => { block with startTime := fromTimeMs v }
  else if cell.columnName = "end_time".toList then
    cell.data.getInt64.map fun v => { block with endTime := fromTimeMs v }
  else some block

/-- `from_query_data`. -/
def fromQueryData (data : List (List SqlCell)) : Option (List BlockEntity) :=
  -- offset, size and state have no initial values
  data.mapM fun row => row.foldlM setField { offset := 0, blockSize := 0, state := .unknown }

variable (widen : UInt32 → UInt64) (owned : Bool) (r : SqlBlockRepository) (db : Sql.Database)
  (choice : Sql.Choice)

/-- `init`. -/
def init : Option (SqlBlockRepository × Sql.Database) :=
  if r.isInit then some (r, db)
  else do
    let (db, created) ← SqlTableQuery.command widen owned db choice tableQuery.create
    return (⟨created⟩, db)

/-- `add`: the database gives the id. -/
def add (block : BlockEntity) : Option (Sql.Database × Bool) :=
  if !r.isInit then some (db, false)
  else
    match cells block with
    | some cells => SqlTableQuery.command widen owned db choice (tableQuery.insert cells)
    | none => some (db, false)

/-- `update`. -/
def update (block : BlockEntity) : Option (Sql.Database × Bool) :=
  if !r.isInit then some (db, false)
  else
    match table.pointCondition "block_id".toList block.blockId, cells block with
    | some condition, some cells =>
      SqlTableQuery.command widen owned db choice (tableQuery.update cells [condition])
    | _, _ => some (db, false)

/-- `remove`. -/
def remove (blockId : Int64) : Option (Sql.Database × Bool) :=
  if !r.isInit then some (db, false)
  else
    match table.pointCondition "block_id".toList blockId with
    | some condition => SqlTableQuery.command widen owned db choice (tableQuery.remove [condition])
    | none => some (db, false)

/-- The entities that satisfy conditions. -/
def selectWhere (conditions : List SqlConditionItem) : Option (Sql.Database × List BlockEntity) := do
  let (db, data) ← SqlTableQuery.query widen owned db choice (tableQuery.select table.columnItems conditions)
  let blocks ← fromQueryData data
  return (db, blocks)

/-- `get_all`. -/
def getAll : Option (Sql.Database × List BlockEntity) :=
  if !r.isInit then some (db, []) else selectWhere widen owned db choice []

/-- `get_by_task_id`. -/
def getByTaskId (taskId : Int64) : Option (Sql.Database × List BlockEntity) :=
  if !r.isInit then some (db, [])
  else
    match table.pointCondition "task_id".toList taskId with
    | some condition => selectWhere widen owned db choice [condition]
    | none => some (db, [])

/-- `get_by_block_id`. -/
def getByBlockId (blockId : Int64) : Option (Sql.Database × Option BlockEntity) :=
  if !r.isInit then some (db, none)
  else
    match table.pointCondition "block_id".toList blockId with
    | some condition => (selectWhere widen owned db choice [condition]).map fun result =>
      (result.1, result.2.head?)
    | none => some (db, none)

/-- `get_by_task_id_and_block_state`. -/
def getByTaskIdAndBlockState (taskId : Int64) (state : BlockState) : Option (Sql.Database × List BlockEntity) :=
  if !r.isInit then some (db, [])
  else
    match table.pointCondition "task_id".toList taskId, table.pointCondition "state".toList state.toInt64 with
    | some taskId, some state => selectWhere widen owned db choice [taskId, state]
    | _, _ => some (db, [])

/-- `get_count_by_task_id_and_block_state`. -/
def getCountByTaskIdAndBlockState (taskId : Int64) (state : BlockState) : Option (Sql.Database × Int64) :=
  if !r.isInit then some (db, 0)
  else
    match table.pointCondition "task_id".toList taskId, table.pointCondition "state".toList state.toInt64 with
    | some taskId, some state => SqlTableQuery.queryCount widen owned db choice (tableQuery.count [taskId, state])
    | _, _ => some (db, 0)

end SqlBlockRepository

end ProjectTrans
