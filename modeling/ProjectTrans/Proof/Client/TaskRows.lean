import ProjectTrans.Model.Client.SqlRepository
import ProjectTrans.Lib.Table
import ProjectTrans.Proof.Client.TaskIds
import ProjectTrans.Proof.Database.Execution
import ProjectTrans.Proof.Database.Storage

/-!
# Entities as rows

The tables of the repositories keep codes of entities, from which the decoding gives the
entities back as long as they are storable: texts without a zero byte, times of whole
milliseconds. On such tables the statements of a repository do what `TaskRepository` and
`BlockRepository` say of lists of entities.
-/

namespace ProjectTrans

open Sql (Value)

/-! ## Times and enumerations -/

/-- A time of whole milliseconds. -/
def WholeMs (time : Int64) : Prop := (1000000 : ℤ) ∣ time.toInt

instance (time : Int64) : Decidable (WholeMs time) := inferInstanceAs (Decidable (_ ∣ _))

theorem fromTimeMs_toTimeMs {time : Int64} (h : WholeMs time) : fromTimeMs (toTimeMs time) = time := by
  obtain ⟨k, hk⟩ := h
  have hlow := time.le_toInt
  have hhigh := time.toInt_lt
  have hdiv : time.toInt.tdiv 1000000 = k := by
    rw [hk]
    exact Int.mul_tdiv_cancel_left k (by decide)
  have hms : (toTimeMs time).toInt = k := by
    show (time / 1000000).toInt = k
    rw [Int64.toInt_div]
    show (time.toInt.tdiv 1000000).bmod (2 ^ 64) = k
    rw [hdiv]
    exact Int.bmod_eq_of_le (by omega) (by omega)
  refine Int64.toInt_inj.1 ?_
  show ((toTimeMs time) * 1000000).toInt = time.toInt
  rw [Int64.toInt_mul, hms]
  show (k * 1000000).bmod (2 ^ 64) = time.toInt
  rw [Int.bmod_eq_of_le (by omega) (by omega), hk]
  exact Int.mul_comm k 1000000

theorem Operation.ofInt64_toInt64 (operation : Operation) : ofInt64 operation.toInt64 = some operation := by
  cases operation <;> decide

theorem TaskState.ofInt64_toInt64 (state : TaskState) : ofInt64 state.toInt64 = some state := by
  cases state <;> decide

theorem BlockState.ofInt64_toInt64 (state : BlockState) : ofInt64 state.toInt64 = some state := by
  cases state <;> decide

theorem BlockState.toInt64_inj {state state' : BlockState} : state.toInt64 = state'.toInt64 ↔ state = state' := by
  cases state <;> cases state' <;> decide

/-! ## Tasks -/

/-- What a row keeps of a task. -/
structure TaskEntity.Storable (task : TaskEntity) : Prop where
  savedPath : 0 ∉ task.savedPath
  sourceUrl : 0 ∉ task.sourceUrl
  startTime : WholeMs task.startTime
  endTime : WholeMs task.endTime

namespace SqlTaskRepository

/-- The values of all columns but the id. -/
def values (task : TaskEntity) : List Value :=
  [.integer task.fileId, .text task.savedPath, .text task.sourceUrl, .integer task.operation.toInt64,
    .integer task.state.toInt64, .integer (toTimeMs task.startTime), .integer (toTimeMs task.endTime)]

/-- The row of a task. -/
def encode (task : TaskEntity) : Sql.Row := .integer task.taskId :: values task

/-- Tasks under their ids. -/
def coding : Sql.Coding TaskEntity where
  columns := table.sqlColumns
  keyName := "task_id".toList
  key := (·.taskId)
  encode := encode
  admits := fun _ => rfl
  keyed := fun _ => rfl
  hasKey := by decide +kernel
  unique := by decide +kernel
  notNull := fun c hc task => Sql.exists_cell hc (Nat.le_refl 8) (by simp [encode, values])

/-- What a row sets, field by field. -/
theorem foldlM_setField (task : TaskEntity) :
    (List.zipWith SqliteDriver.columnCell table.columnNames (encode task)).foldlM setField { state := .unknown } =
      some { task with
        savedPath := cString task.savedPath
        sourceUrl := cString task.sourceUrl
        startTime := fromTimeMs (toTimeMs task.startTime)
        endTime := fromTimeMs (toTimeMs task.endTime) } := by
  have hcells : List.zipWith SqliteDriver.columnCell table.columnNames (encode task) =
      [SqliteDriver.columnCell "task_id".toList (.integer task.taskId),
        SqliteDriver.columnCell "file_id".toList (.integer task.fileId),
        SqliteDriver.columnCell "saved_path".toList (.text task.savedPath),
        SqliteDriver.columnCell "source_url".toList (.text task.sourceUrl),
        SqliteDriver.columnCell "operation".toList (.integer task.operation.toInt64),
        SqliteDriver.columnCell "state".toList (.integer task.state.toInt64),
        SqliteDriver.columnCell "start_time".toList (.integer (toTimeMs task.startTime)),
        SqliteDriver.columnCell "end_time".toList (.integer (toTimeMs task.endTime))] := rfl
  -- the two enumerations come back from their numbers; the other fields by evaluation
  have hoperation : ∀ t : TaskEntity, setField t (SqliteDriver.columnCell "operation".toList
      (.integer task.operation.toInt64)) = some { t with operation := task.operation } := by
    intro t
    show (Operation.ofInt64 task.operation.toInt64).bind _ = _
    rw [Operation.ofInt64_toInt64]
    rfl
  have hstate : ∀ t : TaskEntity, setField t (SqliteDriver.columnCell "state".toList
      (.integer task.state.toInt64)) = some { t with state := task.state } := by
    intro t
    show (TaskState.ofInt64 task.state.toInt64).bind _ = _
    rw [TaskState.ofInt64_toInt64]
    rfl
  have htaskId : ∀ (t : TaskEntity) v, setField t (SqliteDriver.columnCell "task_id".toList (.integer v)) =
    some { t with taskId := v } := fun _ _ => rfl
  have hfileId : ∀ (t : TaskEntity) v, setField t (SqliteDriver.columnCell "file_id".toList (.integer v)) =
    some { t with fileId := v } := fun _ _ => rfl
  have hsavedPath : ∀ (t : TaskEntity) v, setField t (SqliteDriver.columnCell "saved_path".toList (.text v)) =
    some { t with savedPath := cString v } := fun _ _ => rfl
  have hsourceUrl : ∀ (t : TaskEntity) v, setField t (SqliteDriver.columnCell "source_url".toList (.text v)) =
    some { t with sourceUrl := cString v } := fun _ _ => rfl
  have hstartTime : ∀ (t : TaskEntity) v, setField t (SqliteDriver.columnCell "start_time".toList (.integer v)) =
    some { t with startTime := fromTimeMs v } := fun _ _ => rfl
  have hendTime : ∀ (t : TaskEntity) v, setField t (SqliteDriver.columnCell "end_time".toList (.integer v)) =
    some { t with endTime := fromTimeMs v } := fun _ _ => rfl
  rw [hcells]
  simp only [List.foldlM_cons, List.foldlM_nil, Option.bind_eq_bind, Option.bind_some, htaskId, hfileId,
    hsavedPath, hsourceUrl, hoperation, hstate, hstartTime, hendTime]
  rfl

/-- **Decoding** the rows of storable tasks gives the tasks. -/
theorem fromQueryData_encode {tasks : List TaskEntity} (h : ∀ task ∈ tasks, task.Storable) :
    fromQueryData (SqliteDriver.queryCells table.columnNames (tasks.map encode)) = some tasks := by
  have hrow : ∀ task ∈ tasks,
      (List.zipWith SqliteDriver.columnCell table.columnNames (encode task)).foldlM setField
      { state := .unknown } = some (id task) := by
    intro task htask
    rw [foldlM_setField, cString_eq_self_iff.2 (h task htask).savedPath,
      cString_eq_self_iff.2 (h task htask).sourceUrl, fromTimeMs_toTimeMs (h task htask).startTime,
      fromTimeMs_toTimeMs (h task htask).endTime]
    rfl
  rw [SqliteDriver.queryCells, List.map_map]
  exact (Sql.mapM_map hrow).trans (congrArg some (List.map_id tasks))

/-! ### Statements -/

/-- The column of the id. -/
def idColumn : SqlColumnItem := .key 0 "task_id".toList

/-- The cells of all columns but the id. -/
def payload (task : TaskEntity) : List SqlCell :=
  [⟨.int64, .int64 task.fileId, "file_id".toList⟩, ⟨.string, .string task.savedPath, "saved_path".toList⟩,
    ⟨.string, .string task.sourceUrl, "source_url".toList⟩, ⟨.int64, .int64 task.operation.toInt64,
      "operation".toList⟩,
    ⟨.int64, .int64 task.state.toInt64, "state".toList⟩,
    ⟨.int64, .int64 (toTimeMs task.startTime), "start_time".toList⟩,
    ⟨.int64, .int64 (toTimeMs task.endTime), "end_time".toList⟩]

theorem getDestColumns_payload (task : TaskEntity) :
    SqlTableQuery.getDestColumns table (payload task) = table.columnItems.tail := rfl

theorem hasColumnName_payload {task : TaskEntity} :
    ∀ cell ∈ payload task, table.hasColumnName cell.columnName = true :=
  SqlTableItem.hasColumnName_of_names rfl

theorem mapM_payload (widen : UInt32 → UInt64) (owned : Bool) {task : TaskEntity} (h : task.Storable) :
    (payload task).mapM (SqliteDriver.boundValue widen owned) = some (values task) := by
  have hbound : (payload task).mapM (SqliteDriver.boundValue widen owned) =
      some (values { task with savedPath := cString task.savedPath, sourceUrl := cString task.sourceUrl }) := rfl
  rw [hbound, cString_eq_self_iff.2 h.savedPath, cString_eq_self_iff.2 h.sourceUrl]

theorem table_named : table.Named := by decide +kernel

theorem asks_id : table.Asks idColumn := table_named.asks List.mem_cons_self rfl

theorem columnItems_ne_nil : table.columnItems ≠ [] := List.cons_ne_nil _ _

theorem tail_ne_nil : table.columnItems.tail ≠ [] := List.cons_ne_nil _ _

section Operations

variable (widen : UInt32 → UInt64) (owned : Bool) {db : Sql.Database} (choice : Sql.Choice)
  {tasks : List TaskEntity}
  (hdb : db table.tableName = some (coding.table tasks)) (hkeys : (tasks.map (·.taskId)).Nodup)

/-- The rows of an id are selected by its two comparisons. -/
theorem selects_id (tasks : List TaskEntity) (taskId : Int64) :
    ∀ task ∈ tasks, Sql.selects coding.columns (Sql.conditionExpr (pointNames [(idColumn, taskId)]))
      (pointValues [(idColumn, taskId)]) (coding.encode task) = some (decide (task.taskId = taskId)) :=
  fun task _ => Sql.selects_between (coding.keyed task) taskId

include hdb

include hkeys in
/-- **`add`** adds the row. -/
theorem add_eq {task : TaskEntity} (htask : task.Storable) :
    add widen owned ⟨true⟩ db choice task =
      some (Function.update db table.tableName (some (coding.table (TaskRepository.add tasks task).1)),
        (TaskRepository.add tasks task).2) := by
  have hsame : Function.update db table.tableName (some (coding.table tasks)) = db := by
    rw [← hdb, Function.update_eq_self]
  -- the search for the id is the test of the primary key
  have hany : (tasks.any fun row => row.taskId = task.taskId) = true ↔
      coding.key task ∈ tasks.map coding.key := by
    rw [List.any_eq_true, List.mem_map]
    simp only [decide_eq_true_eq]
    rfl
  have hadd : add widen owned ⟨true⟩ db choice task =
      if task.taskId ≤ 0 then some (db, false)
      else SqlTableQuery.command widen owned db choice
        (tableQuery.insert (⟨.int64, .int64 task.taskId, "task_id".toList⟩ :: payload task)) := rfl
  rw [hadd, TaskRepository.add]
  by_cases hpos : task.taskId ≤ 0
  · rw [if_pos hpos, if_pos hpos, hsame]
  rw [if_neg hpos, if_neg hpos]
  have hvalues : (⟨.int64, .int64 task.taskId, "task_id".toList⟩ :: payload task).mapM
      (SqliteDriver.boundValue widen owned) = some (encode task) := by
    rw [List.mapM_cons, mapM_payload widen owned htask]
    rfl
  have hnames : ∀ cell ∈ (⟨.int64, .int64 task.taskId, "task_id".toList⟩ :: payload task : List SqlCell),
      table.hasColumnName cell.columnName = true :=
    List.forall_mem_cons.2 ⟨SqlTableItem.hasColumnName_of_hasColumn asks_id.hasColumn, hasColumnName_payload⟩
  have hrow : Sql.newRow coding.columns choice.assigned (table.columnNames.zip (encode task)) =
    coding.encode task := rfl
  refine (command_insert widen owned choice table_named hdb hkeys rfl columnItems_ne_nil (fun _ h => h) rfl hnames
    hvalues rfl hrow).trans ?_
  by_cases hmem : coding.key task ∈ tasks.map coding.key
  · rw [if_pos hmem, if_pos (hany.2 hmem), hsame]
  · rw [if_neg hmem, if_neg (mt hany.1 hmem)]

include hkeys in
/-- **`update`** replaces the row. -/
theorem update_eq {task : TaskEntity} (htask : task.Storable) :
    update widen owned ⟨true⟩ db choice task =
      some (Function.update db table.tableName (some (coding.table (TaskRepository.update tasks task))),
        true) := by
  have hset : ∀ row ∈ tasks, decide (row.taskId = task.taskId) = true →
      Sql.setCells coding.columns (coding.encode row) (table.columnNames.tail.zip (values task)) =
        coding.encode task := by
    intro row _ hid
    have hcells : Sql.setCells coding.columns (coding.encode row) (table.columnNames.tail.zip (values task)) =
        .integer row.taskId :: values task := rfl
    rw [hcells, of_decide_eq_true hid]
    rfl
  refine (command_update [(idColumn, task.taskId)] widen owned choice table_named hdb hkeys rfl tail_ne_nil
    table.mem_of_mem_tail (List.forall_mem_singleton.2 asks_id) (selects_id tasks task.taskId)
    (List.cons_ne_nil _ _) (getDestColumns_payload task) hasColumnName_payload
    (mapM_payload widen owned htask) rfl hset
    fun row _ hid => (of_decide_eq_true hid).symm).trans ?_
  simp only [decide_eq_true_eq]
  rfl

/-- **`remove`** drops the row. -/
theorem remove_eq (taskId : Int64) :
    remove widen owned ⟨true⟩ db choice taskId =
      some (Function.update db table.tableName (some (coding.table (TaskRepository.remove tasks taskId))),
        true) := by
  refine (command_remove [(idColumn, taskId)] widen owned choice table_named hdb
    (List.forall_mem_singleton.2 asks_id) (selects_id tasks taskId) (List.cons_ne_nil _ _)).trans ?_
  simp only [decide_eq_false_iff_not]
  rfl

/-- The rows that satisfy conditions, in some order. -/
theorem selectWhere_eq (points : List (SqlColumnItem × Int64)) {q : TaskEntity → Bool}
    (hstorable : ∀ task ∈ tasks, task.Storable) (h : ∀ p ∈ points, table.Asks p.1)
    (hq : ∀ task ∈ tasks, Sql.selects coding.columns (Sql.conditionExpr (pointNames points)) (pointValues points)
      (coding.encode task) = some (q task)) :
    ∃ found : List TaskEntity, found.Perm (tasks.filter q) ∧
      selectWhere widen owned db choice (pointItems points) = some (db, found) :=
  query_read points widen owned choice table_named hdb columnItems_ne_nil (fun _ h => h) h hq hstorable
    fromQueryData_encode fun _ => rfl

/-- **`get_all`** returns all rows. -/
theorem getAll_eq (hstorable : ∀ task ∈ tasks, task.Storable) :
    ∃ found : List TaskEntity, found.Perm tasks ∧ getAll widen owned ⟨true⟩ db choice = some (db, found) := by
  have hq : ∀ task ∈ tasks, Sql.selects coding.columns (Sql.conditionExpr (pointNames [])) (pointValues [])
      (coding.encode task) = some true := fun _ _ => rfl
  obtain ⟨found, hperm, hselect⟩ := selectWhere_eq widen owned choice hdb [] hstorable (by simp) hq
  rw [List.filter_true] at hperm
  exact ⟨found, hperm, hselect⟩

/-- **`get_by_file_id`** returns the rows of a file. -/
theorem getByFileId_eq (hstorable : ∀ task ∈ tasks, task.Storable) (fileId : Int64) :
    ∃ found : List TaskEntity, found.Perm (tasks.filter fun task => task.fileId = fileId) ∧
      getByFileId widen owned ⟨true⟩ db choice fileId = some (db, found) := by
  have hasks : table.Asks (.plain 1 "file_id".toList .int64) :=
    table_named.asks (List.mem_cons_of_mem _ List.mem_cons_self) rfl
  have hcell : ∀ task, Sql.cell coding.columns (coding.encode task) "file_id".toList =
    some (.integer task.fileId) :=
    fun _ => rfl
  exact selectWhere_eq widen owned choice hdb [(.plain 1 "file_id".toList .int64, fileId)] hstorable
    (List.forall_mem_singleton.2 hasks)
    fun task _ => Sql.selects_between (hcell task) fileId

include hkeys in
/-- **`get_by_task_id`** returns the row of an id. -/
theorem getByTaskId_eq (hstorable : ∀ task ∈ tasks, task.Storable) (taskId : Int64) :
    getByTaskId widen owned ⟨true⟩ db choice taskId = some (db, TaskRepository.getByTaskId tasks taskId) := by
  obtain ⟨found, hperm, hselect⟩ := selectWhere_eq widen owned choice hdb [(idColumn, taskId)] hstorable
    (List.forall_mem_singleton.2 asks_id) (selects_id tasks taskId)
  have hget : getByTaskId widen owned ⟨true⟩ db choice taskId =
      (selectWhere widen owned db choice (pointItems [(idColumn, taskId)])).map fun result =>
        (result.1, result.2.head?) := rfl
  rw [hget, hselect, Option.map_some, Table.head?_of_perm_filter hkeys hperm]
  rfl

/-- **`get_all_count`** is the number of rows. -/
theorem getAllCount_eq : getAllCount widen owned ⟨true⟩ db choice = some (db, .ofNat tasks.length) := by
  have hq : ∀ task ∈ tasks, Sql.selects coding.columns (Sql.conditionExpr (pointNames [])) (pointValues [])
      (coding.encode task) = some true := fun _ _ => rfl
  have hcount := queryCount_count [] widen owned choice table_named hdb (by simp) hq
  rw [List.filter_true] at hcount
  exact hcount

/-- **`get_max_task_id`** is the largest id. -/
theorem getMaxTaskId_eq :
    getMaxTaskId widen owned ⟨true⟩ db choice = some (db, TaskRepository.getMaxTaskId tasks) := by
  have hread : Sql.read "SELECT COALESCE(MAX(task_id), 0) FROM task;".toList =
      some (.max coding.keyName 0 table.tableName) := by
    decide +kernel
  obtain ⟨m, hm, hexec⟩ := Sql.Coding.exec_max choice 0 hdb
  have hprepares : Prepares
      (.ok (some ((Statement.prepare "SELECT COALESCE(MAX(task_id), 0) FROM task;".toList).bindAll [])))
      (.max coding.keyName 0 table.tableName) [] := ⟨_, rfl, hread⟩
  have hquery := query_rows widen owned choice hprepares rfl hexec
  have hmax : m = TaskRepository.getMaxTaskId tasks := by
    rcases hm with ⟨rfl, rfl⟩ | ⟨task, htask, rfl, hle⟩
    · rfl
    rcases TaskRepository.getMaxTaskId_spec tasks with ⟨rfl, -⟩ | ⟨⟨row, hrow, hid⟩, hall⟩
    · exact absurd htask List.not_mem_nil
    · refine Int64.le_antisymm (hall task htask) ?_
      rw [← hid]
      exact hle row hrow
  show (SqlTableQuery.query widen owned db choice (.ok (some ((Statement.prepare _).bindAll []))) >>= _) = _
  rw [hquery, ← hmax]
  rfl

end Operations

theorem prepares_create :
    Prepares tableQuery.create (.createTable true table.tableName table.sqlColumns) [] := by
  apply prepares_of_isRead
  decide +kernel

/-- **`init`** creates the table, unless it is there. -/
theorem init_eq (widen : UInt32 → UInt64) (owned : Bool) (db : Sql.Database) (choice : Sql.Choice) :
    init widen owned ⟨false⟩ db choice = some (⟨true⟩,
      if db table.tableName = none then Function.update db table.tableName (some (coding.table [])) else db) := by
  show (SqlTableQuery.command widen owned db choice tableQuery.create >>= _) = _
  rw [command_create widen owned choice prepares_create]
  rfl

end SqlTaskRepository

end ProjectTrans
