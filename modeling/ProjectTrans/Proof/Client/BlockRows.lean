import ProjectTrans.Proof.Client.TaskRows

/-!
# Blocks as rows

What `TaskRows` is for tasks: a block is storable when its times are whole milliseconds,
and on tables of such blocks the statements of the repository do what `BlockRepository`
says. A new block gets the id that the database assigns.
-/

namespace ProjectTrans

open Sql (Value)

/-- What a row keeps of a block. -/
structure BlockEntity.Storable (block : BlockEntity) : Prop where
  startTime : WholeMs block.startTime
  endTime : WholeMs block.endTime

namespace SqlBlockRepository

/-- The values of all columns but the id. -/
def values (block : BlockEntity) : List Value :=
  [.integer block.taskId, .integer block.fileId, .integer block.offset, .integer block.blockSize,
    .integer block.state.toInt64, .integer (toTimeMs block.startTime), .integer (toTimeMs block.endTime)]

/-- The row of a block. -/
def encode (block : BlockEntity) : Sql.Row := .integer block.blockId :: values block

/-- Blocks under their ids. -/
def coding : Sql.Coding BlockEntity where
  columns := table.sqlColumns
  keyName := "block_id".toList
  key := (·.blockId)
  encode := encode
  admits := fun _ => rfl
  keyed := fun _ => rfl
  hasKey := by decide +kernel
  unique := by decide +kernel
  notNull := fun c hc block => Sql.exists_cell hc (Nat.le_refl 8) (by simp [encode, values])

/-- What a row sets, field by field. -/
theorem foldlM_setField (block : BlockEntity) :
    (List.zipWith SqliteDriver.columnCell table.columnNames (encode block)).foldlM setField
      { offset := 0, blockSize := 0, state := .unknown } =
        some { block with
          startTime := fromTimeMs (toTimeMs block.startTime)
          endTime := fromTimeMs (toTimeMs block.endTime) } := by
  have hcells : List.zipWith SqliteDriver.columnCell table.columnNames (encode block) =
      [SqliteDriver.columnCell "block_id".toList (.integer block.blockId),
        SqliteDriver.columnCell "task_id".toList (.integer block.taskId),
        SqliteDriver.columnCell "file_id".toList (.integer block.fileId),
        SqliteDriver.columnCell "offset".toList (.integer block.offset),
        SqliteDriver.columnCell "block_size".toList (.integer block.blockSize),
        SqliteDriver.columnCell "state".toList (.integer block.state.toInt64),
        SqliteDriver.columnCell "start_time".toList (.integer (toTimeMs block.startTime)),
        SqliteDriver.columnCell "end_time".toList (.integer (toTimeMs block.endTime))] := rfl
  -- the state comes back from its number; the other fields by evaluation
  have hstate : ∀ b : BlockEntity, setField b (SqliteDriver.columnCell "state".toList
      (.integer block.state.toInt64)) = some { b with state := block.state } := by
    intro b
    show (BlockState.ofInt64 block.state.toInt64).bind _ = _
    rw [BlockState.ofInt64_toInt64]
    rfl
  have hblockId : ∀ (b : BlockEntity) v, setField b (SqliteDriver.columnCell "block_id".toList (.integer v)) =
    some { b with blockId := v } := fun _ _ => rfl
  have htaskId : ∀ (b : BlockEntity) v, setField b (SqliteDriver.columnCell "task_id".toList (.integer v)) =
    some { b with taskId := v } := fun _ _ => rfl
  have hfileId : ∀ (b : BlockEntity) v, setField b (SqliteDriver.columnCell "file_id".toList (.integer v)) =
    some { b with fileId := v } := fun _ _ => rfl
  have hoffset : ∀ (b : BlockEntity) v, setField b (SqliteDriver.columnCell "offset".toList (.integer v)) =
    some { b with offset := v } := fun _ _ => rfl
  have hblockSize : ∀ (b : BlockEntity) v, setField b (SqliteDriver.columnCell "block_size".toList (.integer v)) =
    some { b with blockSize := v } := fun _ _ => rfl
  have hstartTime : ∀ (b : BlockEntity) v, setField b (SqliteDriver.columnCell "start_time".toList (.integer v)) =
    some { b with startTime := fromTimeMs v } := fun _ _ => rfl
  have hendTime : ∀ (b : BlockEntity) v, setField b (SqliteDriver.columnCell "end_time".toList (.integer v)) =
    some { b with endTime := fromTimeMs v } := fun _ _ => rfl
  rw [hcells]
  simp only [List.foldlM_cons, List.foldlM_nil, Option.bind_eq_bind, Option.bind_some, hblockId, htaskId, hfileId,
    hoffset, hblockSize, hstate, hstartTime, hendTime]
  rfl

/-- **Decoding** the rows of storable blocks gives the blocks. -/
theorem fromQueryData_encode {blocks : List BlockEntity} (h : ∀ block ∈ blocks, block.Storable) :
    fromQueryData (SqliteDriver.queryCells table.columnNames (blocks.map encode)) = some blocks := by
  have hrow : ∀ block ∈ blocks,
      (List.zipWith SqliteDriver.columnCell table.columnNames (encode block)).foldlM setField
      { offset := 0, blockSize := 0, state := .unknown } = some (id block) := by
    intro block hblock
    rw [foldlM_setField, fromTimeMs_toTimeMs (h block hblock).startTime,
      fromTimeMs_toTimeMs (h block hblock).endTime]
    rfl
  rw [SqliteDriver.queryCells, List.map_map]
  exact (Sql.mapM_map hrow).trans (congrArg some (List.map_id blocks))

/-! ### Statements -/

/-- The column of the id. -/
def idColumn : SqlColumnItem := .key 0 "block_id".toList

/-- The columns that blocks are asked for by, apart from the id. -/
def taskIdColumn : SqlColumnItem := .plain 1 "task_id".toList .int64

def stateColumn : SqlColumnItem := .plain 5 "state".toList .int64

/-- The cells of all columns but the id. -/
def payload (block : BlockEntity) : List SqlCell :=
  [⟨.int64, .int64 block.taskId, "task_id".toList⟩, ⟨.int64, .int64 block.fileId, "file_id".toList⟩,
    ⟨.int64, .int64 block.offset, "offset".toList⟩, ⟨.int64, .int64 block.blockSize, "block_size".toList⟩,
    ⟨.int64, .int64 block.state.toInt64, "state".toList⟩,
    ⟨.int64, .int64 (toTimeMs block.startTime), "start_time".toList⟩,
    ⟨.int64, .int64 (toTimeMs block.endTime), "end_time".toList⟩]

theorem getDestColumns_payload (block : BlockEntity) :
    SqlTableQuery.getDestColumns table (payload block) = table.columnItems.tail := rfl

theorem hasColumnName_payload {block : BlockEntity} :
    ∀ cell ∈ payload block, table.hasColumnName cell.columnName = true :=
  SqlTableItem.hasColumnName_of_names rfl

theorem mapM_payload (widen : UInt32 → UInt64) (owned : Bool) (block : BlockEntity) :
    (payload block).mapM (SqliteDriver.boundValue widen owned) = some (values block) := rfl

theorem table_named : table.Named := by decide +kernel

theorem asks_id : table.Asks idColumn := table_named.asks List.mem_cons_self rfl

theorem asks_taskId : table.Asks taskIdColumn := table_named.asks (List.mem_cons_of_mem _ List.mem_cons_self) rfl

theorem asks_state : table.Asks stateColumn :=
  table_named.asks (List.mem_of_getElem? (i := 5) rfl) rfl

theorem columnItems_ne_nil : table.columnItems ≠ [] := List.cons_ne_nil _ _

theorem tail_ne_nil : table.columnItems.tail ≠ [] := List.cons_ne_nil _ _

theorem asks_taskId_state (taskId : Int64) (state : BlockState) :
    ∀ p ∈ [(taskIdColumn, taskId), (stateColumn, state.toInt64)], table.Asks p.1 :=
  List.forall_mem_cons.2 ⟨asks_taskId, List.forall_mem_singleton.2 asks_state⟩

section Operations

variable (widen : UInt32 → UInt64) (owned : Bool) {db : Sql.Database} (choice : Sql.Choice)
  {blocks : List BlockEntity}
  (hdb : db table.tableName = some (coding.table blocks)) (hkeys : (blocks.map (·.blockId)).Nodup)

/-- The rows of an id are selected by its two comparisons. -/
theorem selects_id (blocks : List BlockEntity) (blockId : Int64) :
    ∀ block ∈ blocks, Sql.selects coding.columns (Sql.conditionExpr (pointNames [(idColumn, blockId)]))
      (pointValues [(idColumn, blockId)]) (coding.encode block) = some (decide (block.blockId = blockId)) :=
  fun block _ => Sql.selects_between (coding.keyed block) blockId

/-- The rows of a task. -/
theorem selects_taskId (blocks : List BlockEntity) (taskId : Int64) :
    ∀ block ∈ blocks, Sql.selects coding.columns (Sql.conditionExpr (pointNames [(taskIdColumn, taskId)]))
      (pointValues [(taskIdColumn, taskId)]) (coding.encode block) = some (decide (block.taskId = taskId)) := by
  intro block _
  have hcell : Sql.cell coding.columns (coding.encode block) "task_id".toList =
    some (.integer block.taskId) := rfl
  exact Sql.selects_between hcell taskId

/-- The rows of a task in a state. -/
theorem selects_taskId_state (blocks : List BlockEntity) (taskId : Int64) (state : BlockState) :
    ∀ block ∈ blocks, Sql.selects coding.columns
      (Sql.conditionExpr (pointNames [(taskIdColumn, taskId), (stateColumn, state.toInt64)]))
        (pointValues [(taskIdColumn, taskId), (stateColumn, state.toInt64)]) (coding.encode block) =
          some (decide (block.taskId = taskId ∧ block.state = state)) := by
  intro block _
  have htaskId : Sql.cell coding.columns (coding.encode block) "task_id".toList =
    some (.integer block.taskId) := rfl
  have hstate : Sql.cell coding.columns (coding.encode block) "state".toList =
    some (.integer block.state.toInt64) := rfl
  have hboth := Sql.selects_between_and htaskId hstate taskId state.toInt64
  rw [decide_eq_decide.2 (and_congr_right fun _ => BlockState.toInt64_inj)] at hboth
  exact hboth

include hdb

include hkeys in
/-- **`add`** adds the row under the id that is assigned. -/
theorem add_eq (hfresh : choice.assigned ∉ blocks.map (·.blockId)) (block : BlockEntity) :
    add widen owned ⟨true⟩ db choice block =
      some (Function.update db table.tableName
        (some (coding.table (BlockRepository.add blocks block (some choice.assigned)).1)), true) := by
  have hrow : Sql.newRow coding.columns choice.assigned (table.columnNames.tail.zip (values block)) =
      coding.encode { block with blockId := choice.assigned } := rfl
  refine (command_insert widen owned choice table_named hdb hkeys rfl tail_ne_nil table.mem_of_mem_tail
    (getDestColumns_payload block) hasColumnName_payload (mapM_payload widen owned block) rfl hrow).trans ?_
  exact congrArg some (if_neg hfresh)

include hkeys in
/-- **`update`** replaces the row. -/
theorem update_eq (block : BlockEntity) :
    update widen owned ⟨true⟩ db choice block =
      some (Function.update db table.tableName (some (coding.table (BlockRepository.update blocks block))),
        true) := by
  have hset : ∀ row ∈ blocks, decide (row.blockId = block.blockId) = true →
      Sql.setCells coding.columns (coding.encode row) (table.columnNames.tail.zip (values block)) =
        coding.encode block := by
    intro row _ hid
    have hcells : Sql.setCells coding.columns (coding.encode row) (table.columnNames.tail.zip (values block)) =
        .integer row.blockId :: values block := rfl
    rw [hcells, of_decide_eq_true hid]
    rfl
  refine (command_update [(idColumn, block.blockId)] widen owned choice table_named hdb hkeys rfl tail_ne_nil
    table.mem_of_mem_tail (List.forall_mem_singleton.2 asks_id) (selects_id blocks block.blockId)
    (List.cons_ne_nil _ _) (getDestColumns_payload block) hasColumnName_payload
    (mapM_payload widen owned block) rfl hset
    fun row _ hid => (of_decide_eq_true hid).symm).trans ?_
  simp only [decide_eq_true_eq]
  rfl

/-- **`remove`** drops the row. -/
theorem remove_eq (blockId : Int64) :
    remove widen owned ⟨true⟩ db choice blockId =
      some (Function.update db table.tableName
        (some (coding.table (blocks.filter fun block => block.blockId ≠ blockId))), true) := by
  refine (command_remove [(idColumn, blockId)] widen owned choice table_named hdb
    (List.forall_mem_singleton.2 asks_id) (selects_id blocks blockId) (List.cons_ne_nil _ _)).trans ?_
  simp only [decide_eq_false_iff_not]

/-- The rows that satisfy conditions, in some order. -/
theorem selectWhere_eq (points : List (SqlColumnItem × Int64)) {q : BlockEntity → Bool}
    (hstorable : ∀ block ∈ blocks, block.Storable) (h : ∀ p ∈ points, table.Asks p.1)
    (hq : ∀ block ∈ blocks, Sql.selects coding.columns (Sql.conditionExpr (pointNames points))
      (pointValues points) (coding.encode block) = some (q block)) :
    ∃ found : List BlockEntity, found.Perm (blocks.filter q) ∧
      selectWhere widen owned db choice (pointItems points) = some (db, found) :=
  query_read points widen owned choice table_named hdb columnItems_ne_nil (fun _ h => h) h hq hstorable
    fromQueryData_encode fun _ => rfl

/-- **`get_all`** returns all rows. -/
theorem getAll_eq (hstorable : ∀ block ∈ blocks, block.Storable) :
    ∃ found : List BlockEntity, found.Perm blocks ∧ getAll widen owned ⟨true⟩ db choice = some (db, found) := by
  have hq : ∀ block ∈ blocks, Sql.selects coding.columns (Sql.conditionExpr (pointNames [])) (pointValues [])
      (coding.encode block) = some true := fun _ _ => rfl
  obtain ⟨found, hperm, hselect⟩ := selectWhere_eq widen owned choice hdb [] hstorable (by simp) hq
  rw [List.filter_true] at hperm
  exact ⟨found, hperm, hselect⟩

/-- **`get_by_task_id`** returns the rows of a task. -/
theorem getByTaskId_eq (hstorable : ∀ block ∈ blocks, block.Storable) (taskId : Int64) :
    ∃ found : List BlockEntity, found.Perm (BlockRepository.getByTaskId blocks taskId) ∧
      getByTaskId widen owned ⟨true⟩ db choice taskId = some (db, found) :=
  selectWhere_eq widen owned choice hdb [(taskIdColumn, taskId)] hstorable
    (List.forall_mem_singleton.2 asks_taskId)
    (selects_taskId blocks taskId)

include hkeys in
/-- **`get_by_block_id`** returns the row of an id. -/
theorem getByBlockId_eq (hstorable : ∀ block ∈ blocks, block.Storable) (blockId : Int64) :
    getByBlockId widen owned ⟨true⟩ db choice blockId =
      some (db, BlockRepository.getByBlockId blocks blockId) := by
  obtain ⟨found, hperm, hselect⟩ := selectWhere_eq widen owned choice hdb [(idColumn, blockId)] hstorable
    (List.forall_mem_singleton.2 asks_id) (selects_id blocks blockId)
  have hget : getByBlockId widen owned ⟨true⟩ db choice blockId =
      (selectWhere widen owned db choice (pointItems [(idColumn, blockId)])).map fun result =>
        (result.1, result.2.head?) := rfl
  rw [hget, hselect, Option.map_some, Table.head?_of_perm_filter hkeys hperm]
  rfl

/-- **`get_by_task_id_and_block_state`** returns the rows of a task in a state. -/
theorem getByTaskIdAndBlockState_eq (hstorable : ∀ block ∈ blocks, block.Storable) (taskId : Int64)
    (state : BlockState) :
    ∃ found : List BlockEntity, found.Perm (BlockRepository.getByTaskIdAndBlockState blocks taskId state) ∧
      getByTaskIdAndBlockState widen owned ⟨true⟩ db choice taskId state = some (db, found) :=
  selectWhere_eq widen owned choice hdb [(taskIdColumn, taskId), (stateColumn, state.toInt64)] hstorable
    (asks_taskId_state taskId state) (selects_taskId_state blocks taskId state)

/-- **`get_count_by_task_id_and_block_state`** counts them. -/
theorem getCountByTaskIdAndBlockState_eq (taskId : Int64) (state : BlockState) :
    getCountByTaskIdAndBlockState widen owned ⟨true⟩ db choice taskId state =
      some (db, .ofNat (BlockRepository.getCountByTaskIdAndBlockState blocks taskId state)) :=
  queryCount_count [(taskIdColumn, taskId), (stateColumn, state.toInt64)] widen owned choice table_named hdb
    (asks_taskId_state taskId state) (selects_taskId_state blocks taskId state)

end Operations

theorem prepares_create :
    Prepares tableQuery.create (.createTable true table.tableName table.sqlColumns) [] := by
  apply prepares_of_isRead
  decide +kernel

/-- **`init`** creates the table, unless it is there. -/
theorem init_eq (widen : UInt32 → UInt64) (owned : Bool) (db : Sql.Database) (choice : Sql.Choice) :
    init widen owned ⟨false⟩ db choice = some (⟨true⟩,
      if db table.tableName = none then Function.update db table.tableName (some (coding.table [])) else db) := by
  show (SqlTableQuery.command widen owned db choice tableQuery.create >>= _) = _
  rw [command_create widen owned choice prepares_create]
  rfl

end SqlBlockRepository

end ProjectTrans
