import ProjectTrans.Model.Database.SqlBuilder

/-!
# Running statements (`database/sql_table_query`)

Every operation builds a text, prepares it, binds values to its placeholders in a
traversal of its own and runs it. What is modelled is the statement as it is run; the
driver is not.
-/

namespace ProjectTrans

open Wire

/-- `SqlTableQuery`; the builder has the same table. Of the query only whether it is set matters. -/
structure SqlTableQuery where
  tableInfo : Option SqlTableItem
  sqlStringify : Option SqliteStringify
  hasQuery : Bool
  deriving DecidableEq

/-- A statement that has been prepared: its text, the next parameter index, and the values
bound so far with their indices. -/
structure Statement where
  sql : Text
  paramIndex : ℕ
  binds : List (ℕ × SqlCell)
  deriving DecidableEq

namespace Statement

/-- `prepare` and `reset`. -/
def prepare (sql : Text) : Statement := ⟨sql, 1, []⟩

/-- `bind(param_index++, cell)`. -/
def bind (s : Statement) (cell : SqlCell) : Statement :=
  { s with paramIndex := s.paramIndex + 1, binds := s.binds ++ [(s.paramIndex, cell)] }

end Statement

namespace SqlTableQuery

variable (q : SqlTableQuery)

/-- `m_builder`. -/
def builder : SqlBuilder := ⟨q.tableInfo, q.sqlStringify⟩

/-- The loop that binds cells, by column name. -/
def bindCells (table : SqlTableItem) (cells : List SqlCell) (s : Statement) : Statement :=
  cells.foldl (fun s cell => if table.hasColumnName cell.columnName then s.bind cell else s) s

/-- The loop over the intervals of one condition. -/
def bindIntervals (intervals : List (SingleInterval Int64)) (s : Statement) : Statement :=
  intervals.foldl (fun s interval =>
    let s := match interval.left.value with
      | some left => s.bind (.ofInt64 left)
      | none => s
    match interval.right.value with
    | some right => s.bind (.ofInt64 right)
    | none => s) s

/-- The loop that binds the conditions, by column name. -/
def bindConditions (table : SqlTableItem) (s : Statement) : List SqlConditionItem → Checked Statement
  | [] => .ok s
  | item :: rest =>
    if !item.isSet then bindConditions table s rest
    else if !table.hasColumnName item.columnInfo.columnName then bindConditions table s rest
    else if item.condition.isNone then bindConditions table s rest
    else if isIntegerType item.columnInfo.dataType then do
      let intervals ← SqliteStringify.getIntegerIntervals item
      bindConditions table (bindIntervals intervals s) rest
    else bindConditions table s rest

/-- `get_dest_columns`. -/
def getDestColumns (table : SqlTableItem) (cells : List SqlCell) : List SqlColumnItem :=
  cells.filterMap fun cell => table.getColumnInfo cell.columnName

/-- The table, when table and query are set. -/
def ready : Option SqlTableItem := if q.hasQuery then q.tableInfo else none

/-- `create`. -/
def create : Checked (Option Statement) :=
  match q.ready with
  | none => .ok none
  | some _ => do
    match ← q.builder.buildCreateTableString with
    | none => return none
    | some sql => return some (.prepare sql)

/-- `update`. -/
def update (cells : List SqlCell) (conditions : List SqlConditionItem) : Checked (Option Statement) :=
  match q.ready with
  | none => .ok none
  | some table => do
    match ← q.builder.buildUpdateString (getDestColumns table cells) conditions false with
    | none => return none
    | some sql => return some (← bindConditions table (bindCells table cells (.prepare sql)) conditions)

/-- `insert`. -/
def insert (cells : List SqlCell) : Checked (Option Statement) :=
  match q.ready with
  | none => .ok none
  | some table => do
    match ← q.builder.buildInsertString (getDestColumns table cells) with
    | none => return none
    | some sql => return some (bindCells table cells (.prepare sql))

/-- `remove`. -/
def remove (conditions : List SqlConditionItem) : Checked (Option Statement) :=
  match q.ready with
  | none => .ok none
  | some table => do
    match ← q.builder.buildDeleteString conditions false with
    | none => return none
    | some sql => return some (← bindConditions table (.prepare sql) conditions)

/-- `select`. -/
def select (destColumns : List SqlColumnItem) (conditions : List SqlConditionItem) : Checked (Option Statement) :=
  match q.ready with
  | none => .ok none
  | some table => do
    match ← q.builder.buildSelectString destColumns conditions with
    | none => return none
    | some sql => return some (← bindConditions table (.prepare sql) conditions)

/-- `count`. -/
def count (conditions : List SqlConditionItem) : Checked (Option Statement) :=
  match q.ready with
  | none => .ok none
  | some table => do
    match ← q.builder.buildCountString conditions with
    | none => return none
    | some sql => return some (← bindConditions table (.prepare sql) conditions)

end SqlTableQuery

end ProjectTrans
