import ProjectTrans.Model.Database.SqliteDriver
import ProjectTrans.Model.Server.BusinessRuntime

/-!
# The table of files (`repository/server_file_info_repository`, `service`)

Statements are written by hand here, and not by the query of a table. An id is looked up as
a 32-bit integer, and the entity keeps the id and the size of a row in 32 bits.
-/

namespace ProjectTrans

/-- `ServerFileInfoRepository`: whether `init` has set the query. -/
structure ServerFileInfoRepository where
  isInit : Bool := false
  deriving DecidableEq

namespace ServerFileInfoRepository

def tableName : Text := "file_info".toList

/-- The columns that `ensure_table_exists` creates. -/
def columns : List Sql.Column :=
  [{ name := "file_id".toList, type := "INTEGER".toList, primaryKey := true },
    { name := "file_name".toList, type := "TEXT".toList, notNull := true },
    { name := "resource_path".toList, type := "TEXT".toList, notNull := true },
    { name := "file_size".toList, type := "INTEGER".toList, notNull := true },
    { name := "md5_code".toList, type := "TEXT".toList, notNull := true }]

/-- What a cell of a row sets; integers are narrowed to the members. -/
def setField (fileInfo : ServerFileInfo) (cell : SqlCell) : Option ServerFileInfo :=
  if cell.columnName = "file_id".toList then cell.data.getInt64.map fun v => { fileInfo with fileId := v.toInt32 }
  else if cell.columnName = "file_name".toList then cell.data.getString.map fun v =>
    { fileInfo with fileName := v }
  else if cell.columnName = "resource_path".toList then
    cell.data.getString.map fun v => { fileInfo with resourcePath := v }
  else if cell.columnName = "file_size".toList then
    cell.data.getInt64.map fun v => { fileInfo with fileSize := v.toUInt64.toUInt32 }
  else if cell.columnName = "md5_code".toList then cell.data.getString.map fun v => { fileInfo with md5Code := v }
  else some fileInfo

/-- `SELECT * FROM file_info WHERE file_id = ?;`, with the columns that `*` stands for. -/
def selectById (names : List Text) : Text :=
  "SELECT ".toList ++ ", ".toList.intercalate names ++ " FROM file_info WHERE file_id = ?;".toList

/-- The entity of the first row, if there is one. -/
def ofFirstRow : List (List SqlCell) → Option (Option ServerFileInfo)
  | [] => some none
  | row :: _ => do
    -- the size has no initial value
    let fileInfo ← row.foldlM setField ⟨-1, [], [], 0, []⟩
    return some fileInfo

variable (widen : UInt32 → UInt64) (owned : Bool) (r : ServerFileInfoRepository) (db : Sql.Database)
  (choice : Sql.Choice)

/-- `get_by_id`. -/
def getById (fileId : Int32) : Option (Sql.Database × Option ServerFileInfo) :=
  if !r.isInit then some (db, none)
  else do
    let t ← db tableName
    let s := (Statement.prepare (selectById (t.columns.map (·.name)))).bind ⟨getDataType Int32, .int32 fileId, []⟩
    let (db, data) ← SqliteDriver.executeQuery widen owned db choice s
    let fileInfo ← ofFirstRow data
    return (db, fileInfo)

end ServerFileInfoRepository

end ProjectTrans
