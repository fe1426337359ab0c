import ProjectTrans.Lib.Sql
import ProjectTrans.Model.Database.SqlTableQuery

/-!
# Statements and values in SQLite (`database/sqlite_driver`, `sql_query`)

`bind` turns the cell of a parameter into a value of one of SQLite's storage classes, and
`execute_query` turns what a row has into cells. Integers of all widths and booleans
become 64-bit integers, and texts go in and come out as C strings. What a statement does
in between is its meaning in SQL.
-/

namespace ProjectTrans

open Wire

/-- What SQLite keeps. -/
abbrev SqliteValue := Sql.Value

/-- The bytes of a C string: those before the first zero. -/
def cString (s : Bytes) : Bytes := s.takeWhile (· ≠ 0)

namespace SqliteDriver

/-- `sqlite3_bind_blob`: a null pointer binds NULL, and a negative length has no defined meaning. -/
def bindBlob (isNull : Bool) (data : Bytes) (length : Int32) : Checked SqliteValue :=
  if isNull then .ok .null
  else if length < 0 then .error (.negativeLength length.toInt)
  else .ok (.blob (data.take length.toInt.toNat))

/-- `sqlite3_bind_int`. -/
def bindInt (v : Int32) : SqliteValue := .integer v.toInt64

section Bind

-- `widen` is the conversion of a float to a double. `owned` tells of a vector without elements
-- whether it has memory of its own: `data()` of one that has none is a null pointer.
variable (widen : UInt32 → UInt64) (owned : Bool)

/-- The cases of `bind`, each of which takes the alternative of its own type. -/
def bindData : CellData → Checked SqliteValue
  | .int8 v => .ok (bindInt v.toInt32)
  | .uInt8 v => .ok (bindInt (.ofNat v.toNat))
  | .int16 v => .ok (bindInt v.toInt32)
  | .uInt16 v => .ok (bindInt (.ofNat v.toNat))
  | .int32 v => .ok (bindInt v)
  | .uInt32 v => .ok (.integer (.ofNat v.toNat))
  | .int64 v => .ok (.integer v)
  | .uInt64 v => .ok (.integer v.toInt64)
  | .float bits => .ok (.real (widen bits))
  | .double bits => .ok (.real bits)
  | .bool v => .ok (bindInt (if v then 1 else 0))
  | .string v => .ok (.text (cString v))
  | .byteArray v => bindBlob (v.isEmpty && !owned) v (.ofNat v.length)
  | .null => .ok .null

/-- The types `bind` accepts. -/
def accepts (type : DataType) : Bool :=
  isIntegerType type || type = .float || type = .double || type = .bool || type = .string ||
    type = .byteArray || type = .null

/-- `bind`: no value is bound where it fails. `std::get` of another alternative throws. -/
def bind (cell : SqlCell) : Checked (Option SqliteValue) :=
  if cell.type = .null then .ok (some .null)
  else if !accepts cell.type then .ok none
  else if cell.data.type ≠ cell.type then .error .badVariantAccess
  else some <$> bindData widen owned cell.data

end Bind

/-- The cell of a column. -/
def columnCell (columnName : Text) : SqliteValue → SqlCell
  | .integer v => ⟨.int64, .int64 v, columnName⟩
  | .real bits => ⟨.double, .double bits, columnName⟩
  | .text v => ⟨.string, .string (cString v), columnName⟩
  | .blob v => ⟨.byteArray, .byteArray v, columnName⟩
  | .null => ⟨.null, .null, columnName⟩

/-- The cells of the rows that a statement returns. -/
def queryCells (columnNames : List Text) (rows : List (List SqliteValue)) : List (List SqlCell) :=
  rows.map fun row => List.zipWith columnCell columnNames row

section Execute

variable (widen : UInt32 → UInt64) (owned : Bool) (db : Sql.Database) (choice : Sql.Choice)

/-- The value that is bound for a cell. -/
def boundValue (cell : SqlCell) : Option SqliteValue :=
  match bind widen owned cell with
  | .ok (some value) => some value
  | _ => none

/-- The values bound to the placeholders `1`, `2` and so on. -/
def boundValues (s : Statement) : Option (List SqliteValue) :=
  if s.binds.map Prod.fst = List.range' 1 s.binds.length then s.binds.mapM fun b => boundValue widen owned b.2
  else none

/-- Step through a statement that was prepared and bound. There is no result where it is
none of the statements of `Sql`, or where not all is bound. -/
def execute (s : Statement) : Option (Sql.Database × Sql.Outcome) := do
  let statement ← Sql.read s.sql
  let values ← boundValues widen owned s
  Sql.exec db choice values statement

/-- `execute_command`: it succeeds when the statement is done after one step. -/
def executeCommand (s : Statement) : Option (Sql.Database × Bool) := do
  match ← execute widen owned db choice s with
  | (db, .done) => return (db, true)
  | (db, _) => return (db, false)

/-- `execute_query`. -/
def executeQuery (s : Statement) : Option (Sql.Database × List (List SqlCell)) := do
  match ← execute widen owned db choice s with
  | (db, .rows names rows) => return (db, queryCells names rows)
  | (db, _) => return (db, [])

end Execute

end SqliteDriver

namespace SqlTableQuery

variable (widen : UInt32 → UInt64) (owned : Bool) (db : Sql.Database) (choice : Sql.Choice)

/-- The end of `create`, `insert`, `update` and `remove`: without a statement they fail. -/
def command : Checked (Option Statement) → Option (Sql.Database × Bool)
  | .ok none => some (db, false)
  | .ok (some s) => SqliteDriver.executeCommand widen owned db choice s
  | .error _ => none

/-- The end of `select`. -/
def query : Checked (Option Statement) → Option (Sql.Database × List (List SqlCell))
  | .ok none => some (db, [])
  | .ok (some s) => SqliteDriver.executeQuery widen owned db choice s
  | .error _ => none

/-- The end of `count`: one cell, which has to be a 64-bit integer. -/
def queryCount (statement : Checked (Option Statement)) : Option (Sql.Database × Int64) := do
  match ← query widen owned db choice statement with
  | (db, [[cell]]) =>
    match cell.data with
    | .int64 v => return (db, v)
    | _ => none
  | (db, _) => return (db, 0)

end SqlTableQuery

end ProjectTrans
