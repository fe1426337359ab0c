import ProjectTrans.Lib.Template
import ProjectTrans.Model.Common.DataType
import ProjectTrans.Model.Condition.RangeCondition

/-!
# Tables, cells and conditions (`database/sql_schema`, `sql_cell`, `sql_condition`)
-/

namespace ProjectTrans

/-- `CellData`; floating-point data is kept as its bits. -/
inductive CellData
  | int8 (v : Int8)
  | uInt8 (v : UInt8)
  | int16 (v : Int16)
  | uInt16 (v : UInt16)
  | int32 (v : Int32)
  | uInt32 (v : UInt32)
  | int64 (v : Int64)
  | uInt64 (v : UInt64)
  | float (bits : UInt32)
  | double (bits : UInt64)
  | bool (v : Bool)
  | string (v : Wire.Bytes)
  | byteArray (v : Wire.Bytes)
  | null
  deriving DecidableEq

namespace CellData

/-- The `DataType` of the alternative. -/
def type : CellData → DataType
  | int8 _ => .int8
  | uInt8 _ => .uInt8
  | int16 _ => .int16
  | uInt16 _ => .uInt16
  | int32 _ => .int32
  | uInt32 _ => .uInt32
  | int64 _ => .int64
  | uInt64 _ => .uInt64
  | float _ => .float
  | double _ => .double
  | bool _ => .bool
  | string _ => .string
  | byteArray _ => .byteArray
  | null => .null

/-- `std::get<int64_t>`; it throws when the data is something else. -/
def getInt64 : CellData → Option Int64
  | .int64 v => some v
  | _ => none

/-- `std::get<std::string>`. -/
def getString : CellData → Option Wire.Bytes
  | .string v => some v
  | _ => none

end CellData

/-- `SqlCell`. -/
structure SqlCell where
  type : DataType
  data : CellData
  columnName : Text
  deriving DecidableEq

/-- The cell `SqlQuery::bind` makes of a 64-bit integer. -/
def SqlCell.ofInt64 (value : Int64) : SqlCell := ⟨getDataType Int64, .int64 value, []⟩

/-- `SqlColumnItem`. -/
structure SqlColumnItem where
  columnIndex : Int32
  columnName : Text
  dataType : DataType
  isPrimaryKey : Bool
  isNotNull : Bool
  isUnique : Bool
  defaultValue : Option CellData
  deriving DecidableEq

namespace SqlColumnItem

/-- `operator==`: index, name and type. -/
def eq (c other : SqlColumnItem) : Bool :=
  c.columnIndex = other.columnIndex && c.columnName = other.columnName && c.dataType = other.dataType

/-- `is_valid`. -/
def isValid (c : SqlColumnItem) : Bool := 0 ≤ c.columnIndex && c.columnName ≠ [] && c.dataType ≠ .unknown

/-- `get_default_cell`; a `CellData` is `int8_t` zero by default. -/
def getDefaultCell (c : SqlColumnItem) : SqlCell := ⟨c.dataType, c.defaultValue.getD (.int8 0), c.columnName⟩

end SqlColumnItem

/-- `SqlTableItem`. -/
structure SqlTableItem where
  tableName : Text
  columnItems : List SqlColumnItem
  isUnique : Bool
  deriving DecidableEq

namespace SqlTableItem

/-- `is_valid`. -/
def isValid (t : SqlTableItem) : Bool :=
  t.tableName ≠ [] && !t.columnItems.isEmpty && t.columnItems.all (·.isValid)

/-- `has_column` of a name. -/
def hasColumnName (t : SqlTableItem) (columnName : Text) : Bool :=
  t.columnItems.any fun column => column.columnName = columnName

/-- `has_column` of a column item. -/
def hasColumn (t : SqlTableItem) (column : SqlColumnItem) : Bool :=
  t.columnItems.any fun item => item.eq column

/-- `get_column_info`. -/
def getColumnInfo (t : SqlTableItem) (columnName : Text) : Option SqlColumnItem :=
  t.columnItems.find? fun column => column.columnName = columnName

/-- A column the table has is there under its name. -/
theorem hasColumnName_of_hasColumn {t : SqlTableItem} {column : SqlColumnItem} (h : t.hasColumn column = true) :
    t.hasColumnName column.columnName = true := by
  obtain ⟨item, hitem, heq⟩ := List.any_eq_true.1 h
  refine List.any_eq_true.2 ⟨item, hitem, ?_⟩
  simp only [SqlColumnItem.eq, Bool.and_eq_true, decide_eq_true_eq] at heq
  exact decide_eq_true heq.1.2

theorem getColumnInfo_isSome {t : SqlTableItem} {columnName : Text} :
    (t.getColumnInfo columnName).isSome = t.hasColumnName columnName := by
  rw [Bool.eq_iff_iff, getColumnInfo, hasColumnName, List.find?_isSome, List.any_eq_true]

/-- What is found under a name is a column of the table, of that name. -/
theorem getColumnInfo_spec {t : SqlTableItem} {columnName : Text} {column : SqlColumnItem}
    (h : t.getColumnInfo columnName = some column) :
    t.hasColumn column = true ∧ column.columnName = columnName := by
  refine ⟨List.any_eq_true.2 ⟨column, List.mem_of_find?_eq_some h, by simp [SqlColumnItem.eq]⟩, ?_⟩
  simpa using List.find?_some h

end SqlTableItem

/-- What an `ICondition` pointer points to, as the database code sees it: a range
condition is asked for its integer intervals, of anything else it asks nothing. -/
inductive ICondition
  | range (integerIntervals : List (SingleInterval Int64))
  | other
  deriving DecidableEq

/-- `SqlConditionItem`; without `condition` the pointer is null. -/
structure SqlConditionItem where
  isSet : Bool
  columnInfo : SqlColumnItem
  condition : Option ICondition
  isDescOrder : Option Bool
  deriving DecidableEq

end ProjectTrans
