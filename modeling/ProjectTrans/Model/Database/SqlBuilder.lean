import ProjectTrans.Model.Database.SqliteStringify

/-!
# Building statements (`database/sql_builder`)

Statement texts are accumulated column by column and condition by condition. What cannot
be rendered is left out with a warning.
-/

namespace ProjectTrans

open Wire

/-- `SqlBuilder`; a pointer that is not set is `none`. -/
structure SqlBuilder where
  tableInfo : Option SqlTableItem
  sqlStringify : Option SqliteStringify
  deriving DecidableEq

/-- Follow a pointer. -/
def deref {α : Type*} (p : Option α) : Checked α :=
  match p with
  | some a => .ok a
  | none => .error .nullPointer

namespace SqlBuilder

variable (b : SqlBuilder)

/-- The text of one column in CREATE TABLE. -/
def columnDefinition (column : SqlColumnItem) (typeString : Text) : Text :=
  column.columnName ++ " ".toList ++ typeString ++
    (if column.isPrimaryKey then " PRIMARY KEY".toList else []) ++
    (if column.isNotNull then " NOT NULL".toList else []) ++
    (if column.isUnique then " UNIQUE".toList else []) ++
    (if column.defaultValue.isSome then " DEFAULT ?".toList else [])

/-- The loop of `build_create_table_string`. -/
def columnDefinitions (sign : SqlSignConfig) (acc : Text) : List SqlColumnItem → Option Text
  | [] => some acc
  | column :: rest =>
    match SqliteStringify.tryFormatDataType column.dataType with
    | none => none
    | some typeString =>
      columnDefinitions sign
        (Text.appendWith (sign.commaSign ++ sign.spaceSign) acc (columnDefinition column typeString)) rest

/-- `build_create_table_string`. -/
def buildCreateTableString : Checked (Option Text) := do
  let table ← deref b.tableInfo
  match b.sqlStringify with
  | none => return none
  | some stringify =>
    if !table.isValid then return none
    else
      match columnDefinitions stringify.signConfig [] table.columnItems with
      | none => return none
      | some fields =>
        return some ("CREATE TABLE".toList ++ (if table.isUnique then " IF NOT EXISTS".toList else []) ++
          " ".toList ++ table.tableName ++ " (".toList ++ fields ++ ");".toList)

/-- The ordering a condition asks for. -/
def orderBy (columnName : Text) (desc : Bool) : Text :=
  " ORDER BY".toList ++ " ".toList ++ columnName ++ (if desc then " DESC".toList else " ASC".toList)

/-- The loop of `build_condition_string`. No iteration sets `isSetOrder`. -/
def conditionLoop (table : SqlTableItem) (stringify : SqliteStringify) (isSetOrder : Bool) (acc : Text) :
    List SqlConditionItem → Checked (Option Text)
  | [] => .ok (some acc)
  | item :: rest =>
    if !item.isSet then conditionLoop table stringify isSetOrder acc rest
    else if !table.hasColumn item.columnInfo then conditionLoop table stringify isSetOrder acc rest
    else do
      match ← stringify.tryFormatCondition item with
      | none => conditionLoop table stringify isSetOrder acc rest
      | some single =>
        let sign := stringify.signConfig
        let acc := Text.appendWith (sign.spaceSign ++ sign.andSign ++ sign.spaceSign) acc single
        match item.isDescOrder with
        | none => conditionLoop table stringify isSetOrder acc rest
        | some desc =>
          if isSetOrder then return none
          else conditionLoop table stringify isSetOrder (acc ++ orderBy item.columnInfo.columnName desc) rest

/-- `build_condition_string`. -/
def buildConditionString (conditionItems : List SqlConditionItem) : Checked (Option Text) := do
  let table ← deref b.tableInfo
  match b.sqlStringify with
  | none => return none
  | some stringify =>
    if !table.isValid then return none
    else
      match ← conditionLoop table stringify false [] conditionItems with
      | none => return none
      | some conditionString => return if conditionString.isEmpty then none else some conditionString

/-- The loop over a list of columns: `piece` of those the table has, the others being
skipped with a warning. The signs are asked for only where one is written. -/
def columnLoop (table : SqlTableItem) (piece : SqlColumnItem → Checked Text) (acc : Text) :
    List SqlColumnItem → Checked Text
  | [] => .ok acc
  | column :: rest =>
    if !table.hasColumn column then columnLoop table piece acc rest
    else do
      let acc ←
        if acc.isEmpty then pure acc
        else do
          let stringify ← deref b.sqlStringify
          pure (acc ++ (stringify.signConfig.commaSign ++ stringify.signConfig.spaceSign))
      let single ← piece column
      columnLoop table piece (acc ++ single) rest

/-- `build_dest_columns_string`. -/
def buildDestColumnsString (columnItems : List SqlColumnItem) : Checked (Option Text) := do
  let table ← deref b.tableInfo
  if !table.isValid then return none
  else if columnItems.isEmpty then return none
  else return some (← b.columnLoop table (fun column => .ok column.columnName) [] columnItems)

/-- `build_insert_string`. -/
def buildInsertString (destColumnItems : List SqlColumnItem) : Checked (Option Text) := do
  let table ← deref b.tableInfo
  if !table.isValid then return none
  else
    match ← b.buildDestColumnsString destColumnItems with
    | none => return none
    | some destColumns =>
      let placeHolders ← b.columnLoop table (fun _ => do
        let stringify ← deref b.sqlStringify
        return stringify.signConfig.placeHolderSign) [] destColumnItems
      return some ("INSERT INTO ".toList ++ table.tableName ++ " (".toList ++ destColumns ++
        ") VALUES (".toList ++ placeHolders ++ ");".toList)

/-- `build_select_string`. -/
def buildSelectString (destColumnItems : List SqlColumnItem) (conditionItems : List SqlConditionItem) :
    Checked (Option Text) := do
  let table ← deref b.tableInfo
  if !table.isValid then return none
  else
    let destColumns ← b.buildDestColumnsString destColumnItems
    let condition ← b.buildConditionString conditionItems
    return some ("SELECT ".toList ++ destColumns.getD "*".toList ++ " FROM ".toList ++ table.tableName ++
      (match condition with
        | some condition => " WHERE ".toList ++ condition
        | none => []))

/-- `build_update_string`. -/
def buildUpdateString (destColumnItems : List SqlColumnItem) (conditionItems : List SqlConditionItem)
    (enableAll : Bool) : Checked (Option Text) := do
  let table ← deref b.tableInfo
  if !table.isValid then return none
  else
    let destColumns ← b.columnLoop table (fun column => do
      let stringify ← deref b.sqlStringify
      return column.columnName ++ " = ".toList ++ stringify.signConfig.placeHolderSign) [] destColumnItems
    if destColumns.isEmpty then return none
    else
      match ← b.buildConditionString conditionItems with
      | some condition =>
        return some ("UPDATE ".toList ++ table.tableName ++ " SET ".toList ++ destColumns ++
          " WHERE ".toList ++ condition)
      | none =>
        if enableAll then
          return some ("UPDATE ".toList ++ table.tableName ++ " SET ".toList ++ destColumns)
        else return none

/-- `build_delete_string`. -/
def buildDeleteString (conditionItems : List SqlConditionItem) (enableAll : Bool) : Checked (Option Text) := do
  let table ← deref b.tableInfo
  if !table.isValid then return none
  else
    match ← b.buildConditionString conditionItems with
    | some condition => return some ("DELETE FROM ".toList ++ table.tableName ++ " WHERE ".toList ++ condition)
    | none =>
      if enableAll then return some ("DELETE FROM ".toList ++ table.tableName)
      else return none

/-- `build_count_string`. -/
def buildCountString (conditionItems : List SqlConditionItem) : Checked (Option Text) := do
  let table ← deref b.tableInfo
  if !table.isValid then return none
  else
    match ← b.buildConditionString conditionItems with
    | some condition =>
      return some ("SELECT COUNT(*) FROM ".toList ++ table.tableName ++ " WHERE ".toList ++ condition)
    | none => return some ("SELECT COUNT(*) FROM ".toList ++ table.tableName)

end SqlBuilder

end ProjectTrans
