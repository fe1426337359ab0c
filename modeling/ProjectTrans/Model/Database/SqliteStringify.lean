import ProjectTrans.Lib.Buffer
import ProjectTrans.Model.Database.SqlSchema

/-!
# Rendering conditions (`database/sqlite_stringify`)
-/

namespace ProjectTrans

open Wire

/-- `SqlSignConfig`. -/
structure SqlSignConfig where
  placeHolderSign : Text
  equalSign : Text
  lessThanSign : Text
  greaterThanSign : Text
  commaSign : Text
  spaceSign : Text
  orSign : Text
  andSign : Text
  leftParenthesis : Text
  rightParenthesis : Text
  deriving DecidableEq

/-- Its default member values. -/
def SqlSignConfig.default : SqlSignConfig where
  placeHolderSign := "?".toList
  equalSign := "=".toList
  lessThanSign := "<".toList
  greaterThanSign := ">".toList
  commaSign := ",".toList
  spaceSign := " ".toList
  orSign := "OR".toList
  andSign := "AND".toList
  leftParenthesis := "(".toList
  rightParenthesis := ")".toList

/-- `SqliteStringify`. -/
structure SqliteStringify where
  signConfig : SqlSignConfig
  deriving DecidableEq

namespace SqliteStringify

/-- `try_format_data_type`. -/
def tryFormatDataType (type : DataType) : Option Text :=
  if isIntegerType type then some "INTEGER".toList
  else if type = .float || type = .double then some "REAL".toList
  else if type = .bool then some "INTEGER".toList
  else if type = .string then some "TEXT".toList
  else if type = .byteArray then some "BLOB".toList
  else if type = .null then some "NULL".toList
  else none

variable (s : SqliteStringify)

/-- `try_format_integer_interval`. -/
def tryFormatIntegerInterval (interval : SingleInterval Int64) (columnName : Text) : Option Text :=
  let sign := s.signConfig
  let leftCondition :=
    if interval.left.value.isSome then
      columnName ++ sign.spaceSign ++
        (if interval.left.isOpen then sign.greaterThanSign else sign.greaterThanSign ++ sign.equalSign) ++
        sign.spaceSign ++ sign.placeHolderSign
    else []
  let rightCondition :=
    if interval.right.value.isSome then
      columnName ++ sign.spaceSign ++
        (if interval.right.isOpen then sign.lessThanSign else sign.lessThanSign ++ sign.equalSign) ++
        sign.spaceSign ++ sign.placeHolderSign
    else []
  if leftCondition.isEmpty && rightCondition.isEmpty then none
  else
    let result :=
      if !leftCondition.isEmpty && !rightCondition.isEmpty then
        leftCondition ++ sign.spaceSign ++ sign.andSign ++ sign.spaceSign ++ rightCondition
      else if leftCondition.isEmpty then rightCondition
      else leftCondition
    some (sign.leftParenthesis ++ sign.spaceSign ++ result ++ sign.spaceSign ++ sign.rightParenthesis)

/-- The intervals of a condition: the cast to `IRangeCondition` has to succeed. -/
def getIntegerIntervals (item : SqlConditionItem) : Checked (List (SingleInterval Int64)) :=
  match item.condition with
  | some (.range intervals) => .ok intervals
  | _ => .error .nullPointer

/-- The texts of the intervals that have one, joined by OR. -/
def formatIntervals (columnName : Text) (intervals : List (SingleInterval Int64)) : Text :=
  let sign := s.signConfig
  (intervals.filterMap fun interval => s.tryFormatIntegerInterval interval columnName).foldl
    (Text.appendWith (sign.spaceSign ++ sign.orSign ++ sign.spaceSign)) []

/-- `try_format_range_condition`. -/
def tryFormatRangeCondition (item : SqlConditionItem) : Checked (Option Text) :=
  if !isIntegerType item.columnInfo.dataType then .ok none
  else do
    let intervals ← getIntegerIntervals item
    if intervals.isEmpty then return none
    else return some (s.formatIntervals item.columnInfo.columnName intervals)

/-- `try_format_text_condition`: texts have no rendering. -/
def tryFormatTextCondition (_item : SqlConditionItem) : Option Text := none

/-- `try_format_condition`. -/
def tryFormatCondition (item : SqlConditionItem) : Checked (Option Text) :=
  if isIntegerType item.columnInfo.dataType then s.tryFormatRangeCondition item
  else if isStringType item.columnInfo.dataType then .ok (tryFormatTextCondition item)
  else .ok none

end SqliteStringify

end ProjectTrans
