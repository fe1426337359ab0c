import ProjectTrans.Lib.SqlRead
import ProjectTrans.Model.Database.SqliteDriver
import ProjectTrans.Proof.Database.Where

/-!
# Running statements on entities

What a query runs for conditions that columns have given values, and for cells of all
columns: the text is fixed by the columns, and the values are bound in its order. With the
text read, the statement is executed as SQL has it.
-/

namespace ProjectTrans

open Wire Predicate SqlConditionItem

/-! ## Conditions on values -/

/-- The condition that a column has a value. -/
def ColumnRange.point (p : SqlColumnItem × Int64) : ColumnRange := ⟨p.1, .ofPoint p.2⟩

/-- Conditions that columns have values. -/
def pointItems (points : List (SqlColumnItem × Int64)) : List SqlConditionItem :=
  (points.map ColumnRange.point).map ColumnRange.item

/-- An integer column that can be asked about. -/
structure SqlTableItem.Asks (table : SqlTableItem) (column : SqlColumnItem) : Prop where
  hasColumn : table.hasColumn column = true
  integer : isIntegerType column.dataType = true
  identifier : Identifier column.columnName

/-- The names of the columns. -/
def pointNames (points : List (SqlColumnItem × Int64)) : List Text := points.map fun p => p.1.columnName

/-- The values bound for them: each twice. -/
def pointCells (points : List (SqlColumnItem × Int64)) : List SqlCell :=
  points.flatMap fun p => [.ofInt64 p.2, .ofInt64 p.2]

def pointValues (points : List (SqlColumnItem × Int64)) : List SqliteValue :=
  points.flatMap fun p => [.integer p.2, .integer p.2]

variable {table : SqlTableItem} {points : List (SqlColumnItem × Int64)}

theorem SqlTableItem.Asks.proper {p : SqlColumnItem × Int64} (h : table.Asks p.1) :
    (ColumnRange.point p).Proper table :=
  ⟨h.hasColumn, h.integer, h.identifier, ⟨.point p.2, [], rfl⟩, rfl⟩

theorem points_proper (h : ∀ p ∈ points, table.Asks p.1) :
    ∀ c ∈ points.map ColumnRange.point, c.Proper table := by
  intro c hc
  obtain ⟨p, hp, rfl⟩ := List.mem_map.1 hc
  exact (h p hp).proper

/-- The text of a point condition. -/
theorem point_text (p : SqlColumnItem × Int64) : (ColumnRange.point p).text = Sql.betweenText p.1.columnName := by
  have hfilter : (ColumnRange.point p).text =
      ([SqliteStringify.tryFormatIntegerInterval ⟨.default⟩ (.ofPoint p.2) p.1.columnName].filterMap id).foldl
        (Text.appendWith " OR ".toList) [] := rfl
  rw [hfilter, intervalTemplate_chars]
  simp only [intervalTemplate, SingleInterval.ofPoint, EndpointRange.new, Option.map_some]
  simp [Piece.chars, Sql.betweenText]

/-- **The clause** of point conditions. -/
theorem clause_points (h : ∀ p ∈ points, table.Asks p.1) :
    clause table ⟨.default⟩ (pointItems points) = Sql.joined " AND ".toList
      ((pointNames points).map Sql.betweenText) := by
  have htexts : (points.map ColumnRange.point).map ColumnRange.text =
      (pointNames points).map Sql.betweenText := by
    rw [pointNames, List.map_map, List.map_map]
    exact List.map_congr_left fun p _ => point_text p
  rw [pointItems, ColumnRange.clause_eq (points_proper h), htexts]
  rfl

/-- What is built of point conditions. -/
theorem buildConditionString_points (hv : table.isValid = true) (h : ∀ p ∈ points, table.Asks p.1) :
    SqlBuilder.buildConditionString ⟨some table, some ⟨.default⟩⟩ (pointItems points) =
      .ok (if points = [] then none
        else some (Sql.joined " AND ".toList ((pointNames points).map Sql.betweenText))) := by
  have hfaults : ∀ item ∈ pointItems points, ¬item.Faults table := by
    intro item hitem
    obtain ⟨c, -, rfl⟩ := List.mem_map.1 hitem
    exact ColumnRange.item_not_faults table c
  rw [buildConditionString_eq hv hfaults, clause_points h]
  by_cases hnil : points = []
  · subst hnil
    rfl
  · have hne : ¬(Sql.joined " AND ".toList ((pointNames points).map Sql.betweenText)).isEmpty = true := by
      obtain ⟨p, rest, rfl⟩ := List.exists_cons_of_ne_nil hnil
      rw [List.isEmpty_iff, Sql.joined, Text.foldl_appendWith_eq_nil]
      rintro ⟨-, hall⟩
      exact absurd (hall _ List.mem_cons_self) (by simp [Sql.betweenText])
    rw [if_neg hne, if_neg hnil]

/-- What is bound for point conditions. -/
theorem bindConditions_points (h : ∀ p ∈ points, table.Asks p.1) (s : Statement) :
    SqlTableQuery.bindConditions table s (pointItems points) = .ok (s.bindAll (pointCells points)) := by
  obtain ⟨s', hs'⟩ := ColumnRange.bindConditions_items (points_proper h) s
  have hbound : boundConditions table (pointItems points) = pointCells points := by
    rw [pointItems, ColumnRange.boundConditions_items (points_proper h), List.flatMap_map, List.map_flatMap]
    rfl
  rw [pointItems, hs', bindConditions_ok hs', ← hbound]
  rfl

/-! ## What the query runs -/

/-- Conditions on columns end a statement. -/
theorem conditionText_points (points : List (SqlColumnItem × Int64)) (front : Text) :
    (if points = [] then front
      else front ++ " WHERE ".toList ++ Sql.joined " AND ".toList ((pointNames points).map Sql.betweenText)) =
        front ++ Sql.conditionText (pointNames points) := by
  unfold Sql.conditionText
  by_cases hnil : points = []
  · subst hnil
    exact (List.append_nil front).symm
  · have hnames : ¬pointNames points = [] := by rwa [pointNames, List.map_eq_nil_iff]
    rw [if_neg hnil, if_neg hnames, List.append_assoc]

/-- A valid table with names that SQL takes as names. -/
structure SqlTableItem.Named (table : SqlTableItem) : Prop where
  isValid : table.isValid = true
  name : Identifier table.tableName
  columns : ∀ column ∈ table.columnItems, Identifier column.columnName

instance (table : SqlTableItem) : Decidable table.Named :=
  decidable_of_iff (table.isValid = true ∧ Identifier table.tableName ∧
      ∀ column ∈ table.columnItems, Identifier column.columnName)
    ⟨fun h => ⟨h.1, h.2.1, h.2.2⟩, fun h => ⟨h.isValid, h.name, h.columns⟩⟩

/-- What is prepared is a text that SQL reads as a statement, with cells bound in order. -/
def Prepares (result : Checked (Option Statement)) (statement : Sql.Statement) (cells : List SqlCell) : Prop :=
  ∃ sql, result = .ok (some ((Statement.prepare sql).bindAll cells)) ∧ Sql.read sql = some statement

/-- The text that was written is read as the statement. -/
def IsRead (statement : Sql.Statement) : Checked (Option Statement) → Bool
  | .ok (some s) => decide (s = .prepare s.sql ∧ Sql.read s.sql = some statement)
  | _ => false

theorem prepares_of_isRead {result : Checked (Option Statement)} {statement : Sql.Statement}
    (h : IsRead statement result = true) : Prepares result statement [] := by
  rcases result with e | _ | s
  · cases h
  · cases h
  · obtain ⟨hprepare, hread⟩ := of_decide_eq_true h
    refine ⟨s.sql, ?_, hread⟩
    rw [Statement.bindAll_nil, ← hprepare]

theorem SqlTableItem.hasColumn_of_mem {column : SqlColumnItem} (h : column ∈ table.columnItems) :
    table.hasColumn column = true :=
  List.any_eq_true.2 ⟨column, h, by simp [SqlColumnItem.eq]⟩

theorem SqlTableItem.hasColumnName_of_mem {n : Text} (h : n ∈ table.columnItems.map (·.columnName)) :
    table.hasColumnName n = true := by
  obtain ⟨column, hcolumn, rfl⟩ := List.mem_map.1 h
  exact hasColumnName_of_hasColumn (hasColumn_of_mem hcolumn)

/-- Integer columns can be asked about. -/
theorem SqlTableItem.Named.asks (T : table.Named) {column : SqlColumnItem} (h : column ∈ table.columnItems)
    (hinteger : isIntegerType column.dataType = true) : table.Asks column :=
  ⟨hasColumn_of_mem h, hinteger, T.columns column h⟩

section Statements

variable {columns : List SqlColumnItem} (hne : columns ≠ [])
  (hsub : ∀ column ∈ columns, column ∈ table.columnItems)

include hsub in
theorem columnLoop_joined {piece : SqlColumnItem → Checked Text} {f : SqlColumnItem → Text}
    (hpiece : ∀ column, piece column = .ok (f column)) :
    SqlBuilder.columnLoop ⟨some table, some ⟨.default⟩⟩ table piece [] columns =
      .ok (Sql.joined ", ".toList (columns.map f)) := by
  have hcolumns : ∀ column ∈ columns, table.hasColumn column = true :=
    fun column hcolumn => SqlTableItem.hasColumn_of_mem (hsub column hcolumn)
  rw [columnLoop_eq hpiece, List.filter_eq_self.2 hcolumns, Sql.joined, List.foldl_map]

variable (T : table.Named)

include T

include hsub in
theorem identifier_names : ∀ n ∈ columns.map (·.columnName), Identifier n := by
  intro n hn
  obtain ⟨column, hcolumn, rfl⟩ := List.mem_map.1 hn
  exact T.columns column (hsub column hcolumn)

include hne hsub in
theorem buildDestColumnsString_joined :
    SqlBuilder.buildDestColumnsString ⟨some table, some ⟨.default⟩⟩ columns =
      .ok (some (Sql.joined ", ".toList (columns.map (·.columnName)))) := by
  have hempty : ¬columns.isEmpty = true := by simpa using hne
  simp only [SqlBuilder.buildDestColumnsString, deref, Checked.ok_bind, T.isValid, Bool.not_true,
    Bool.false_eq_true, if_false, if_neg hempty, columnLoop_joined hsub (fun _ => rfl)]
  rfl

include hne hsub in
/-- **INSERT** is prepared for cells. -/
theorem prepares_insert {cells : List SqlCell} (hcells : SqlTableQuery.getDestColumns table cells = columns)
    (hnames : ∀ cell ∈ cells, table.hasColumnName cell.columnName = true) :
    Prepares ((SqlTableQuery.onDefault table).insert cells) (.insert table.tableName (columns.map (·.columnName)))
      cells := by
  -- one hole for each column
  have hholes : SqlBuilder.columnLoop ⟨some table, some ⟨.default⟩⟩ table (fun _ => do
      let stringify ← deref (some ⟨.default⟩ : Option SqliteStringify)
      return stringify.signConfig.placeHolderSign) [] columns =
        .ok (Sql.joined ", ".toList (columns.map fun _ => ['?'])) :=
    columnLoop_joined hsub (fun _ => rfl)
  have hbuild : SqlBuilder.buildInsertString ⟨some table, some ⟨.default⟩⟩ columns =
      .ok (some ("INSERT INTO ".toList ++ table.tableName ++ " (".toList ++
        Sql.joined ", ".toList (columns.map (·.columnName)) ++ ") VALUES (".toList ++
          Sql.joined ", ".toList (columns.map fun _ => ['?']) ++ ");".toList)) := by
    unfold SqlBuilder.buildInsertString
    rw [deref, Checked.ok_bind, if_neg (by simp [T.isValid]), buildDestColumnsString_joined hne hsub T,
      Checked.ok_bind]
    dsimp only
    rw [hholes]
    rfl
  have hread := Sql.read_insert T.name (by simpa using hne) (identifier_names hsub T)
  rw [List.map_map] at hread
  refine ⟨_, ?_, hread⟩
  show (SqlBuilder.buildInsertString ⟨some table, some ⟨.default⟩⟩
    (SqlTableQuery.getDestColumns table cells) >>= _) = _
  rw [hcells, hbuild, Checked.ok_bind]
  dsimp only
  rw [bindCells_eq, List.filter_eq_self.2 hnames]
  rfl

variable (h : ∀ p ∈ points, table.Asks p.1)

include h

omit T in
theorem identifier_points : ∀ n ∈ pointNames points, Identifier n := by
  intro n hn
  obtain ⟨p, hp, rfl⟩ := List.mem_map.1 hn
  exact (h p hp).identifier

/-- **DELETE** is prepared for conditions. -/
theorem prepares_remove (hpoints : points ≠ []) :
    Prepares ((SqlTableQuery.onDefault table).remove (pointItems points))
      (.delete table.tableName (Sql.conditionExpr (pointNames points))) (pointCells points) := by
  have hbuild : SqlBuilder.buildDeleteString ⟨some table, some ⟨.default⟩⟩ (pointItems points) false =
      .ok (some ("DELETE FROM ".toList ++ table.tableName ++ Sql.conditionText (pointNames points))) := by
    simp only [SqlBuilder.buildDeleteString, deref, Checked.ok_bind, T.isValid, Bool.not_true, Bool.false_eq_true,
      if_false, buildConditionString_points T.isValid h, if_neg hpoints]
    rw [← conditionText_points, if_neg hpoints]
    rfl
  refine ⟨_, ?_, Sql.read_delete T.name (identifier_points h)⟩
  show (SqlBuilder.buildDeleteString ⟨some table, some ⟨.default⟩⟩ (pointItems points) false >>= _) = _
  rw [hbuild, Checked.ok_bind]
  dsimp only
  rw [bindConditions_points h]
  rfl

/-- **SELECT COUNT** is prepared for conditions. -/
theorem prepares_count :
    Prepares ((SqlTableQuery.onDefault table).count (pointItems points))
      (.count table.tableName (Sql.conditionExpr (pointNames points))) (pointCells points) := by
  have hbuild : SqlBuilder.buildCountString ⟨some table, some ⟨.default⟩⟩ (pointItems points) =
      .ok (some ("SELECT COUNT(*) FROM ".toList ++ table.tableName ++
        Sql.conditionText (pointNames points))) := by
    simp only [SqlBuilder.buildCountString, deref, Checked.ok_bind, T.isValid, Bool.not_true, Bool.false_eq_true,
      if_false, buildConditionString_points T.isValid h]
    rw [← conditionText_points]
    by_cases hnil : points = []
    · rw [if_pos hnil, if_pos hnil]
      rfl
    · rw [if_neg hnil, if_neg hnil]
      rfl
  refine ⟨_, ?_, Sql.read_count T.name (identifier_points h)⟩
  show (SqlBuilder.buildCountString ⟨some table, some ⟨.default⟩⟩ (pointItems points) >>= _) = _
  rw [hbuild, Checked.ok_bind]
  dsimp only
  rw [bindConditions_points h]
  rfl

include hne hsub

/-- **SELECT** is prepared for conditions. -/
theorem prepares_select :
    Prepares ((SqlTableQuery.onDefault table).select columns (pointItems points))
      (.select (columns.map (·.columnName)) table.tableName (Sql.conditionExpr (pointNames points)))
        (pointCells points) := by
  have hbuild : SqlBuilder.buildSelectString ⟨some table, some ⟨.default⟩⟩ columns (pointItems points) =
      .ok (some ("SELECT ".toList ++ Sql.joined ", ".toList (columns.map (·.columnName)) ++ " FROM ".toList ++
        table.tableName ++ Sql.conditionText (pointNames points))) := by
    simp only [SqlBuilder.buildSelectString, deref, Checked.ok_bind, T.isValid, Bool.not_true, Bool.false_eq_true,
      if_false, buildConditionString_points T.isValid h, buildDestColumnsString_joined hne hsub T,
      Option.getD_some]
    rw [← conditionText_points]
    by_cases hnil : points = []
    · rw [if_pos hnil, if_pos hnil]
      show Except.ok (some (_ ++ [])) = _
      rw [List.append_nil]
    · rw [if_neg hnil, if_neg hnil]
      show Except.ok (some (_ ++ (" WHERE ".toList ++ _))) = _
      rw [← List.append_assoc]
  refine ⟨_, ?_, Sql.read_select T.name (by simpa using hne) (identifier_names hsub T) (identifier_points h)⟩
  show (SqlBuilder.buildSelectString ⟨some table, some ⟨.default⟩⟩ columns (pointItems points) >>= _) = _
  rw [hbuild, Checked.ok_bind]
  dsimp only
  rw [bindConditions_points h]
  rfl

/-- **UPDATE** is prepared for cells and conditions. -/
theorem prepares_update (hpoints : points ≠ []) {cells : List SqlCell}
    (hcells : SqlTableQuery.getDestColumns table cells = columns)
    (hnames : ∀ cell ∈ cells, table.hasColumnName cell.columnName = true) :
    Prepares ((SqlTableQuery.onDefault table).update cells (pointItems points))
      (.update table.tableName (columns.map (·.columnName)) (Sql.conditionExpr (pointNames points)))
        (cells ++ pointCells points) := by
  have hset : SqlBuilder.columnLoop ⟨some table, some ⟨.default⟩⟩ table (fun column => do
      let stringify ← deref (SqlBuilder.mk (some table) (some ⟨.default⟩)).sqlStringify
      return column.columnName ++ " = ".toList ++ stringify.signConfig.placeHolderSign) [] columns =
        .ok (Sql.joined ", ".toList
          (columns.map fun column => column.columnName ++ " = ".toList ++ "?".toList)) :=
    columnLoop_joined hsub (fun _ => rfl)
  -- the SET list is not empty, so the builder goes on
  have hempty :
      ¬(Sql.joined ", ".toList
        (columns.map fun column => column.columnName ++ " = ".toList ++ "?".toList)).isEmpty = true := by
    obtain ⟨column, rest, rfl⟩ := List.exists_cons_of_ne_nil hne
    rw [List.isEmpty_iff, Sql.joined, Text.foldl_appendWith_eq_nil]
    rintro ⟨-, hall⟩
    exact absurd (hall _ List.mem_cons_self) (by simp)
  have hbuild : SqlBuilder.buildUpdateString ⟨some table, some ⟨.default⟩⟩ columns (pointItems points) false =
      .ok (some ("UPDATE ".toList ++ table.tableName ++ " SET ".toList ++
        Sql.joined ", ".toList (columns.map fun column => column.columnName ++ " = ".toList ++ "?".toList) ++
          Sql.conditionText (pointNames points))) := by
    unfold SqlBuilder.buildUpdateString
    rw [deref, Checked.ok_bind, if_neg (by simp [T.isValid]), hset, Checked.ok_bind, if_neg hempty,
      buildConditionString_points T.isValid h, if_neg hpoints, ← conditionText_points, if_neg hpoints]
    rfl
  have hbind : ∀ s, SqlTableQuery.bindCells table cells s = s.bindAll cells := by
    intro s
    rw [bindCells_eq, List.filter_eq_self.2 hnames]
  have hread := Sql.read_update T.name (by simpa using hne) (identifier_names hsub T) (identifier_points h)
  rw [List.map_map] at hread
  refine ⟨_, ?_, hread⟩
  show (SqlBuilder.buildUpdateString ⟨some table, some ⟨.default⟩⟩ (SqlTableQuery.getDestColumns table cells)
    (pointItems points) false >>= _) = _
  rw [hcells, hbuild, Checked.ok_bind]
  dsimp only
  rw [hbind, bindConditions_points h, Statement.bindAll_append]
  rfl

end Statements

/-! ## What SQLite does -/

section Execute

variable (widen : UInt32 → UInt64) (owned : Bool) (db : Sql.Database) (choice : Sql.Choice)

/-- **A statement that is bound in order** is executed with the values of its cells. -/
theorem execute_bindAll {sql : Text} {statement : Sql.Statement} {cells : List SqlCell}
    {values : List SqliteValue} (hread : Sql.read sql = some statement)
    (hvalues : cells.mapM (SqliteDriver.boundValue widen owned) = some values) :
    SqliteDriver.execute widen owned db choice ((Statement.prepare sql).bindAll cells) =
      Sql.exec db choice values statement := by
  have hbinds : ((Statement.prepare sql).bindAll cells).binds = Statement.numbered 1 cells := by
    rw [Statement.bindAll_eq]
    rfl
  have hindices : (Statement.numbered 1 cells).map Prod.fst = List.range' 1
      (Statement.numbered 1 cells).length := by
    rw [Statement.numbered_length, Statement.numbered, List.map_map]
    exact List.zipIdx_map_snd 1 cells
  have hcells : (Statement.numbered 1 cells).mapM (fun b => SqliteDriver.boundValue widen owned b.2) =
      some values := by
    rw [← hvalues, Statement.numbered, List.mapM_map]
    conv_rhs => rw [← List.zipIdx_map_fst 1 cells, List.mapM_map]
    rfl
  have hsql : ((Statement.prepare sql).bindAll cells).sql = sql := by
    rw [Statement.bindAll_eq]
    rfl
  unfold SqliteDriver.execute SqliteDriver.boundValues
  rw [hsql, hread, hbinds, if_pos hindices, hcells]
  rfl

theorem executeCommand_eq {s : Statement} {result : Option (Sql.Database × Sql.Outcome)}
    (h : SqliteDriver.execute widen owned db choice s = result) :
    SqliteDriver.executeCommand widen owned db choice s = result.map fun r => (r.1, decide (r.2 = .done)) := by
  unfold SqliteDriver.executeCommand
  rw [h]
  cases result with
  | none => rfl
  | some r =>
    obtain ⟨db, outcome⟩ := r
    cases outcome <;> rfl

/-- The values of point conditions are bound as integers. -/
theorem mapM_pointCells (points : List (SqlColumnItem × Int64)) :
    (pointCells points).mapM (SqliteDriver.boundValue widen owned) = some (pointValues points) := by
  induction points with
  | nil => rfl
  | cons p points ih =>
    have hcells : pointCells (p :: points) = [.ofInt64 p.2, .ofInt64 p.2] ++ pointCells points := rfl
    have htwo : [SqlCell.ofInt64 p.2, SqlCell.ofInt64 p.2].mapM (SqliteDriver.boundValue widen owned) =
        some [.integer p.2, .integer p.2] := rfl
    rw [hcells, List.mapM_append, ih, htwo]
    rfl

end Execute

/-! ## The query on a table of entities -/

/-- A column as SQL has it. -/
def SqlColumnItem.sqlColumn (column : SqlColumnItem) : Sql.Column where
  name := column.columnName
  type := if column.dataType = .string then "TEXT".toList else "INTEGER".toList
  primaryKey := column.isPrimaryKey
  notNull := column.isNotNull
  unique := column.isUnique

/-- The columns of a table as SQL has them. -/
def SqlTableItem.sqlColumns (table : SqlTableItem) : List Sql.Column := table.columnItems.map (·.sqlColumn)

/-- Their names. -/
def SqlTableItem.columnNames (table : SqlTableItem) : List Text := table.columnItems.map (·.columnName)

theorem SqlTableItem.mem_of_mem_tail (table : SqlTableItem) :
    ∀ column ∈ table.columnItems.tail, column ∈ table.columnItems :=
  fun _ => List.mem_of_mem_tail

/-- Cells that are named after columns. -/
theorem SqlTableItem.hasColumnName_of_names {cells : List SqlCell}
    (h : cells.map (·.columnName) = table.columnNames.tail) :
    ∀ cell ∈ cells, table.hasColumnName cell.columnName = true := by
  intro cell hcell
  have hmem : cell.columnName ∈ table.columnNames.tail := h ▸ List.mem_map_of_mem hcell
  exact hasColumnName_of_mem (List.mem_of_mem_tail hmem)

section Entities

variable (widen : UInt32 → UInt64) (owned : Bool) {db db' : Sql.Database} (choice : Sql.Choice)

section Prepared

variable {result : Checked (Option Statement)} {statement : Sql.Statement} {cells : List SqlCell}
  {values : List SqliteValue} (h : Prepares result statement cells)
  (hvalues : cells.mapM (SqliteDriver.boundValue widen owned) = some values)

include h hvalues

/-- A command succeeds when its statement is done. -/
theorem command_done {outcome : Sql.Outcome} (hexec : Sql.exec db choice values statement = some (db', outcome)) :
    SqlTableQuery.command widen owned db choice result = some (db', decide (outcome = .done)) := by
  obtain ⟨sql, rfl, hread⟩ := h
  have h := execute_bindAll widen owned db choice hread hvalues
  rw [hexec] at h
  exact executeCommand_eq widen owned db choice h

/-- A query returns the rows of its statement. -/
theorem query_rows {names : List Text} {rows : List Sql.Row}
    (hexec : Sql.exec db choice values statement = some (db', .rows names rows)) :
    SqlTableQuery.query widen owned db choice result = some (db', SqliteDriver.queryCells names rows) := by
  obtain ⟨sql, rfl, hread⟩ := h
  have h := execute_bindAll widen owned db choice hread hvalues
  rw [hexec] at h
  show SqliteDriver.executeQuery widen owned db choice ((Statement.prepare sql).bindAll cells) = _
  unfold SqliteDriver.executeQuery
  rw [h]
  rfl

end Prepared

/-- **CREATE TABLE** makes an empty table, unless there is one. -/
theorem command_create {result : Checked (Option Statement)} {name : Text} {columns : List Sql.Column}
    (h : Prepares result (.createTable true name columns) []) :
    SqlTableQuery.command widen owned db choice result =
      some (if db name = none then Function.update db name (some ⟨columns, []⟩) else db, true) := by
  have hexec : Sql.exec db choice [] (.createTable true name columns) =
      some (if db name = none then Function.update db name (some ⟨columns, []⟩) else db, .done) := by
    rw [Sql.exec]
    cases db name <;> rfl
  exact command_done widen owned choice h rfl hexec

variable {E : Type*} {C : Sql.Coding E} {es : List E} {columns : List SqlColumnItem} {q : E → Bool}
  (T : table.Named) (hdb : db table.tableName = some (C.table es)) (hes : (es.map C.key).Nodup)
  (hC : C.columns = table.sqlColumns) (hne : columns ≠ []) (hsub : ∀ column ∈ columns, column ∈ table.columnItems)

include hC hsub in
/-- The columns of the table are those of the coding. -/
theorem exists_column : ∀ n ∈ columns.map (·.columnName), ∃ c ∈ C.columns, c.name = n := by
  intro n hn
  obtain ⟨column, hcolumn, rfl⟩ := List.mem_map.1 hn
  rw [hC]
  exact ⟨column.sqlColumn, List.mem_map_of_mem (hsub column hcolumn), rfl⟩

include T hdb

include hes hC hne hsub in
/-- **INSERT** of the cells of an entity. -/
theorem command_insert {cells : List SqlCell} {values : List SqliteValue} {e : E}
    (hcells : SqlTableQuery.getDestColumns table cells = columns)
    (hnames : ∀ cell ∈ cells, table.hasColumnName cell.columnName = true)
    (hvalues : cells.mapM (SqliteDriver.boundValue widen owned) = some values)
    (hlength : values.length = columns.length)
    (hrow : Sql.newRow C.columns choice.assigned ((columns.map (·.columnName)).zip values) = C.encode e) :
    SqlTableQuery.command widen owned db choice ((SqlTableQuery.onDefault table).insert cells) =
      some (if C.key e ∈ es.map C.key then (db, false)
        else (Function.update db table.tableName (some (C.table (es ++ [e]))), true)) := by
  have hexec := Sql.Coding.exec_insert hdb hes (by rw [hlength, List.length_map]) (exists_column hC hsub) hrow
  have hprepares := prepares_insert hne hsub T hcells hnames
  by_cases hmem : C.key e ∈ es.map C.key
  · rw [if_pos hmem] at hexec ⊢
    exact command_done widen owned choice hprepares hvalues hexec
  · rw [if_neg hmem] at hexec ⊢
    exact command_done widen owned choice hprepares hvalues hexec

variable (points) (h : ∀ p ∈ points, table.Asks p.1)
  (hq : ∀ e ∈ es, Sql.selects C.columns (Sql.conditionExpr (pointNames points)) (pointValues points)
    (C.encode e) = some (q e))

include h hq

/-- **DELETE** of the entities that satisfy conditions. -/
theorem command_remove (hpoints : points ≠ []) :
    SqlTableQuery.command widen owned db choice ((SqlTableQuery.onDefault table).remove (pointItems points)) =
      some (Function.update db table.tableName (some (C.table (es.filter fun e => q e = false))), true) :=
  command_done widen owned choice (prepares_remove T h hpoints) (mapM_pointCells widen owned points)
    (Sql.Coding.exec_delete hdb hq)

/-- **COUNT** of the entities that satisfy conditions. -/
theorem queryCount_count :
    SqlTableQuery.queryCount widen owned db choice ((SqlTableQuery.onDefault table).count (pointItems points)) =
      some (db, .ofNat (es.filter fun e => q e).length) := by
  have hquery := query_rows widen owned choice (prepares_count T h) (mapM_pointCells widen owned points)
    (Sql.Coding.exec_count hdb hq)
  unfold SqlTableQuery.queryCount
  rw [hquery]
  rfl

include hne hsub

/-- **SELECT** of the entities that satisfy conditions, in some order. -/
theorem query_select (hcells : ∀ e, (columns.map (·.columnName)).mapM (Sql.cell C.columns (C.encode e)) =
      some (C.encode e)) :
    ∃ es' : List E, es'.Perm (es.filter fun e => q e) ∧
      SqlTableQuery.query widen owned db choice
        ((SqlTableQuery.onDefault table).select columns (pointItems points)) =
        some (db, SqliteDriver.queryCells (columns.map (·.columnName)) (es'.map C.encode)) := by
  obtain ⟨es', hperm, hexec⟩ := Sql.Coding.exec_select choice hdb hq hcells
  exact ⟨es', hperm, query_rows widen owned choice (prepares_select hne hsub T h)
    (mapM_pointCells widen owned points) hexec⟩

/-- **SELECT** read back into entities. -/
theorem query_read {Storable : E → Prop} {decode : List (List SqlCell) → Option (List E)}
    (hstorable : ∀ e ∈ es, Storable e)
    (hdecode : ∀ {es' : List E}, (∀ e ∈ es', Storable e) →
      decode (SqliteDriver.queryCells (columns.map (·.columnName)) (es'.map C.encode)) = some es')
    (hcells : ∀ e, (columns.map (·.columnName)).mapM (Sql.cell C.columns (C.encode e)) = some (C.encode e)) :
    ∃ es' : List E, es'.Perm (es.filter fun e => q e) ∧
      ((SqlTableQuery.query widen owned db choice ((SqlTableQuery.onDefault table).select columns
        (pointItems points))).bind fun result => (decode result.2).bind fun found => some (result.1, found)) =
          some (db, es') := by
  obtain ⟨es', hperm, hquery⟩ := query_select points widen owned choice T hdb hne hsub h hq hcells
  have hfound : ∀ e ∈ es', Storable e := fun e he => hstorable e (List.mem_of_mem_filter (hperm.subset he))
  refine ⟨es', hperm, ?_⟩
  rw [hquery, Option.bind_some, hdecode hfound, Option.bind_some]

include hes hC

/-- **UPDATE** of the entities that satisfy conditions, to the values of cells. -/
theorem command_update (hpoints : points ≠ []) {cells : List SqlCell} {values : List SqliteValue} {g : E → E}
    (hcells : SqlTableQuery.getDestColumns table cells = columns)
    (hnames : ∀ cell ∈ cells, table.hasColumnName cell.columnName = true)
    (hvalues : cells.mapM (SqliteDriver.boundValue widen owned) = some values)
    (hlength : values.length = columns.length) (hg : ∀ e ∈ es, q e = true →
      Sql.setCells C.columns (C.encode e) ((columns.map (·.columnName)).zip values) = C.encode (g e))
    (hkey : ∀ e ∈ es, q e = true → C.key (g e) = C.key e) :
    SqlTableQuery.command widen owned db choice
      ((SqlTableQuery.onDefault table).update cells (pointItems points)) =
      some (Function.update db table.tableName (some (C.table (es.map fun e => if q e then g e else e))),
        true) := by
  have hall : (cells ++ pointCells points).mapM (SqliteDriver.boundValue widen owned) =
      some (values ++ pointValues points) := by
    rw [List.mapM_append, hvalues, mapM_pointCells]
    rfl
  have hlength : (columns.map (·.columnName)).length = values.length := by rw [hlength, List.length_map]
  -- the SET list takes the first values, and the conditions the rest
  have hzip : (columns.map (·.columnName)).zip (values ++ pointValues points) =
      (columns.map (·.columnName)).zip values := by
    rw [← List.append_nil (columns.map (·.columnName)), List.zip_append hlength, List.zip_nil_left,
      List.append_nil, List.append_nil]
  have hdrop : (values ++ pointValues points).drop (columns.map (·.columnName)).length = pointValues points := by
    rw [hlength, List.drop_left]
  refine command_done widen owned choice (prepares_update hne hsub T h hpoints hcells hnames) hall
    (Sql.Coding.exec_update hdb hes ?_ (exists_column hC hsub) ?_ ?_ hkey)
  · rw [List.length_append]
    omega
  · rw [hdrop]
    exact hq
  · rw [hzip]
    exact hg

end Entities

end ProjectTrans
