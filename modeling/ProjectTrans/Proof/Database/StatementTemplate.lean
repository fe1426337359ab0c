import ProjectTrans.Proof.Database.Clause

/-!
# Statements as templates

Every statement of a table query is written once more as a template, which says what each
of its placeholders stands for. The text of a template is the text the builder makes.
-/

namespace ProjectTrans

open Wire SqlConditionItem

/-! ## Templates -/

/-- The finite ends of an interval. -/
def SingleInterval.ends (I : SingleInterval Int64) : List Int64 := I.left.value.toList ++ I.right.value.toList

/-- An interval of a condition on column `n`. -/
def intervalTemplate (n : Text) (I : SingleInterval Int64) : Option (Template SqlCell) :=
  let leftSign := if I.left.isOpen then " > ".toList else " >= ".toList
  let rightSign := if I.right.isOpen then " < ".toList else " <= ".toList
  match I.left.value, I.right.value with
  | none, none => none
  | some a, none => some [.text "( ".toList, .name n, .text leftSign, .slot (.ofInt64 a), .text " )".toList]
  | none, some b => some [.text "( ".toList, .name n, .text rightSign, .slot (.ofInt64 b), .text " )".toList]
  | some a, some b =>
    some [.text "( ".toList, .name n, .text leftSign, .slot (.ofInt64 a), .text " AND ".toList, .name n,
      .text rightSign, .slot (.ofInt64 b), .text " )".toList]

/-- The intervals of one condition. -/
def rangeTemplate (n : Text) (is : List (SingleInterval Int64)) : Template SqlCell :=
  (is.filterMap (intervalTemplate n)).foldl (Template.appendWith " OR ".toList) []

/-- An ordering by a column. -/
def orderByTemplate (n : Text) (desc : Bool) : Template SqlCell :=
  [.text (" ORDER BY".toList ++ " ".toList), .name n, .text (if desc then " DESC".toList else " ASC".toList)]

/-- The ordering of a condition. -/
def orderTemplate (item : SqlConditionItem) : Template SqlCell :=
  match item.isDescOrder with
  | none => []
  | some desc => orderByTemplate item.columnInfo.columnName desc

/-- The clause of a list of conditions. -/
def clauseTemplate (table : SqlTableItem) (items : List SqlConditionItem) : Template SqlCell :=
  items.foldl (fun acc item =>
    if item.isSet = true ∧ item.Renderable table then
      Template.appendWith " AND ".toList acc (rangeTemplate item.columnInfo.columnName item.intervals) ++
        orderTemplate item
    else acc) []

/-- The clause in a statement. -/
def whereTemplate (table : SqlTableItem) (items : List SqlConditionItem) : Template SqlCell :=
  if (clauseTemplate table items).chars.isEmpty then []
  else .text " WHERE ".toList :: clauseTemplate table items

/-- Something for every element of a list, between commas. -/
def commaTemplate {β : Type*} (piece : β → Template SqlCell) (l : List β) : Template SqlCell :=
  (l.map piece).foldl (Template.appendWith ", ".toList) []

/-- One column of a CREATE TABLE. -/
def columnTemplate (column : SqlColumnItem) : Template SqlCell :=
  [.name column.columnName,
    .text (" ".toList ++ (SqliteStringify.tryFormatDataType column.dataType).getD [] ++
      (if column.isPrimaryKey then " PRIMARY KEY".toList else []) ++
      (if column.isNotNull then " NOT NULL".toList else []) ++
      (if column.isUnique then " UNIQUE".toList else []))] ++
    (if column.defaultValue.isSome then [.text " DEFAULT ".toList, .slot column.getDefaultCell] else [])

/-- The operations of a table query. -/
inductive Request
  | create
  | update (cells : List SqlCell) (conditions : List SqlConditionItem)
  | insert (cells : List SqlCell)
  | remove (conditions : List SqlConditionItem)
  | select (destColumns : List SqlColumnItem) (conditions : List SqlConditionItem)
  | count (conditions : List SqlConditionItem)

/-- The statement of a request. -/
def Request.template (table : SqlTableItem) : Request → Template SqlCell
  | create =>
    [.text ("CREATE TABLE".toList ++ (if table.isUnique then " IF NOT EXISTS".toList else []) ++ " ".toList),
      .name table.tableName, .text " (".toList] ++ commaTemplate columnTemplate table.columnItems ++
      [.text ");".toList]
  | update cells conditions =>
    [.text "UPDATE ".toList, .name table.tableName, .text " SET ".toList] ++
      commaTemplate (fun cell : SqlCell => [.name cell.columnName, .text " = ".toList, .slot cell])
        (cells.filter fun cell => table.hasColumnName cell.columnName) ++
      whereTemplate table conditions
  | insert cells =>
    [.text "INSERT INTO ".toList, .name table.tableName, .text " (".toList] ++
      commaTemplate (fun cell : SqlCell => [.name cell.columnName])
        (cells.filter fun cell => table.hasColumnName cell.columnName) ++
      [.text ") VALUES (".toList] ++
      commaTemplate (fun cell : SqlCell => [.slot cell])
        (cells.filter fun cell => table.hasColumnName cell.columnName) ++
      [.text ");".toList]
  | remove conditions =>
    [.text "DELETE FROM ".toList, .name table.tableName] ++ whereTemplate table conditions
  | select destColumns conditions =>
    .text "SELECT ".toList ::
      (if destColumns.isEmpty then [.text "*".toList]
        else commaTemplate (fun column : SqlColumnItem => [.name column.columnName])
          (destColumns.filter fun column => table.hasColumn column)) ++
      [.text " FROM ".toList, .name table.tableName] ++ whereTemplate table conditions
  | count conditions =>
    [.text "SELECT COUNT(*) FROM ".toList, .name table.tableName] ++ whereTemplate table conditions

/-! ## Texts of templates -/

theorem intervalTemplate_chars (n : Text) (I : SingleInterval Int64) :
    SqliteStringify.tryFormatIntegerInterval ⟨.default⟩ I n = (intervalTemplate n I).map Template.chars := by
  unfold SqliteStringify.tryFormatIntegerInterval intervalTemplate
  cases I.left.value <;> cases I.right.value <;> cases I.left.isOpen <;> cases I.right.isOpen <;>
    simp [SqlSignConfig.default, Piece.chars]

theorem rangeTemplate_chars (n : Text) (is : List (SingleInterval Int64)) :
    (rangeTemplate n is).chars = SqliteStringify.formatIntervals ⟨.default⟩ n is := by
  rw [rangeTemplate, Template.chars_foldl_appendWith, SqliteStringify.formatIntervals, List.map_filterMap]
  simp only [intervalTemplate_chars]
  rfl

theorem orderByTemplate_chars (n : Text) (desc : Bool) :
    (orderByTemplate n desc).chars = SqlBuilder.orderBy n desc := by
  unfold orderByTemplate SqlBuilder.orderBy
  rw [Template.chars_cons, Template.chars_cons, Template.chars_cons, Template.chars_nil, List.append_nil,
    List.append_assoc]
  rfl

theorem orderTemplate_chars (item : SqlConditionItem) : (orderTemplate item).chars = item.order := by
  unfold orderTemplate order
  cases item.isDescOrder with
  | none => rfl
  | some desc => exact orderByTemplate_chars _ desc

theorem signs_default :
    SqlSignConfig.default.spaceSign ++ SqlSignConfig.default.andSign ++ SqlSignConfig.default.spaceSign =
      " AND ".toList ∧
    SqlSignConfig.default.commaSign ++ SqlSignConfig.default.spaceSign = ", ".toList := by
  decide

theorem clauseTemplate_chars (table : SqlTableItem) (items : List SqlConditionItem) :
    (clauseTemplate table items).chars = clause table ⟨.default⟩ items := by
  have hgen : ∀ acc : Template SqlCell, (items.foldl (fun acc item =>
      if item.isSet = true ∧ item.Renderable table then
        Template.appendWith " AND ".toList acc (rangeTemplate item.columnInfo.columnName item.intervals) ++
          orderTemplate item
      else acc) acc).chars = items.foldl (addCondition table ⟨.default⟩) acc.chars := by
    induction items with
    | nil => exact fun acc => rfl
    | cons item rest ih =>
      intro acc
      rw [List.foldl_cons, List.foldl_cons, ih, addCondition]
      congr 1
      split
      · rw [Template.chars_append, Template.chars_appendWith, rangeTemplate_chars, orderTemplate_chars,
          signs_default.1]
      · rfl
  exact hgen []

theorem commaTemplate_chars {β : Type*} (piece : β → Template SqlCell) (l : List β) :
    (commaTemplate piece l).chars =
      l.foldl (fun acc b => Text.appendWith ", ".toList acc (piece b).chars) [] := by
  rw [commaTemplate, Template.chars_foldl_appendWith, List.map_map, List.foldl_map]
  rfl

/-! ## Slots of templates -/

theorem intervalTemplate_slots (n : Text) (I : SingleInterval Int64) :
    ((intervalTemplate n I).map Template.slots).getD [] = I.ends.map SqlCell.ofInt64 := by
  unfold intervalTemplate SingleInterval.ends
  cases I.left.value <;> cases I.right.value <;> rfl

theorem rangeTemplate_slots (n : Text) (is : List (SingleInterval Int64)) :
    (rangeTemplate n is).slots = (is.flatMap (·.ends)).map SqlCell.ofInt64 := by
  rw [rangeTemplate, Template.slots_foldl_appendWith, Template.slots_nil, List.nil_append, List.map_flatMap]
  induction is with
  | nil => rfl
  | cons I is ih =>
    have hI := intervalTemplate_slots n I
    rw [List.filterMap_cons, List.flatMap_cons, ← ih, ← hI]
    cases intervalTemplate n I <;> simp

theorem orderTemplate_slots (item : SqlConditionItem) : (orderTemplate item).slots = [] := by
  unfold orderTemplate
  cases item.isDescOrder <;> rfl

/-- The values a condition stands for. -/
def SqlConditionItem.values (item : SqlConditionItem) : List SqlCell :=
  (item.intervals.flatMap (·.ends)).map SqlCell.ofInt64

theorem clauseTemplate_slots (table : SqlTableItem) (items : List SqlConditionItem) :
    (clauseTemplate table items).slots =
      (items.filter fun item => item.isSet = true ∧ item.Renderable table).flatMap (·.values) := by
  have hgen : ∀ acc : Template SqlCell, (items.foldl (fun acc item =>
      if item.isSet = true ∧ item.Renderable table then
        Template.appendWith " AND ".toList acc (rangeTemplate item.columnInfo.columnName item.intervals) ++
          orderTemplate item
      else acc) acc).slots = acc.slots ++
        (items.filter fun item => item.isSet = true ∧ item.Renderable table).flatMap (·.values) := by
    induction items with
    | nil => simp
    | cons item rest ih =>
      intro acc
      rw [List.foldl_cons, ih]
      by_cases h : item.isSet = true ∧ item.Renderable table
      · rw [if_pos h, List.filter_cons_of_pos (by simpa using h), List.flatMap_cons, Template.slots_append,
          Template.slots_appendWith, rangeTemplate_slots, orderTemplate_slots, List.append_nil, List.append_assoc]
        rfl
      · rw [if_neg h, List.filter_cons_of_neg (by simpa using h)]
  exact hgen []

theorem commaTemplate_slots {β : Type*} (piece : β → Template SqlCell) (l : List β) :
    (commaTemplate piece l).slots = l.flatMap fun b => (piece b).slots := by
  rw [commaTemplate, Template.slots_foldl_appendWith, Template.slots_nil, List.nil_append, List.flatMap_map]

/-! ## Fixed text -/

theorem intervalTemplate_plain {n : Text} {I : SingleInterval Int64} {t : Template SqlCell}
    (h : intervalTemplate n I = some t) : t.Plain := by
  unfold intervalTemplate at h
  cases hl : I.left.value <;> cases hr : I.right.value <;> simp only [hl, hr] at h
  · exact absurd h (by simp)
  all_goals
    obtain rfl := Option.some.inj h
    cases I.left.isOpen <;> cases I.right.isOpen <;> simp [Piece.Plain]

theorem rangeTemplate_plain (n : Text) (is : List (SingleInterval Int64)) : (rangeTemplate n is).Plain := by
  refine Template.Plain.foldl_appendWith (by decide) Template.plain_nil fun t ht => ?_
  obtain ⟨I, -, hI⟩ := List.mem_filterMap.1 ht
  exact intervalTemplate_plain hI

theorem orderTemplate_plain (item : SqlConditionItem) : (orderTemplate item).Plain := by
  unfold orderTemplate orderByTemplate
  cases item.isDescOrder with
  | none => exact Template.plain_nil
  | some desc => cases desc <;> simp [Piece.Plain]

theorem clauseTemplate_plain (table : SqlTableItem) (items : List SqlConditionItem) :
    (clauseTemplate table items).Plain := by
  have hgen : ∀ acc : Template SqlCell, acc.Plain → (items.foldl (fun acc item =>
      if item.isSet = true ∧ item.Renderable table then
        Template.appendWith " AND ".toList acc (rangeTemplate item.columnInfo.columnName item.intervals) ++
          orderTemplate item
      else acc) acc).Plain := by
    induction items with
    | nil => exact fun acc h => h
    | cons item rest ih =>
      intro acc hacc
      rw [List.foldl_cons]
      refine ih _ ?_
      split
      · exact Template.plain_append.2 ⟨hacc.appendWith (by decide) (rangeTemplate_plain _ _),
          orderTemplate_plain item⟩
      · exact hacc
  exact hgen [] Template.plain_nil

theorem whereTemplate_plain (table : SqlTableItem) (items : List SqlConditionItem) :
    (whereTemplate table items).Plain := by
  unfold whereTemplate
  split
  · exact Template.plain_nil
  · exact Template.plain_cons.2 ⟨(by decide : '?' ∉ " WHERE ".toList), clauseTemplate_plain table items⟩

theorem commaTemplate_plain {β : Type*} {piece : β → Template SqlCell} (h : ∀ b, (piece b).Plain) (l : List β) :
    (commaTemplate piece l).Plain := by
  refine Template.Plain.foldl_appendWith (by decide) Template.plain_nil fun t ht => ?_
  obtain ⟨b, -, rfl⟩ := List.mem_map.1 ht
  exact h b

theorem typeText_plain (type : DataType) : '?' ∉ (SqliteStringify.tryFormatDataType type).getD [] := by
  unfold SqliteStringify.tryFormatDataType
  repeat' split
  all_goals decide

theorem columnTemplate_plain (column : SqlColumnItem) : (columnTemplate column).Plain := by
  have htype := typeText_plain column.dataType
  unfold columnTemplate
  cases column.isPrimaryKey <;> cases column.isNotNull <;> cases column.isUnique <;>
    cases column.defaultValue <;> simp [Piece.Plain, htype]

theorem Request.template_plain (table : SqlTableItem) (req : Request) : (req.template table).Plain := by
  unfold Request.template
  cases req with
  | create =>
    refine Template.plain_append.2 ⟨Template.plain_append.2 ⟨?_, commaTemplate_plain columnTemplate_plain _⟩, ?_⟩
    · cases table.isUnique <;> simp [Piece.Plain]
    · simp [Piece.Plain]
  | update cells conditions =>
    refine Template.plain_append.2 ⟨Template.plain_append.2 ⟨?_, commaTemplate_plain (fun cell => ?_) _⟩,
      whereTemplate_plain table conditions⟩
    · simp [Piece.Plain]
    · simp [Piece.Plain]
  | insert cells =>
    refine Template.plain_append.2 ⟨Template.plain_append.2 ⟨Template.plain_append.2
      ⟨Template.plain_append.2 ⟨?_, commaTemplate_plain (fun cell => ?_) _⟩, ?_⟩,
      commaTemplate_plain (fun cell => ?_) _⟩, ?_⟩
    all_goals simp [Piece.Plain]
  | remove conditions =>
    exact Template.plain_append.2 ⟨by simp [Piece.Plain], whereTemplate_plain table conditions⟩
  | select destColumns conditions =>
    refine Template.plain_append.2 ⟨Template.plain_append.2 ⟨Template.plain_cons.2
      ⟨(by decide : '?' ∉ "SELECT ".toList), ?_⟩, by simp [Piece.Plain]⟩, whereTemplate_plain table conditions⟩
    split
    · simp [Piece.Plain]
    · exact commaTemplate_plain (by simp [Piece.Plain]) _
  | count conditions =>
    exact Template.plain_append.2 ⟨by simp [Piece.Plain], whereTemplate_plain table conditions⟩

end ProjectTrans
