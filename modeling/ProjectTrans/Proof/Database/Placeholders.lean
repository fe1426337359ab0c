import ProjectTrans.Proof.Database.StatementTemplate

/-!
# Placeholders and bound values

The text of a statement and the values bound to it come from two traversals. The text is
that of the request's template (`run_spec`), so placeholders and values agree exactly when
the values are what the placeholders of the template stand for.
-/

namespace ProjectTrans

open Wire SqlConditionItem

/-! ## Bound values -/

namespace Statement

/-- Bind values in order. -/
def bindAll (s : Statement) (cells : List SqlCell) : Statement := cells.foldl bind s

@[simp] theorem bindAll_nil (s : Statement) : s.bindAll [] = s := rfl

theorem bindAll_append (s : Statement) (l m : List SqlCell) : s.bindAll (l ++ m) = (s.bindAll l).bindAll m :=
  List.foldl_append

/-- Values with consecutive indices. -/
def numbered (start : ℕ) (cells : List SqlCell) : List (ℕ × SqlCell) := (cells.zipIdx start).map Prod.swap

/-- **Binding in order** numbers the values from the next index on. -/
theorem bindAll_eq (s : Statement) (cells : List SqlCell) :
    s.bindAll cells = ⟨s.sql, s.paramIndex + cells.length, s.binds ++ numbered s.paramIndex cells⟩ := by
  induction cells generalizing s with
  | nil => simp [numbered]
  | cons cell cells ih =>
    have hstep : s.bindAll (cell :: cells) = (s.bind cell).bindAll cells := rfl
    rw [hstep, ih]
    simp only [bind, numbered, List.zipIdx_cons, List.map_cons, Prod.swap_prod_mk, List.append_assoc,
      List.singleton_append, List.length_cons, Statement.mk.injEq, and_true, true_and]
    omega

theorem numbered_inj {start : ℕ} {l m : List SqlCell} (h : numbered start l = numbered start m) : l = m := by
  have hmap : ∀ cells : List SqlCell, (numbered start cells).map Prod.snd = cells := by
    intro cells
    rw [numbered, List.map_map]
    exact List.zipIdx_map_fst start cells
  rw [← hmap l, h, hmap]

@[simp] theorem numbered_length (start : ℕ) (cells : List SqlCell) :
    (numbered start cells).length = cells.length := by
  simp [numbered]

end Statement

/-- The binding loop over a condition binds its values. -/
def SqlConditionItem.Bound (table : SqlTableItem) (item : SqlConditionItem) : Prop :=
  item.isSet = true ∧ table.hasColumnName item.columnInfo.columnName = true ∧
    isIntegerType item.columnInfo.dataType = true

instance {table : SqlTableItem} : DecidablePred (SqlConditionItem.Bound table) :=
  fun _ => inferInstanceAs (Decidable (_ ∧ _ ∧ _))

/-- The values bound for a list of conditions. -/
def boundConditions (table : SqlTableItem) (conditions : List SqlConditionItem) : List SqlCell :=
  (conditions.filter fun item => item.Bound table).flatMap (·.values)

/-- The values bound for a request. -/
def Request.bound (table : SqlTableItem) : Request → List SqlCell
  | create => []
  | update cells conditions =>
    (cells.filter fun cell => table.hasColumnName cell.columnName) ++ boundConditions table conditions
  | insert cells => cells.filter fun cell => table.hasColumnName cell.columnName
  | remove conditions => boundConditions table conditions
  | select _ conditions => boundConditions table conditions
  | count conditions => boundConditions table conditions

theorem bindCells_eq (table : SqlTableItem) (cells : List SqlCell) (s : Statement) :
    SqlTableQuery.bindCells table cells s =
      s.bindAll (cells.filter fun cell => table.hasColumnName cell.columnName) := by
  unfold SqlTableQuery.bindCells Statement.bindAll
  rw [List.foldl_filter]

theorem bindIntervals_eq (is : List (SingleInterval Int64)) (s : Statement) :
    SqlTableQuery.bindIntervals is s = s.bindAll ((is.flatMap (·.ends)).map SqlCell.ofInt64) := by
  unfold SqlTableQuery.bindIntervals
  induction is generalizing s with
  | nil => rfl
  | cons I is ih =>
    rw [List.foldl_cons, ih, List.flatMap_cons, List.map_append, Statement.bindAll_append]
    congr 1
    unfold SingleInterval.ends
    cases I.left.value <;> cases I.right.value <;> rfl

/-- The intervals that are bound are those of the condition. -/
theorem intervals_of_getIntegerIntervals {item : SqlConditionItem} {is : List (SingleInterval Int64)}
    (h : SqliteStringify.getIntegerIntervals item = .ok is) : item.intervals = is := by
  unfold SqliteStringify.getIntegerIntervals at h
  unfold intervals
  cases hcondition : item.condition with
  | none =>
    rw [hcondition] at h
    cases h
  | some condition =>
    rw [hcondition] at h
    cases condition with
    | range is' => exact Except.ok.inj h
    | other => cases h

/-- **The binding loop** binds the values of every set condition whose column is known by
name and is of an integer type. -/
theorem bindConditions_ok {table : SqlTableItem} {conditions : List SqlConditionItem} {s s' : Statement}
    (h : SqlTableQuery.bindConditions table s conditions = .ok s') :
    s' = s.bindAll (boundConditions table conditions) := by
  induction conditions generalizing s with
  | nil => exact (Except.ok.inj h).symm
  | cons item rest ih =>
    have hskip (hn : item.values = [] ∨ ¬item.Bound table) :
        boundConditions table (item :: rest) = boundConditions table rest := by
      unfold boundConditions
      by_cases hb : item.Bound table
      · rw [List.filter_cons_of_pos (by simpa using hb), List.flatMap_cons, hn.resolve_right (not_not.2 hb),
          List.nil_append]
      · rw [List.filter_cons_of_neg (by simpa using hb)]
    rw [SqlTableQuery.bindConditions] at h
    split at h
    · rename_i hset
      rw [hskip (.inr fun hb => by simp [hb.1] at hset)]
      exact ih h
    split at h
    · rename_i hname
      rw [hskip (.inr fun hb => by simp [hb.2.1] at hname)]
      exact ih h
    split at h
    · rename_i hnone
      have hvals : item.values = [] := by
        unfold values intervals
        rw [Option.isNone_iff_eq_none.1 hnone]
        rfl
      rw [hskip (.inl hvals)]
      exact ih h
    rename_i hset hname hsome
    split at h
    · rename_i hint
      -- the one condition whose values are bound
      have hb : item.Bound table := ⟨by simpa using hset, by simpa using hname, hint⟩
      obtain ⟨is, his, h⟩ := Checked.bind_eq_ok.1 h
      have hvals : item.values = (is.flatMap (·.ends)).map SqlCell.ofInt64 := by
        rw [values, intervals_of_getIntegerIntervals his]
      rw [ih h, bindIntervals_eq, ← hvals, ← Statement.bindAll_append]
      unfold boundConditions
      rw [List.filter_cons_of_pos (by simpa using hb), List.flatMap_cons]
    · rename_i hint
      rw [hskip (.inr fun hb => hint hb.2.2)]
      exact ih h

/-! ## Texts -/

/-- A query with the default signs. -/
def SqlTableQuery.onDefault (table : SqlTableItem) : SqlTableQuery := .on table ⟨.default⟩

/-- The loop over columns, with the default signs. -/
theorem columnLoop_eq {table : SqlTableItem} {piece : SqlColumnItem → Checked Text} {f : SqlColumnItem → Text}
    (hpiece : ∀ column, piece column = .ok (f column)) (columns : List SqlColumnItem) (acc : Text) :
    SqlBuilder.columnLoop ⟨some table, some ⟨.default⟩⟩ table piece acc columns =
      .ok ((columns.filter fun column => table.hasColumn column).foldl
        (fun acc column => Text.appendWith ", ".toList acc (f column)) acc) := by
  induction columns generalizing acc with
  | nil => rfl
  | cons column rest ih =>
    rw [SqlBuilder.columnLoop]
    by_cases hcol : table.hasColumn column = true
    · rw [if_neg (by simp [hcol]), List.filter_cons_of_pos hcol, List.foldl_cons, hpiece]
      by_cases hacc : acc = []
      · subst hacc
        exact ih (f column)
      · rw [if_neg (by simpa using hacc), Text.appendWith_of_ne_nil hacc]
        exact ih _
    · rw [if_pos (by simp [hcol]), List.filter_cons_of_neg hcol]
      exact ih acc

/-- The destination columns of a list of cells are columns of the table. -/
theorem getDestColumns_filter (table : SqlTableItem) (cells : List SqlCell) :
    ((SqlTableQuery.getDestColumns table cells).filter fun column => table.hasColumn column) =
      SqlTableQuery.getDestColumns table cells := by
  refine List.filter_eq_self.2 fun column hcolumn => ?_
  obtain ⟨cell, -, hcell⟩ := List.mem_filterMap.1 hcolumn
  exact (SqlTableItem.getColumnInfo_spec hcell).1

/-- Their names are those of the cells that are bound. -/
theorem getDestColumns_names (table : SqlTableItem) (cells : List SqlCell) :
    (SqlTableQuery.getDestColumns table cells).map (·.columnName) =
      (cells.filter fun cell => table.hasColumnName cell.columnName).map (·.columnName) := by
  unfold SqlTableQuery.getDestColumns
  induction cells with
  | nil => rfl
  | cons cell cells ih =>
    have hsome : (table.getColumnInfo cell.columnName).isSome = _ := SqlTableItem.getColumnInfo_isSome
    cases hinfo : table.getColumnInfo cell.columnName with
    | none =>
      rw [hinfo] at hsome
      rw [List.filterMap_cons_none (by exact hinfo), List.filter_cons_of_neg (by simp [← hsome]), ih]
    | some column =>
      rw [hinfo] at hsome
      rw [List.filterMap_cons_some (by exact hinfo), List.filter_cons_of_pos (by simp [← hsome]), List.map_cons,
        List.map_cons, ih, (SqlTableItem.getColumnInfo_spec hinfo).2]

/-- Whatever is made of the names of destination columns is made of those of the cells. -/
theorem foldl_getDestColumns (table : SqlTableItem) (cells : List SqlCell) (g : Text → Text) :
    ((SqlTableQuery.getDestColumns table cells).filter fun column => table.hasColumn column).foldl
        (fun acc column => Text.appendWith ", ".toList acc (g column.columnName)) [] =
      (cells.filter fun cell => table.hasColumnName cell.columnName).foldl
        (fun acc cell => Text.appendWith ", ".toList acc (g cell.columnName)) [] := by
  have hmap := congrArg (List.foldl (fun acc n => Text.appendWith ", ".toList acc (g n)) [])
    (getDestColumns_names table cells)
  rw [List.foldl_map, List.foldl_map] at hmap
  rw [getDestColumns_filter, hmap]

/-- What is made of the conditions when nothing faults. -/
theorem buildConditionString_ok {table : SqlTableItem} {s : SqliteStringify} {conditions : List SqlConditionItem}
    {c : Option Text} (hv : table.isValid = true)
    (h : SqlBuilder.buildConditionString ⟨some table, some s⟩ conditions = .ok c) :
    c = if (clause table s conditions).isEmpty then none else some (clause table s conditions) := by
  by_cases hf : ∃ item ∈ conditions, item.Faults table
  · rw [buildConditionString_faults hv hf] at h
    exact absurd h (by simp)
  · push Not at hf
    rw [buildConditionString_eq hv hf] at h
    exact (Except.ok.inj h).symm

/-- The clause of a statement, with its keyword. -/
def whereText (condition : Option Text) : Text :=
  match condition with
  | some condition => " WHERE ".toList ++ condition
  | none => []

theorem whereText_some (condition : Text) : whereText (some condition) = " WHERE ".toList ++ condition := rfl

theorem whereText_none : whereText none = [] := rfl

theorem whereTemplate_chars {table : SqlTableItem} {conditions : List SqlConditionItem} {c : Option Text}
    (hv : table.isValid = true)
    (h : SqlBuilder.buildConditionString ⟨some table, some ⟨.default⟩⟩ conditions = .ok c) :
    (whereTemplate table conditions).chars = whereText c := by
  rw [buildConditionString_ok hv h, whereTemplate, clauseTemplate_chars]
  split
  · rfl
  · rw [Template.chars_cons, clauseTemplate_chars]
    rfl

theorem columnTemplate_chars {column : SqlColumnItem} {typeString : Text}
    (h : SqliteStringify.tryFormatDataType column.dataType = some typeString) :
    (columnTemplate column).chars = SqlBuilder.columnDefinition column typeString := by
  have hdefault : (if column.defaultValue.isSome then
        [.text " DEFAULT ".toList, .slot column.getDefaultCell] else [] : Template SqlCell).chars =
      if column.defaultValue.isSome then " DEFAULT ?".toList else [] := by
    cases column.defaultValue <;> rfl
  unfold columnTemplate SqlBuilder.columnDefinition
  rw [Template.chars_append, hdefault, h]
  simp only [Template.chars_cons, Template.chars_nil, Piece.chars, Option.getD_some, List.append_assoc,
    List.append_nil]

/-- The columns of a CREATE TABLE. -/
theorem columnDefinitions_ok {acc text : Text} {columns : List SqlColumnItem}
    (h : SqlBuilder.columnDefinitions .default acc columns = some text) :
    columns.foldl (fun acc column => Text.appendWith ", ".toList acc (columnTemplate column).chars) acc =
      text := by
  induction columns generalizing acc with
  | nil => exact Option.some.inj h
  | cons column rest ih =>
    rw [SqlBuilder.columnDefinitions] at h
    split at h
    · exact absurd h (by simp)
    · rename_i typeString htype
      rw [List.foldl_cons, columnTemplate_chars htype]
      exact ih h

/-! ## Statements -/

/-- A table query serves a request. -/
def SqlTableQuery.run (q : SqlTableQuery) : Request → Checked (Option Statement)
  | .create => q.create
  | .update cells conditions => q.update cells conditions
  | .insert cells => q.insert cells
  | .remove conditions => q.remove conditions
  | .select destColumns conditions => q.select destColumns conditions
  | .count conditions => q.count conditions

variable {table : SqlTableItem} {statement : Statement}

theorem eq_of_pure_eq {a b : Text} (h : (pure (some a) : Checked (Option Text)) = .ok (some b)) : b = a :=
  (Option.some.inj (Except.ok.inj h)).symm

/-- The values of the conditions are bound to a statement. -/
theorem bindConditions_spec {conditions : List SqlConditionItem} {s : Statement}
    (h : (do return some (← SqlTableQuery.bindConditions table s conditions) : Checked (Option Statement)) =
      .ok (some statement)) : statement = s.bindAll (boundConditions table conditions) := by
  obtain ⟨s', hs', h⟩ := Checked.bind_eq_ok.1 h
  obtain rfl := Option.some.inj (Except.ok.inj h)
  exact bindConditions_ok hs'

/-- The text of CREATE TABLE. -/
theorem buildCreateTableString_ok {sql : Text}
    (h : SqlBuilder.buildCreateTableString ⟨some table, some ⟨.default⟩⟩ = .ok (some sql)) :
    sql = (Request.create.template table).chars := by
  obtain ⟨t, ht, h⟩ := Checked.bind_eq_ok.1 h
  obtain rfl := Except.ok.inj ht
  dsimp only at h
  split at h
  · exact absurd h (by simp)
  split at h
  · exact absurd h (by simp)
  · rename_i fields hfields
    rw [eq_of_pure_eq h, Request.template, Template.chars_append, Template.chars_append, commaTemplate_chars,
      columnDefinitions_ok hfields]
    simp only [Template.chars_cons, Template.chars_nil, Piece.chars, List.append_assoc, List.append_nil]

/-- The destination columns of a statement. -/
theorem buildDestColumnsString_eq (hv : table.isValid = true) (columns : List SqlColumnItem) :
    SqlBuilder.buildDestColumnsString ⟨some table, some ⟨.default⟩⟩ columns =
      .ok (if columns.isEmpty then none
        else some ((columns.filter fun column => table.hasColumn column).foldl
          (fun acc column => Text.appendWith ", ".toList acc column.columnName) [])) := by
  simp only [SqlBuilder.buildDestColumnsString, deref, Checked.ok_bind, hv, Bool.not_true, Bool.false_eq_true,
    if_false]
  split
  · rfl
  · rw [columnLoop_eq fun _ => rfl]
    rfl

/-- The text of INSERT, for the destination columns of a list of cells. -/
theorem buildInsertString_ok {cells : List SqlCell} {sql : Text}
    (h : SqlBuilder.buildInsertString ⟨some table, some ⟨.default⟩⟩ (SqlTableQuery.getDestColumns table cells) =
      .ok (some sql)) : sql = ((Request.insert cells).template table).chars := by
  obtain ⟨t, ht, h⟩ := Checked.bind_eq_ok.1 h
  obtain rfl := Except.ok.inj ht
  split at h
  · exact absurd h (by simp)
  rename_i hv
  obtain ⟨d, hd, h⟩ := Checked.bind_eq_ok.1 h
  rw [buildDestColumnsString_eq (by simpa using hv)] at hd
  have hd := Except.ok.inj hd
  split at h
  · exact absurd h (by simp)
  · rename_i dest
    obtain ⟨placeHolders, hplace, h⟩ := Checked.bind_eq_ok.1 h
    have hdest := Option.some.inj (Option.ite_none_left_eq_some.1 hd).2.symm
    have hplace := Except.ok.inj (hplace.symm.trans (columnLoop_eq (f := fun _ => ['?']) (fun _ => rfl) _ _))
    rw [foldl_getDestColumns table cells fun n => n] at hdest
    rw [foldl_getDestColumns table cells fun _ => ['?']] at hplace
    rw [eq_of_pure_eq h, hdest, hplace, Request.template]
    simp only [Template.chars_append, commaTemplate_chars, Template.chars_cons, Template.chars_nil, Piece.chars,
      List.append_assoc, List.append_nil]

/-- The text of DELETE. -/
theorem buildDeleteString_ok {conditions : List SqlConditionItem} {sql : Text}
    (h : SqlBuilder.buildDeleteString ⟨some table, some ⟨.default⟩⟩ conditions false = .ok (some sql)) :
    sql = ((Request.remove conditions).template table).chars := by
  obtain ⟨t, ht, h⟩ := Checked.bind_eq_ok.1 h
  obtain rfl := Except.ok.inj ht
  split at h
  · exact absurd h (by simp)
  rename_i hv
  obtain ⟨c, hc, h⟩ := Checked.bind_eq_ok.1 h
  rw [Request.template, Template.chars_append, whereTemplate_chars (by simpa using hv) hc]
  split at h
  · rw [eq_of_pure_eq h]
    simp only [whereText_some, Template.chars_cons, Template.chars_nil, Piece.chars, List.append_assoc,
      List.append_nil]
  · exact absurd h (by simp)

/-- The text of UPDATE, for the destination columns of a list of cells. -/
theorem buildUpdateString_ok {cells : List SqlCell} {conditions : List SqlConditionItem} {sql : Text}
    (h : SqlBuilder.buildUpdateString ⟨some table, some ⟨.default⟩⟩ (SqlTableQuery.getDestColumns table cells)
      conditions false = .ok (some sql)) : sql = ((Request.update cells conditions).template table).chars := by
  obtain ⟨t, ht, h⟩ := Checked.bind_eq_ok.1 h
  obtain rfl := Except.ok.inj ht
  split at h
  · exact absurd h (by simp)
  rename_i hv
  obtain ⟨assignments, hassign, h⟩ := Checked.bind_eq_ok.1 h
  have hassign := Except.ok.inj (hassign.symm.trans
    (columnLoop_eq (f := fun column => column.columnName ++ " = ".toList ++ ['?']) (fun _ => rfl) _ _))
  rw [foldl_getDestColumns table cells fun n => n ++ " = ".toList ++ ['?']] at hassign
  split at h
  · exact absurd h (by simp)
  obtain ⟨c, hc, h⟩ := Checked.bind_eq_ok.1 h
  rw [Request.template, Template.chars_append, whereTemplate_chars (by simpa using hv) hc]
  split at h
  · rw [eq_of_pure_eq h, hassign]
    simp only [whereText_some, Template.chars_append, commaTemplate_chars, Template.chars_cons,
      Template.chars_nil, Piece.chars, List.append_assoc, List.append_nil]
  · exact absurd h (by simp)

/-- The text of SELECT. -/
theorem buildSelectString_ok {destColumns : List SqlColumnItem} {conditions : List SqlConditionItem} {sql : Text}
    (h : SqlBuilder.buildSelectString ⟨some table, some ⟨.default⟩⟩ destColumns conditions = .ok (some sql)) :
    sql = ((Request.select destColumns conditions).template table).chars := by
  obtain ⟨t, ht, h⟩ := Checked.bind_eq_ok.1 h
  obtain rfl := Except.ok.inj ht
  split at h
  · exact absurd h (by simp)
  rename_i hv
  obtain ⟨d, hd, h⟩ := Checked.bind_eq_ok.1 h
  obtain ⟨c, hc, h⟩ := Checked.bind_eq_ok.1 h
  have hdest : (if destColumns.isEmpty then [.text "*".toList]
      else commaTemplate (fun column : SqlColumnItem => [.name column.columnName])
        (destColumns.filter fun column => table.hasColumn column) : Template SqlCell).chars =
          d.getD "*".toList := by
    rw [buildDestColumnsString_eq (by simpa using hv)] at hd
    rw [← Except.ok.inj hd]
    by_cases hempty : destColumns.isEmpty = true
    · rw [if_pos hempty, if_pos hempty]
      rfl
    · rw [if_neg hempty, if_neg hempty, commaTemplate_chars, Option.getD_some]
      simp only [Template.chars_cons, Template.chars_nil, Piece.chars, List.append_nil]
  rw [Request.template, Template.chars_append, whereTemplate_chars (by simpa using hv) hc, Template.chars_append,
    Template.chars_cons, hdest, eq_of_pure_eq h]
  simp only [Template.chars_cons, Template.chars_nil, Piece.chars, List.append_assoc, List.append_nil]
  rfl

/-- The text of SELECT COUNT. -/
theorem buildCountString_ok {conditions : List SqlConditionItem} {sql : Text}
    (h : SqlBuilder.buildCountString ⟨some table, some ⟨.default⟩⟩ conditions = .ok (some sql)) :
    sql = ((Request.count conditions).template table).chars := by
  obtain ⟨t, ht, h⟩ := Checked.bind_eq_ok.1 h
  obtain rfl := Except.ok.inj ht
  split at h
  · exact absurd h (by simp)
  rename_i hv
  obtain ⟨c, hc, h⟩ := Checked.bind_eq_ok.1 h
  rw [Request.template, Template.chars_append, whereTemplate_chars (by simpa using hv) hc]
  split at h
  · rw [eq_of_pure_eq h]
    simp only [whereText_some, Template.chars_cons, Template.chars_nil, Piece.chars, List.append_assoc,
      List.append_nil]
  · rw [eq_of_pure_eq h]
    simp only [whereText_none, Template.chars_cons, Template.chars_nil, Piece.chars, List.append_nil]

/-- **What is run for a request**: the text of its template, with its values bound in order. -/
theorem run_spec {req : Request} (h : (SqlTableQuery.onDefault table).run req = .ok (some statement)) :
    statement = (Statement.prepare (req.template table).chars).bindAll (req.bound table) := by
  cases req with
  | create =>
    obtain ⟨sql, hsql, h⟩ := Checked.bind_eq_ok.1 h
    split at h
    · exact absurd h (by simp)
    · obtain rfl := buildCreateTableString_ok hsql
      exact (Option.some.inj (Except.ok.inj h)).symm
  | update cells conditions =>
    obtain ⟨sql, hsql, h⟩ := Checked.bind_eq_ok.1 h
    split at h
    · exact absurd h (by simp)
    · obtain rfl := buildUpdateString_ok hsql
      -- cells are bound first, as their holes come first in the text
      rw [bindConditions_spec h, bindCells_eq, Request.bound, Statement.bindAll_append]
  | insert cells =>
    obtain ⟨sql, hsql, h⟩ := Checked.bind_eq_ok.1 h
    split at h
    · exact absurd h (by simp)
    · obtain rfl := buildInsertString_ok hsql
      rw [← Option.some.inj (Except.ok.inj h), bindCells_eq, Request.bound]
  | remove conditions =>
    obtain ⟨sql, hsql, h⟩ := Checked.bind_eq_ok.1 h
    split at h
    · exact absurd h (by simp)
    · obtain rfl := buildDeleteString_ok hsql
      exact bindConditions_spec h
  | select destColumns conditions =>
    obtain ⟨sql, hsql, h⟩ := Checked.bind_eq_ok.1 h
    split at h
    · exact absurd h (by simp)
    · obtain rfl := buildSelectString_ok hsql
      exact bindConditions_spec h
  | count conditions =>
    obtain ⟨sql, hsql, h⟩ := Checked.bind_eq_ok.1 h
    split at h
    · exact absurd h (by simp)
    · obtain rfl := buildCountString_ok hsql
      exact bindConditions_spec h

/-! ## Agreement -/

/-- What a wider filter adds contributes nothing, if the results are the same. -/
theorem flatMap_filter_eq_iff {α β : Type*} {p q : α → Prop} [DecidablePred p] [DecidablePred q] (f : α → List β)
    (l : List α) (hqp : ∀ x, q x → p x) :
    (l.filter p).flatMap f = (l.filter q).flatMap f ↔ ∀ x ∈ l, p x → ¬q x → f x = [] := by
  have hle : ∀ l : List α, ((l.filter q).flatMap f).length ≤ ((l.filter p).flatMap f).length := by
    intro l
    have hsub : (l.filter q).Sublist (l.filter p) :=
      List.monotone_filter_right l fun x hx => by simpa using hqp x (by simpa using hx)
    exact (hsub.flatMap f).length_le
  induction l with
  | nil => simp
  | cons x l ih =>
    refine Iff.trans ?_ (List.forall_mem_cons.trans (and_congr_right' ih.symm)).symm
    by_cases hq : q x
    · rw [List.filter_cons_of_pos (by simpa using hqp x hq), List.filter_cons_of_pos (by simpa using hq),
        List.flatMap_cons, List.flatMap_cons, List.append_cancel_left_eq, and_iff_right
        fun _ hnq => absurd hq hnq]
    · by_cases hp : p x
      · rw [List.filter_cons_of_pos (by simpa using hp), List.filter_cons_of_neg (by simpa using hq),
          List.flatMap_cons]
        constructor
        · intro h
          -- the results are as long as each other, so `f x` has no room
          have hlen := congrArg List.length h
          rw [List.length_append] at hlen
          have hnil : f x = [] := List.length_eq_zero_iff.1 (by have := hle l; omega)
          exact ⟨fun _ _ => hnil, by rwa [hnil, List.nil_append] at h⟩
        · rintro ⟨hnil, h⟩
          rw [hnil hp hq, List.nil_append, h]
      · rw [List.filter_cons_of_neg (by simpa using hp), List.filter_cons_of_neg (by simpa using hq),
          and_iff_right fun hp' => absurd hp' hp]

/-- A statement agrees with a template: it has its text, as many question marks as values,
and the values are those the placeholders stand for. -/
def Statement.Agrees (s : Statement) (t : Template SqlCell) : Prop :=
  s.sql = t.chars ∧ s.sql.count '?' = s.binds.length ∧ s.binds = Statement.numbered 1 t.slots

instance {s : Statement} {t : Template SqlCell} : Decidable (s.Agrees t) :=
  inferInstanceAs (Decidable (_ ∧ _ ∧ _))

/-- Of the set conditions on integer columns known by name, those whose column item the
table does not have bring no values. -/
def MatchedConditions (table : SqlTableItem) (conditions : List SqlConditionItem) : Prop :=
  ∀ item ∈ conditions, item.Bound table → table.hasColumn item.columnInfo = false →
    ∀ I ∈ item.intervals, I.left.value = none ∧ I.right.value = none

/-- The two traversals see the same values: no column of a table to be created has a
default, and conditions are matched. -/
def Request.Matched (table : SqlTableItem) : Request → Prop
  | create => ∀ column ∈ table.columnItems, column.defaultValue = none
  | update _ conditions => MatchedConditions table conditions
  | insert _ => True
  | remove conditions => MatchedConditions table conditions
  | select _ conditions => MatchedConditions table conditions
  | count conditions => MatchedConditions table conditions

theorem values_eq_nil {item : SqlConditionItem} :
    item.values = [] ↔ ∀ I ∈ item.intervals, I.left.value = none ∧ I.right.value = none := by
  unfold values SingleInterval.ends
  simp

/-- A clause without a text has no placeholders. -/
theorem whereTemplate_slots (table : SqlTableItem) (conditions : List SqlConditionItem) :
    (whereTemplate table conditions).slots = (clauseTemplate table conditions).slots := by
  unfold whereTemplate
  split
  · rename_i hnil
    have hle := Template.slots_length_le (clauseTemplate table conditions)
    rw [List.isEmpty_iff.1 hnil, List.count_nil] at hle
    exact (List.length_eq_zero_iff.1 (by omega)).symm
  · rfl

theorem boundConditions_iff (table : SqlTableItem) (conditions : List SqlConditionItem) :
    boundConditions table conditions = (whereTemplate table conditions).slots ↔
      MatchedConditions table conditions := by
  rw [whereTemplate_slots, clauseTemplate_slots, boundConditions, flatMap_filter_eq_iff]
  · refine forall₂_congr fun item _ => ⟨fun h hb hcol => ?_, fun h hb hnot => ?_⟩
    · exact values_eq_nil.1 (h hb fun hr => by simp [hr.2.1] at hcol)
    · by_cases hnil : item.intervals = []
      · exact values_eq_nil.2 (by simp [hnil])
      · refine values_eq_nil.2 (h hb ?_)
        by_contra hcol
        exact hnot ⟨hb.1, by simpa using hcol, hb.2.2, hnil⟩
  · exact fun item h => ⟨h.1, SqlTableItem.hasColumnName_of_hasColumn h.2.1, h.2.2.1⟩

theorem bound_iff (table : SqlTableItem) (req : Request) :
    req.bound table = (req.template table).slots ↔ req.Matched table := by
  cases req with
  | create =>
    -- only the default values of columns have slots
    have hslots : (Request.create.template table).slots =
        table.columnItems.flatMap fun column =>
          if column.defaultValue.isSome then [column.getDefaultCell] else [] := by
      have hcolumn (column : SqlColumnItem) : (columnTemplate column).slots =
          if column.defaultValue.isSome then [column.getDefaultCell] else [] := by
        unfold columnTemplate
        cases column.defaultValue <;> rfl
      simp only [Request.template, Template.slots_append, commaTemplate_slots, hcolumn, Template.slots_text,
        Template.slots_name, Template.slots_nil, List.nil_append, List.append_nil]
    rw [hslots, Request.bound, Request.Matched, eq_comm, List.flatMap_eq_nil_iff]
    refine forall₂_congr fun column _ => ?_
    cases column.defaultValue <;> simp
  | update cells conditions =>
    rw [Request.Matched, ← boundConditions_iff]
    simp only [Request.bound, Request.template, Template.slots_append, commaTemplate_slots, Template.slots_text,
      Template.slots_name, Template.slots_slot, Template.slots_nil, List.nil_append, List.flatMap_singleton',
      List.append_cancel_left_eq]
  | insert cells =>
    rw [Request.Matched, iff_true]
    simp only [Request.bound, Request.template, Template.slots_append, commaTemplate_slots, Template.slots_text,
      Template.slots_name, Template.slots_slot, Template.slots_nil, List.nil_append, List.append_nil,
      List.flatMap_singleton']
    rw [List.flatMap_eq_nil_iff.2 fun _ _ => rfl, List.nil_append]
  | remove conditions =>
    rw [Request.Matched, ← boundConditions_iff]
    rfl
  | select destColumns conditions =>
    rw [Request.Matched, ← boundConditions_iff]
    -- names have no slots
    have hdest : (if destColumns.isEmpty then [.text "*".toList]
        else commaTemplate (fun column : SqlColumnItem => [.name column.columnName])
          (destColumns.filter fun column => table.hasColumn column) : Template SqlCell).slots = [] := by
      split
      · rfl
      · rw [commaTemplate_slots]
        simp
    simp only [Request.bound, Request.template, Template.slots_append, hdest, Template.slots_text,
      Template.slots_name, Template.slots_nil, List.nil_append, List.append_nil]
  | count conditions =>
    rw [Request.Matched, ← boundConditions_iff]
    rfl

end ProjectTrans
