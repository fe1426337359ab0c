import ProjectTrans.Model.Database.SqlTableQuery

/-!
# The condition clause

What the loop of `build_condition_string` makes of a list of conditions: a set condition
that can be rendered adds its intervals, joined by AND to what is there; every other one
is passed over; and one whose range is missing makes the rendering follow a null pointer.
-/

namespace ProjectTrans

open Wire

namespace SqlConditionItem

/-- The intervals of a condition, if it has a range. -/
def intervals (item : SqlConditionItem) : List (SingleInterval Int64) :=
  match item.condition with
  | some (.range intervals) => intervals
  | _ => []

/-- Rendering the condition follows a null pointer. -/
def Faults (table : SqlTableItem) (item : SqlConditionItem) : Prop :=
  item.isSet = true ∧ table.hasColumn item.columnInfo = true ∧
    isIntegerType item.columnInfo.dataType = true ∧ ∀ intervals, item.condition ≠ some (.range intervals)

/-- The condition has a rendering: an integer column of the table, and an interval. -/
def Renderable (table : SqlTableItem) (item : SqlConditionItem) : Prop :=
  table.hasColumn item.columnInfo = true ∧ isIntegerType item.columnInfo.dataType = true ∧ item.intervals ≠ []

instance {table : SqlTableItem} : DecidablePred (Renderable table) :=
  fun _ => inferInstanceAs (Decidable (_ ∧ _ ∧ _))

/-- The ordering a condition asks for. -/
def order (item : SqlConditionItem) : Text :=
  match item.isDescOrder with
  | none => []
  | some desc => SqlBuilder.orderBy item.columnInfo.columnName desc

end SqlConditionItem

open SqlConditionItem

/-- A query on a table that is set up. -/
def SqlTableQuery.on (table : SqlTableItem) (s : SqliteStringify) : SqlTableQuery := ⟨some table, some s, true⟩

/-- What one condition makes of the clause. -/
def addCondition (table : SqlTableItem) (s : SqliteStringify) (acc : Text) (item : SqlConditionItem) : Text :=
  if item.isSet = true ∧ item.Renderable table then
    Text.appendWith (s.signConfig.spaceSign ++ s.signConfig.andSign ++ s.signConfig.spaceSign) acc
      (s.formatIntervals item.columnInfo.columnName item.intervals) ++ item.order
  else acc

/-- The clause of a list of conditions. -/
def clause (table : SqlTableItem) (s : SqliteStringify) (items : List SqlConditionItem) : Text :=
  items.foldl (addCondition table s) []

variable {table : SqlTableItem} {s : SqliteStringify}

theorem tryFormatCondition_renderable {item : SqlConditionItem} (h : item.Renderable table) :
    s.tryFormatCondition item = .ok (some (s.formatIntervals item.columnInfo.columnName item.intervals)) := by
  obtain ⟨-, hint, hne⟩ := h
  unfold intervals at *
  cases hc : item.condition with
  | none => simp [hc] at hne
  | some c =>
    cases c with
    | other => simp [hc] at hne
    | range is =>
      have hne : is ≠ [] := by simpa [hc] using hne
      simp [SqliteStringify.tryFormatCondition, SqliteStringify.tryFormatRangeCondition,
        SqliteStringify.getIntegerIntervals, hint, hc, hne]

theorem tryFormatCondition_not_renderable {item : SqlConditionItem} (hset : item.isSet = true)
    (hcol : table.hasColumn item.columnInfo = true) (hf : ¬item.Faults table) (h : ¬item.Renderable table) :
    s.tryFormatCondition item = .ok none := by
  by_cases hint : isIntegerType item.columnInfo.dataType = true
  · obtain ⟨is, his⟩ : ∃ is, item.condition = some (.range is) := by
      by_contra hno
      exact hf ⟨hset, hcol, hint, fun is his => hno ⟨is, his⟩⟩
    have hnil : is = [] := by
      by_contra hne
      exact h ⟨hcol, hint, by simpa [intervals, his] using hne⟩
    simp [SqliteStringify.tryFormatCondition, SqliteStringify.tryFormatRangeCondition,
      SqliteStringify.getIntegerIntervals, hint, his, hnil]
  · simp [SqliteStringify.tryFormatCondition, hint, SqliteStringify.tryFormatTextCondition]

/-- **One condition**: the loop goes on with what it makes of the clause. -/
theorem conditionLoop_cons {item : SqlConditionItem} (hf : ¬item.Faults table) (acc : Text)
    (rest : List SqlConditionItem) :
    SqlBuilder.conditionLoop table s false acc (item :: rest) =
      SqlBuilder.conditionLoop table s false (addCondition table s acc item) rest := by
  rw [SqlBuilder.conditionLoop]
  by_cases hset : item.isSet = true
  · by_cases hcol : table.hasColumn item.columnInfo = true
    · simp only [hset, hcol, Bool.not_true, Bool.false_eq_true, if_false]
      by_cases hr : item.Renderable table
      · have hadd : addCondition table s acc item = _ := if_pos ⟨hset, hr⟩
        rw [tryFormatCondition_renderable hr, hadd, order]
        cases item.isDescOrder with
        | none => simp
        | some desc => rfl
      · have hadd : addCondition table s acc item = acc := if_neg fun h => hr h.2
        rw [tryFormatCondition_not_renderable hset hcol hf hr, hadd]
        rfl
    · have hadd : addCondition table s acc item = acc := if_neg fun h => hcol h.2.1
      simp [hset, hcol, hadd]
  · have hadd : addCondition table s acc item = acc := if_neg fun h => hset h.1
    simp [hset, hadd]

theorem conditionLoop_fault {item : SqlConditionItem} (hf : item.Faults table) (acc : Text)
    (rest : List SqlConditionItem) :
    SqlBuilder.conditionLoop table s false acc (item :: rest) = .error .nullPointer := by
  obtain ⟨hset, hcol, hint, hno⟩ := hf
  have hget : SqliteStringify.getIntegerIntervals item = .error .nullPointer := by
    unfold SqliteStringify.getIntegerIntervals
    split
    · rename_i is his
      exact absurd his (hno is)
    · rfl
  rw [SqlBuilder.conditionLoop]
  simp only [hset, hcol, SqliteStringify.tryFormatCondition, hint, SqliteStringify.tryFormatRangeCondition, hget]
  rfl

/-- **The loop builds the clause**, if no rendering faults. -/
theorem conditionLoop_eq {items : List SqlConditionItem} (h : ∀ item ∈ items, ¬item.Faults table) (acc : Text) :
    SqlBuilder.conditionLoop table s false acc items = .ok (some (items.foldl (addCondition table s) acc)) := by
  induction items generalizing acc with
  | nil => rfl
  | cons item rest ih =>
    obtain ⟨hf, hrest⟩ := List.forall_mem_cons.1 h
    rw [conditionLoop_cons hf, ih hrest, List.foldl_cons]

/-- A missing range is a fault, wherever in the list it is. -/
theorem conditionLoop_faults {items : List SqlConditionItem} (h : ∃ item ∈ items, item.Faults table)
    (acc : Text) : SqlBuilder.conditionLoop table s false acc items = .error .nullPointer := by
  induction items generalizing acc with
  | nil => simp at h
  | cons item rest ih =>
    by_cases hf : item.Faults table
    · exact conditionLoop_fault hf acc rest
    · rw [conditionLoop_cons hf]
      exact ih (by simpa [hf] using h) _

/-- The builder of a table and a stringifier. -/
theorem buildConditionString_eq {items : List SqlConditionItem} (hv : table.isValid = true)
    (h : ∀ item ∈ items, ¬item.Faults table) :
    SqlBuilder.buildConditionString ⟨some table, some s⟩ items =
      .ok (if (clause table s items).isEmpty then none else some (clause table s items)) := by
  simp only [SqlBuilder.buildConditionString, deref, Checked.ok_bind, hv, Bool.not_true, Bool.false_eq_true,
    if_false]
  rw [conditionLoop_eq h]
  rfl

theorem buildConditionString_faults {items : List SqlConditionItem} (hv : table.isValid = true)
    (h : ∃ item ∈ items, item.Faults table) :
    SqlBuilder.buildConditionString ⟨some table, some s⟩ items = .error .nullPointer := by
  simp only [SqlBuilder.buildConditionString, deref, Checked.ok_bind, hv, Bool.not_true, Bool.false_eq_true,
    if_false]
  rw [conditionLoop_faults h]
  rfl

/-! ## What a condition contributes -/

theorem tryFormatIntegerInterval_eq_none {I : SingleInterval Int64} {n : Text} (hn : n ≠ []) :
    s.tryFormatIntegerInterval I n = none ↔ I.left.isLimited = false ∧ I.right.isLimited = false := by
  unfold SqliteStringify.tryFormatIntegerInterval EndpointRange.isLimited
  cases I.left.value <;> cases I.right.value <;> simp [hn]

theorem tryFormatIntegerInterval_ne_nil {I : SingleInterval Int64} {n t : Text} (hn : n ≠ [])
    (h : s.tryFormatIntegerInterval I n = some t) : t ≠ [] := by
  unfold SqliteStringify.tryFormatIntegerInterval at h
  cases hl : I.left.value <;> cases hr : I.right.value <;> simp [hl, hr, hn] at h <;> simp [← h, hn]

/-- Intervals have an empty text exactly when none of them has a finite end. -/
theorem formatIntervals_eq_nil {is : List (SingleInterval Int64)} {n : Text} (hn : n ≠ []) :
    s.formatIntervals n is = [] ↔ ∀ I ∈ is, I.left.isLimited = false ∧ I.right.isLimited = false := by
  rw [SqliteStringify.formatIntervals, Text.foldl_appendWith_eq_nil]
  simp only [true_and, List.mem_filterMap]
  constructor
  · intro h I hI
    rw [← tryFormatIntegerInterval_eq_none (s := s) hn]
    by_contra hne
    obtain ⟨t, ht⟩ := Option.ne_none_iff_exists'.1 hne
    exact tryFormatIntegerInterval_ne_nil hn ht (h t ⟨I, hI, ht⟩)
  · rintro h t ⟨I, hI, ht⟩
    rw [(tryFormatIntegerInterval_eq_none hn).2 (h I hI)] at ht
    exact absurd ht (by simp)

/-- The condition adds to the clause: a finite end, or an ordering. -/
def SqlConditionItem.Contributes (table : SqlTableItem) (item : SqlConditionItem) : Prop :=
  item.isSet = true ∧ item.Renderable table ∧
    ((∃ I ∈ item.intervals, I.left.isLimited = true ∨ I.right.isLimited = true) ∨ item.isDescOrder.isSome = true)

/-- A column of a valid table has a name. -/
theorem columnName_ne_nil {column : SqlColumnItem} (hv : table.isValid = true)
    (h : table.hasColumn column = true) : column.columnName ≠ [] := by
  obtain ⟨item, hitem, heq⟩ := List.any_eq_true.1 h
  simp only [SqlTableItem.isValid, Bool.and_eq_true, List.all_eq_true] at hv
  have hitem := hv.2 item hitem
  simp only [SqlColumnItem.isValid, SqlColumnItem.eq, Bool.and_eq_true, decide_eq_true_eq] at hitem heq
  exact heq.1.2 ▸ hitem.1.2

theorem orderBy_ne_nil (n : Text) (desc : Bool) : SqlBuilder.orderBy n desc ≠ [] := by
  unfold SqlBuilder.orderBy
  simp

theorem order_eq_nil {item : SqlConditionItem} : item.order = [] ↔ item.isDescOrder.isSome = false := by
  unfold order
  cases item.isDescOrder with
  | none => exact ⟨fun _ => rfl, fun _ => rfl⟩
  | some desc => exact ⟨fun h => absurd h (orderBy_ne_nil _ desc), fun h => absurd h Bool.noConfusion⟩

theorem addCondition_eq_nil (hv : table.isValid = true) {acc : Text} {item : SqlConditionItem} :
    addCondition table s acc item = [] ↔ acc = [] ∧ ¬item.Contributes table := by
  unfold addCondition Contributes
  by_cases h : item.isSet = true ∧ item.Renderable table
  · have hn := columnName_ne_nil hv h.2.1
    have hends : s.formatIntervals item.columnInfo.columnName item.intervals = [] ↔
        ¬∃ I ∈ item.intervals, I.left.isLimited = true ∨ I.right.isLimited = true := by
      rw [formatIntervals_eq_nil hn]
      push Not
      simp only [Bool.not_eq_true]
    rw [if_pos h, List.append_eq_nil_iff, Text.appendWith_eq_nil, hends, order_eq_nil,
      and_assoc, ← Bool.not_eq_true, ← not_or]
    exact and_congr_right fun _ => not_congr ⟨fun hc => ⟨h.1, h.2, hc⟩, fun hc => hc.2.2⟩
  · rw [if_neg h]
    exact ⟨fun hacc => ⟨hacc, fun hc => h ⟨hc.1, hc.2.1⟩⟩, fun hc => hc.1⟩

/-- **The clause is empty** exactly when no condition contributes to it. -/
theorem clause_eq_nil (hv : table.isValid = true) {items : List SqlConditionItem} :
    clause table s items = [] ↔ ∀ item ∈ items, ¬item.Contributes table := by
  have hgen : ∀ acc, items.foldl (addCondition table s) acc = [] ↔
      acc = [] ∧ ∀ item ∈ items, ¬item.Contributes table := by
    induction items with
    | nil => simp
    | cons item rest ih =>
      intro acc
      rw [List.foldl_cons, ih, addCondition_eq_nil hv, List.forall_mem_cons, and_assoc]
  rw [clause, hgen, and_iff_right rfl]

end ProjectTrans
