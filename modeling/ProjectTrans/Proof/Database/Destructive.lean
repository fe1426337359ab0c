import ProjectTrans.Proof.Database.Clause

/-!
# Conditions that are left out of DELETE and UPDATE

A condition that cannot be rendered is passed over, and the guard against statements
without a clause sees only what is left. So such a condition widens the statement
whenever another one still makes a clause (`noWidening_iff`).
-/

namespace ProjectTrans

open Wire SqlConditionItem

/-- With a set condition that cannot be rendered, no DELETE and no UPDATE is built or run. -/
def NoWidening (table : SqlTableItem) (s : SqliteStringify) (conditions : List SqlConditionItem) : Prop :=
  (∃ item ∈ conditions, item.isSet = true ∧ ¬item.Renderable table) →
    (∀ sql, SqlBuilder.buildDeleteString ⟨some table, some s⟩ conditions false ≠ .ok (some sql)) ∧
    (∀ columns sql,
      SqlBuilder.buildUpdateString ⟨some table, some s⟩ columns conditions false ≠ .ok (some sql)) ∧
    (∀ statement, (SqlTableQuery.on table s).remove conditions ≠ .ok (some statement)) ∧
    ∀ cells statement, (SqlTableQuery.on table s).update cells conditions ≠ .ok (some statement)

variable {table : SqlTableItem} {s : SqliteStringify} {conditions : List SqlConditionItem}

/-- A clause is all a DELETE needs. -/
theorem buildDeleteString_of_clause {text : Text} (hv : table.isValid = true)
    (h : SqlBuilder.buildConditionString ⟨some table, some s⟩ conditions = .ok (some text)) :
    SqlBuilder.buildDeleteString ⟨some table, some s⟩ conditions false =
      .ok (some ("DELETE FROM ".toList ++ table.tableName ++ " WHERE ".toList ++ text)) := by
  simp only [SqlBuilder.buildDeleteString, deref, Checked.ok_bind, hv, Bool.not_true, Bool.false_eq_true,
    if_false, h]
  rfl

/-- No clause, no DELETE. -/
theorem buildDeleteString_ne (h : ∀ text,
      SqlBuilder.buildConditionString ⟨some table, some s⟩ conditions ≠ .ok (some text)) (sql : Text) :
    SqlBuilder.buildDeleteString ⟨some table, some s⟩ conditions false ≠ .ok (some sql) := by
  intro hsql
  simp only [SqlBuilder.buildDeleteString, deref, Checked.ok_bind] at hsql
  split at hsql
  · exact absurd hsql (by simp)
  · obtain ⟨c, hc, hsql⟩ := Checked.bind_eq_ok.1 hsql
    cases c with
    | none => exact absurd hsql (by simp)
    | some text => exact h text hc

/-- No clause, no UPDATE. -/
theorem buildUpdateString_ne (h : ∀ text,
      SqlBuilder.buildConditionString ⟨some table, some s⟩ conditions ≠ .ok (some text))
    (columns : List SqlColumnItem) (sql : Text) :
    SqlBuilder.buildUpdateString ⟨some table, some s⟩ columns conditions false ≠ .ok (some sql) := by
  intro hsql
  simp only [SqlBuilder.buildUpdateString] at hsql
  obtain ⟨t, -, hsql⟩ := Checked.bind_eq_ok.1 hsql
  split at hsql
  · exact absurd hsql (by simp)
  · obtain ⟨assignments, -, hsql⟩ := Checked.bind_eq_ok.1 hsql
    split at hsql
    · exact absurd hsql (by simp)
    · obtain ⟨c, hc, hsql⟩ := Checked.bind_eq_ok.1 hsql
      cases c with
      | none => exact absurd hsql (by simp)
      | some text => exact h text hc

/-- What is not built is not run. -/
theorem remove_ne (h : ∀ sql, SqlBuilder.buildDeleteString ⟨some table, some s⟩ conditions false ≠ .ok (some sql))
    (statement : Statement) : (SqlTableQuery.on table s).remove conditions ≠ .ok (some statement) := by
  intro hrun
  simp only [SqlTableQuery.remove, SqlTableQuery.ready, SqlTableQuery.on, if_true] at hrun
  obtain ⟨sql, hsql, hrun⟩ := Checked.bind_eq_ok.1 hrun
  cases sql with
  | none => exact absurd hrun (by simp)
  | some sql => exact h sql hsql

theorem update_ne (h : ∀ columns sql,
      SqlBuilder.buildUpdateString ⟨some table, some s⟩ columns conditions false ≠ .ok (some sql))
    (cells : List SqlCell) (statement : Statement) :
    (SqlTableQuery.on table s).update cells conditions ≠ .ok (some statement) := by
  intro hrun
  simp only [SqlTableQuery.update, SqlTableQuery.ready, SqlTableQuery.on, if_true] at hrun
  obtain ⟨sql, hsql, hrun⟩ := Checked.bind_eq_ok.1 hrun
  cases sql with
  | none => exact absurd hrun (by simp)
  | some sql => exact h _ sql hsql

/-- When the builder makes a clause: no rendering faults, and some condition contributes. -/
theorem buildConditionString_isSome_iff :
    (∃ text, SqlBuilder.buildConditionString ⟨some table, some s⟩ conditions = .ok (some text)) ↔
      table.isValid = true ∧ (∀ item ∈ conditions, ¬item.Faults table) ∧
        ∃ item ∈ conditions, item.Contributes table := by
  by_cases hv : table.isValid = true
  · by_cases hf : ∃ item ∈ conditions, item.Faults table
    · rw [buildConditionString_faults hv hf]
      refine ⟨fun h => absurd h (by simp), fun h => ?_⟩
      obtain ⟨item, hitem, hfault⟩ := hf
      exact absurd hfault (h.2.1 item hitem)
    · have hf' : ∀ item ∈ conditions, ¬item.Faults table := fun item hitem h => hf ⟨item, hitem, h⟩
      rw [buildConditionString_eq hv hf', and_iff_right hv, and_iff_right hf']
      have hnil : clause table s conditions = [] ↔ _ := clause_eq_nil hv
      by_cases hc : clause table s conditions = []
      · simpa [hc] using hnil.1 hc
      · have hsome := mt hnil.2 hc
        push Not at hsome
        simpa [hc] using hsome
  · refine ⟨fun ⟨text, h⟩ => absurd h ?_, fun h => absurd h.1 hv⟩
    simp [SqlBuilder.buildConditionString, deref, hv]

/-- **DELETE and UPDATE are not widened exactly when** nothing is left out, or nothing is
left over (or no text is built at all: the table is not valid, or a range is missing). -/
theorem noWidening_iff (table : SqlTableItem) (s : SqliteStringify) (conditions : List SqlConditionItem) :
    NoWidening table s conditions ↔
      table.isValid = false ∨ (∃ item ∈ conditions, item.Faults table) ∨
        (∀ item ∈ conditions, item.isSet = true → item.Renderable table) ∨
          ∀ item ∈ conditions, ¬item.Contributes table := by
  constructor
  · intro h
    by_contra hno
    simp only [not_or, Bool.not_eq_false] at hno
    obtain ⟨hv, hf, hleft, hsome⟩ := hno
    push Not at hf hleft hsome
    obtain ⟨text, htext⟩ := buildConditionString_isSome_iff (s := s).2 ⟨hv, hf, hsome⟩
    exact (h hleft).1 _ (buildDeleteString_of_clause hv htext)
  · rintro hok ⟨item, hitem, hset, hnot⟩
    have hnone : ∀ text, SqlBuilder.buildConditionString ⟨some table, some s⟩ conditions ≠ .ok (some text) := by
      intro text htext
      obtain ⟨hv, hf, c, hc, hcontrib⟩ := buildConditionString_isSome_iff.1 ⟨text, htext⟩
      rcases hok with hinvalid | ⟨f, hfmem, hfault⟩ | hall | hnocontrib
      · exact absurd hv (by simp [hinvalid])
      · exact hf f hfmem hfault
      · exact hnot (hall item hitem hset)
      · exact hnocontrib c hc hcontrib
    have hdelete := buildDeleteString_ne hnone
    have hupdate := buildUpdateString_ne hnone
    exact ⟨hdelete, hupdate, remove_ne hdelete, update_ne hupdate⟩

/-- A column `a` that the table has, and a column `b` that it does not have: the condition
on `b` is dropped, and all rows with `a = 1` are deleted. -/
theorem unknownColumn_widens :
    let column (name : String) : SqlColumnItem := ⟨0, name.toList, .int64, false, true, false, none⟩
    let table : SqlTableItem := ⟨"t".toList, [column "a"], false⟩
    let point (v : Int64) : Option ICondition := some (.range [.ofPoint v])
    let conditions : List SqlConditionItem :=
      [⟨true, column "a", point 1, none⟩, ⟨true, column "b", point 2, none⟩]
    (∃ item ∈ conditions, item.isSet = true ∧ ¬item.Renderable table) ∧
      SqlBuilder.buildDeleteString ⟨some table, some ⟨.default⟩⟩ conditions false =
        .ok (some "DELETE FROM t WHERE ( a >= ? AND a <= ? )".toList) := by
  decide

end ProjectTrans
