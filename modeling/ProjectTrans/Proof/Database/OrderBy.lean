import ProjectTrans.Lib.Ordering
import ProjectTrans.Proof.Database.Where

/-!
# Conditions that ask for an ordering

`build_condition_string` appends the ordering of a condition behind its predicate and goes
on with the next condition. So the ordering is at the end of the clause only if its
condition is the last one, and with anything behind it the clause is not read; and as no
iteration sets the flag that an ordering is written, a second one is appended like the
first.
-/

namespace ProjectTrans

open Predicate

namespace SqlConditionItem

/-- A set condition that can be rendered, on a column that exists under its name. -/
structure Written (table : SqlTableItem) (item : SqlConditionItem) : Prop where
  isSet : item.isSet = true
  renderable : item.Renderable table
  identifier : Identifier item.columnInfo.columnName

/-- The text of the condition without its ordering. -/
def predicate (item : SqlConditionItem) : Text :=
  SqliteStringify.formatIntervals ⟨.default⟩ item.columnInfo.columnName item.intervals

/-- The condition asks for an ordering. -/
def orders (item : SqlConditionItem) : Bool := item.isDescOrder.isSome

/-- No interval has a finite end. -/
def IsWhole (item : SqlConditionItem) : Prop := ∀ I ∈ item.intervals, I.IsWhole

instance : DecidablePred IsWhole := fun item => inferInstanceAs (Decidable (∀ I ∈ item.intervals, I.IsWhole))

/-- The intervals with a finite end, as operands. -/
def alternatives (item : SqlConditionItem) : List (Operand Int64) :=
  (item.intervals.filter fun I => !I.IsWhole).map fun I => intervalOperand (item.columnInfo.columnName, I)

variable {table : SqlTableItem} {item : SqlConditionItem}

theorem Written.not_faults (h : item.Written table) : ¬item.Faults table := by
  rintro ⟨-, -, -, hno⟩
  have hne := h.renderable.2.2
  unfold intervals at hne
  split at hne
  · rename_i intervals heq
    exact hno intervals heq
  · exact hne rfl

theorem Written.predicate_eq_nil (h : item.Written table) : item.predicate = [] ↔ item.IsWhole :=
  formatIntervals_eq_nil h.identifier.1

theorem alternatives_ne_nil (h : ¬item.IsWhole) : item.alternatives ≠ [] := by
  unfold IsWhole at h
  push Not at h
  obtain ⟨I, hI, hwhole⟩ := h
  have hmem : I ∈ item.intervals.filter fun I => !I.IsWhole := List.mem_filter.2 ⟨hI, by simpa using hwhole⟩
  exact List.ne_nil_of_mem (List.mem_map_of_mem hmem)

/-- Intervals without a finite end have no text. -/
theorem Written.predicate_filter (h : item.Written table) :
    item.predicate = SqliteStringify.formatIntervals ⟨.default⟩ item.columnInfo.columnName
      (item.intervals.filter fun I => !I.IsWhole) := by
  have hformat : ∀ I ∈ item.intervals,
      SqliteStringify.tryFormatIntegerInterval ⟨.default⟩ I item.columnInfo.columnName =
        if (!decide I.IsWhole) = true then
          SqliteStringify.tryFormatIntegerInterval ⟨.default⟩ I item.columnInfo.columnName else none := by
    intro I _
    by_cases hwhole : I.IsWhole
    · rw [(tryFormatIntegerInterval_eq_none h.identifier.1).2 hwhole]
      simp [hwhole]
    · simp [hwhole]
  unfold predicate SqliteStringify.formatIntervals
  rw [List.filterMap_filter, List.filterMap_congr hformat]

/-- **The text of a condition** is that of its alternatives. -/
theorem Written.lex_predicate (h : item.Written table) :
    lexer.lex item.predicate = some (altTokens item.alternatives) := by
  rw [h.predicate_filter, alternatives]
  by_cases hnil : (item.intervals.filter fun I => !I.IsWhole) = []
  · rw [hnil]
    rfl
  · refine (lex_formatIntervals h.identifier hnil fun I hI => ?_).2
    simpa using (List.mem_filter.1 hI).2

/-- The ordering of a condition is an ordering text. -/
theorem order_eq {desc : Bool} (h : item.isDescOrder = some desc) :
    item.order = orderText item.columnInfo.columnName desc := by
  unfold order SqlBuilder.orderBy orderText
  rw [h]
  cases desc <;> simp

end SqlConditionItem

open SqlConditionItem

variable {table : SqlTableItem} {items : List SqlConditionItem}

/-- The predicates of conditions, joined by AND. -/
def joinedPredicates (items : List SqlConditionItem) : Text :=
  (items.map predicate).foldl (Text.appendWith (' ' :: "AND".toList ++ [' '])) []

/-- How many orderings are asked for. -/
def orderings (items : List SqlConditionItem) : ℕ := items.countP orders

/-! ## The joined predicates -/

theorem joinedPredicates_concat (items : List SqlConditionItem) (item : SqlConditionItem) :
    joinedPredicates (items ++ [item]) =
      Text.appendWith (' ' :: "AND".toList ++ [' ']) (joinedPredicates items) item.predicate := by
  unfold joinedPredicates
  rw [List.map_append, List.foldl_append]
  rfl

theorem lex_joinedPredicates (h : ∀ item ∈ items, item.Written table) :
    ∃ ts, lexer.lex (joinedPredicates items) = some ts := by
  induction items using List.reverseRecOn with
  | nil => exact ⟨[], rfl⟩
  | append_singleton items item ih =>
    obtain ⟨hitems, hitem⟩ := List.forall_mem_append.1 h
    obtain ⟨ts, hts⟩ := ih hitems
    have hlex := (hitem item List.mem_cons_self).lex_predicate
    rw [joinedPredicates_concat]
    by_cases hnil : joinedPredicates items = []
    · rw [hnil, Text.appendWith_nil]
      exact ⟨_, hlex⟩
    · rw [Text.appendWith_of_ne_nil hnil, separates_and.lex_middle, hts, hlex]
      exact ⟨_, rfl⟩

/-- Behind the others, a condition without a finite end makes the predicates unreadable. -/
theorem read_joinedPredicates_whole {last : SqlConditionItem} (h : ∀ item ∈ items ++ [last], item.Written table)
    (hwhole : last.IsWhole) : read (joinedPredicates (items ++ [last])) = none := by
  obtain ⟨hitems, hlast⟩ := List.forall_mem_append.1 h
  obtain ⟨ts, hts⟩ := lex_joinedPredicates hitems
  rw [joinedPredicates_concat, ((hlast last List.mem_cons_self).predicate_eq_nil).2 hwhole]
  by_cases hnil : joinedPredicates items = []
  · rw [hnil]
    rfl
  · have hempty : lexer.lex [] = some [] := rfl
    rw [Text.appendWith_of_ne_nil hnil, Predicate.read, separates_and.lex_middle, hts, hempty]
    exact parse_conn_end ts .and

/-- Conditions with finite ends are read as a predicate, and others in front of them have no text. -/
theorem read_joinedPredicates {wholes : List SqlConditionItem} {last : SqlConditionItem}
    (hwholes : ∀ item ∈ wholes, item.Written table ∧ item.IsWhole)
    (h : ∀ item ∈ items ++ [last], item.Written table ∧ ¬item.IsWhole) :
    ∃ e, read (joinedPredicates (wholes ++ (items ++ [last]))) = some e := by
  have hfront : joinedPredicates (wholes ++ (items ++ [last])) = joinedPredicates (items ++ [last]) := by
    have hnil : joinedPredicates wholes = [] := by
      refine Text.foldl_appendWith_eq_nil.2 ⟨rfl, fun piece hpiece => ?_⟩
      obtain ⟨item, hitem, rfl⟩ := List.mem_map.1 hpiece
      exact (hwholes item hitem).1.predicate_eq_nil.2 (hwholes item hitem).2
    unfold joinedPredicates at hnil ⊢
    rw [List.map_append, List.foldl_append, hnil]
  rw [hfront]
  cases hcons : items ++ [last] with
  | nil => simp at hcons
  | cons first later =>
    rw [hcons] at h
    obtain ⟨⟨hfirst, hne⟩, hlater⟩ := List.forall_mem_cons.1 h
    have hlex : lexer.lex (joinedPredicates (first :: later)) =
        some (altTokens first.alternatives ++ laterTokens (later.map alternatives)) := by
      unfold joinedPredicates
      rw [List.map_cons, List.foldl_cons, Text.appendWith_nil,
        separates_and.lex_foldl_appendWith (fun item hitem => (hlater item hitem).1.lex_predicate)
          (mt hfirst.predicate_eq_nil.1 hne) hfirst.lex_predicate, laterTokens, List.flatMap_map]
      rfl
    have halternatives : ∀ g ∈ later.map alternatives, g ≠ [] := by
      intro g hg
      obtain ⟨item, hitem, rfl⟩ := List.mem_map.1 hg
      exact alternatives_ne_nil (hlater item hitem).2
    cases hg : first.alternatives with
    | nil => exact absurd hg (alternatives_ne_nil hne)
    | cons f fs =>
      obtain ⟨e, hparse, -⟩ := parse_groups f fs halternatives
      refine ⟨e, ?_⟩
      rw [Predicate.read, hlex, hg]
      exact hparse

/-! ## The clause -/

theorem orderings_append (pre post : List SqlConditionItem) :
    orderings (pre ++ post) = orderings pre + orderings post := List.countP_append

theorem orderings_cons (item : SqlConditionItem) (rest : List SqlConditionItem) :
    orderings (item :: rest) = orderings rest + if item.orders then 1 else 0 := List.countP_cons

/-- One ordering splits the list. -/
theorem exists_order (h : 1 ≤ orderings items) :
    ∃ pre item post, items = pre ++ item :: post ∧ orderings pre = 0 ∧ item.orders = true := by
  induction items with
  | nil => exact absurd h (by simp [orderings])
  | cons item rest ih =>
    by_cases ho : item.orders = true
    · exact ⟨[], item, rest, rfl, rfl, ho⟩
    · rw [orderings_cons, if_neg ho, Nat.add_zero] at h
      obtain ⟨pre, later, post, rfl, hpre, hlater⟩ := ih h
      refine ⟨item :: pre, later, post, rfl, ?_, hlater⟩
      rw [orderings_cons, if_neg ho, hpre]

theorem order_of_not_orders {item : SqlConditionItem} (h : ¬item.orders = true) : item.order = [] :=
  order_eq_nil.2 (by simpa [orders] using h)

/-- The orderings of a list in which no condition asks for one. -/
theorem flatMap_order (h : orderings items = 0) : items.flatMap order = [] := by
  rw [orderings, List.countP_eq_zero] at h
  exact List.flatMap_eq_nil_iff.2 fun item hitem => order_of_not_orders (h item hitem)

theorem SqlConditionItem.Written.addCondition {item : SqlConditionItem} (h : item.Written table) (acc : Text) :
    addCondition table ⟨.default⟩ acc item =
      Text.appendWith (' ' :: "AND".toList ++ [' ']) acc item.predicate ++ item.order := by
  have hadd : ProjectTrans.addCondition table ⟨.default⟩ acc item = _ := if_pos ⟨h.isSet, h.renderable⟩
  rw [hadd, signs_default.1]
  rfl

/-- Without an ordering the clause is made of the predicates. -/
theorem clause_eq_joinedPredicates (h : ∀ item ∈ items, item.Written table) (hno : orderings items = 0) :
    clause table ⟨.default⟩ items = joinedPredicates items := by
  rw [clause, joinedPredicates, List.foldl_map]
  refine List.foldl_ext _ _ _ fun acc item hitem => ?_
  rw [orderings, List.countP_eq_zero] at hno
  rw [(h item hitem).addCondition, order_of_not_orders (hno item hitem), List.append_nil]

/-- With the first ordering at the end, the clause is the predicates and the ordering. -/
theorem clause_concat {last : SqlConditionItem} (h : ∀ item ∈ items ++ [last], item.Written table)
    (hno : orderings items = 0) :
    clause table ⟨.default⟩ (items ++ [last]) = joinedPredicates (items ++ [last]) ++ last.order := by
  obtain ⟨hitems, hlast⟩ := List.forall_mem_append.1 h
  have hstep : clause table ⟨.default⟩ (items ++ [last]) =
      addCondition table ⟨.default⟩ (clause table ⟨.default⟩ items) last := by
    unfold clause
    rw [List.foldl_append]
    rfl
  rw [hstep, (hlast last List.mem_cons_self).addCondition, clause_eq_joinedPredicates hitems hno,
    joinedPredicates_concat]

/-- The clause only grows, by a blank first. -/
theorem foldl_addCondition_blank {acc : Text} (hacc : acc ≠ []) {item : SqlConditionItem}
    {rest : List SqlConditionItem} (h : ∀ i ∈ item :: rest, i.Written table) :
    ∃ back, (item :: rest).foldl (addCondition table ⟨.default⟩) acc = acc ++ ' ' :: back := by
  induction rest generalizing acc item with
  | nil =>
    refine ⟨"AND ".toList ++ item.predicate ++ item.order, ?_⟩
    rw [List.foldl_cons, (h item List.mem_cons_self).addCondition, Text.appendWith_of_ne_nil hacc]
    simp
  | cons next rest ih =>
    obtain ⟨hitem, hrest⟩ := List.forall_mem_cons.1 h
    have hne : addCondition table ⟨.default⟩ acc item ≠ [] := by
      rw [hitem.addCondition, Text.appendWith_of_ne_nil hacc]
      simp [hacc]
    obtain ⟨back, hback⟩ := ih hne hrest
    refine ⟨"AND ".toList ++ item.predicate ++ item.order ++ ' ' :: back, ?_⟩
    rw [List.foldl_cons, hback, hitem.addCondition, Text.appendWith_of_ne_nil hacc]
    simp

/-- **The ordering stays where it is written**: behind it the clause goes on with the next condition. -/
theorem clause_order_append {pre post : List SqlConditionItem} {item next : SqlConditionItem}
    (h : ∀ i ∈ pre ++ item :: next :: post, i.Written table) (hno : orderings pre = 0) (ho : item.orders = true) :
    ∃ back, clause table ⟨.default⟩ (pre ++ item :: next :: post) =
      joinedPredicates (pre ++ [item]) ++ item.order ++ ' ' :: back := by
  have hsplit : pre ++ item :: next :: post = (pre ++ [item]) ++ next :: post := by simp
  rw [hsplit] at h ⊢
  obtain ⟨hfront, hback⟩ := List.forall_mem_append.1 h
  have hclause := clause_concat hfront hno
  have hne : joinedPredicates (pre ++ [item]) ++ item.order ≠ [] := by
    have horder : item.order ≠ [] := fun hnil => by
      rw [order_eq_nil] at hnil
      rw [orders, hnil] at ho
      exact absurd ho (by decide)
    simp [horder]
  have happend : clause table ⟨.default⟩ ((pre ++ [item]) ++ next :: post) =
      (next :: post).foldl (addCondition table ⟨.default⟩) (clause table ⟨.default⟩ (pre ++ [item])) := by
    unfold clause
    exact List.foldl_append
  rw [happend, hclause]
  exact foldl_addCondition_blank hne hback

/-- **Reading a clause with its ordering at the end.** -/
theorem readOrdered_clause_last {last : SqlConditionItem} (h : ∀ item ∈ items ++ [last], item.Written table)
    (hno : orderings items = 0) (ho : last.orders = true) :
    (readOrdered (clause table ⟨.default⟩ (items ++ [last]))).isSome =
      (read (joinedPredicates (items ++ [last]))).isSome := by
  obtain ⟨ts, hts⟩ := lex_joinedPredicates h
  obtain ⟨desc, hdesc⟩ := Option.isSome_iff_exists.1 ho
  have hlast := h last (List.mem_append_right _ List.mem_cons_self)
  rw [clause_concat h hno, order_eq hdesc, readOrdered_orderText hts hlast.identifier, Option.isSome_map]

/-- **No clause**: with anything behind the ordering, or a last condition without a finite end. -/
theorem readOrdered_clause_eq_none {pre post : List SqlConditionItem} {item : SqlConditionItem}
    (h : ∀ i ∈ pre ++ item :: post, i.Written table) (hno : orderings pre = 0) (ho : item.orders = true)
    (hbad : post ≠ [] ∨ item.IsWhole) : readOrdered (clause table ⟨.default⟩ (pre ++ item :: post)) = none := by
  cases post with
  | nil =>
    have hsome := readOrdered_clause_last h hno ho
    rwa [read_joinedPredicates_whole h (hbad.resolve_left (by simp)), Option.isSome_none,
      Option.isSome_eq_false_iff, Option.isNone_iff_eq_none] at hsome
  | cons next post =>
    obtain ⟨back, hback⟩ := clause_order_append h hno ho
    have hfront : ∀ i ∈ pre ++ [item], i.Written table := by
      intro i hi
      apply h
      simp only [List.mem_append, List.mem_cons] at hi ⊢
      tauto
    obtain ⟨ts, hts⟩ := lex_joinedPredicates hfront
    obtain ⟨desc, hdesc⟩ := Option.isSome_iff_exists.1 ho
    have hitem := h item (List.mem_append_right _ List.mem_cons_self)
    -- the clause goes on behind the ordering
    rw [hback, order_eq hdesc]
    exact readOrdered_orderText_append hts hitem.identifier desc back

/-! ## Placement -/

/-- The clause can stand behind WHERE: a predicate, with an ordering or without. -/
def clauseValid (table : SqlTableItem) (items : List SqlConditionItem) : Bool :=
  match SqlBuilder.buildConditionString ⟨some table, some ⟨.default⟩⟩ items with
  | .ok (some text) => (readOrdered text).isSome
  | .ok none => true
  | .error _ => false

/-- The truth of a clause on a row as `clauseTruth` has it, with an ordering or without. -/
def orderedTruth (table : SqlTableItem) (destColumns : List SqlColumnItem) (items : List SqlConditionItem)
    (row : Text → Int64) : Option Bool :=
  match SqlBuilder.buildConditionString ⟨some table, some ⟨.default⟩⟩ items,
    (SqlTableQuery.onDefault table).select destColumns items with
  | .ok none, .ok (some statement) => if statement.values.isEmpty then some true else none
  | .ok (some text), .ok (some statement) => readOrdered text >>= fun r => r.1.truth row statement.values
  | _, _ => none

/-- One ordering stands behind the predicates wherever its condition is, so that permuting
the conditions changes neither that the clause can be read nor the rows it selects; two
orderings are refused. -/
structure OrderPlacement (table : SqlTableItem) (items : List SqlConditionItem) : Prop where
  placed : orderings items = 1 → SqlBuilder.buildConditionString ⟨some table, some ⟨.default⟩⟩ items =
    .ok (some (joinedPredicates items ++ items.flatMap order))
  valid : orderings items = 1 → ∀ items', items'.Perm items → clauseValid table items' = clauseValid table items
  rows : orderings items = 1 → ∀ items', items'.Perm items → ∀ destColumns row,
    orderedTruth table destColumns items' row = orderedTruth table destColumns items row
  refused : 2 ≤ orderings items →
    SqlBuilder.buildConditionString ⟨some table, some ⟨.default⟩⟩ items = .ok none

/-- With an ordering there is a clause, however many are asked for. -/
theorem buildConditionString_orders (hv : table.isValid = true) (h : ∀ item ∈ items, item.Written table)
    (ho : 1 ≤ orderings items) : SqlBuilder.buildConditionString ⟨some table, some ⟨.default⟩⟩ items =
      .ok (some (clause table ⟨.default⟩ items)) := by
  have hne : clause table ⟨.default⟩ items ≠ [] := by
    obtain ⟨pre, item, post, rfl, -, hitem⟩ := exists_order ho
    have hmem : item ∈ pre ++ item :: post := List.mem_append_right _ List.mem_cons_self
    rw [Ne, clause_eq_nil hv]
    intro hno
    exact hno item hmem ⟨(h item hmem).isSet, (h item hmem).renderable, .inr hitem⟩
  rw [buildConditionString_eq hv fun item hitem => (h item hitem).not_faults, if_neg (by simpa using hne)]

theorem clauseValid_eq (hv : table.isValid = true) (h : ∀ item ∈ items, item.Written table)
    (ho : 1 ≤ orderings items) :
    clauseValid table items = (readOrdered (clause table ⟨.default⟩ items)).isSome := by
  rw [clauseValid, buildConditionString_orders hv h ho]

theorem orderedTruth_of_none (hv : table.isValid = true) (h : ∀ item ∈ items, item.Written table)
    (ho : 1 ≤ orderings items) (hnone : readOrdered (clause table ⟨.default⟩ items) = none)
    (destColumns : List SqlColumnItem) (row : Text → Int64) :
    orderedTruth table destColumns items row = none := by
  unfold orderedTruth
  rw [buildConditionString_orders hv h ho]
  cases (SqlTableQuery.onDefault table).select destColumns items with
  | error e => rfl
  | ok statement =>
    cases statement with
    | none => rfl
    | some statement =>
      simp only [hnone]
      rfl

theorem orderings_perm {items' : List SqlConditionItem} (h : items'.Perm items) :
    orderings items' = orderings items :=
  h.countP_eq _

theorem written_perm {items' : List SqlConditionItem} (h : ∀ item ∈ items, item.Written table)
    (hperm : items'.Perm items) : ∀ item ∈ items', item.Written table := by
  intro item hitem
  apply h
  exact hperm.mem_iff.1 hitem

/-- **The ordering of a condition without a finite end** leaves no order of the conditions in
which the clause can be read. -/
theorem readOrdered_whole {last : SqlConditionItem} {items' : List SqlConditionItem}
    (h : ∀ item ∈ items ++ [last], item.Written table) (hone : orderings (items ++ [last]) = 1)
    (hno : orderings items = 0) (hwhole : last.IsWhole) (hperm : items'.Perm (items ++ [last])) :
    readOrdered (clause table ⟨.default⟩ items') = none := by
  have hone' : orderings items' = 1 := (orderings_perm hperm).trans hone
  obtain ⟨pre, item, post, rfl, hpre, hitem⟩ := exists_order hone'.ge
  -- the condition with the ordering is `last`
  have hlast : item = last := by
    have hmem := hperm.mem_iff.1 (List.mem_append_right pre List.mem_cons_self)
    obtain hmem | hmem := List.mem_append.1 hmem
    · rw [orderings, List.countP_eq_zero] at hno
      exact absurd hitem (hno item hmem)
    · exact List.mem_singleton.1 hmem
  subst hlast
  exact readOrdered_clause_eq_none (written_perm h hperm) hpre hitem (.inr hwhole)

/-- **A condition with a finite end and an ordering**: behind the others, those without a finite
end first, it makes a clause; in front of them it does not. -/
theorem exists_perm_valid {last : SqlConditionItem} (h : ∀ item ∈ items ++ [last], item.Written table)
    (hno : orderings items = 0) (ho : last.orders = true) (hwhole : ¬last.IsWhole) :
    ∃ items', items'.Perm (items ++ [last]) ∧ (readOrdered (clause table ⟨.default⟩ items')).isSome = true := by
  -- the conditions without a text go to the front, where they leave no AND behind
  let wholes := items.filter fun item => item.IsWhole
  let others := items.filter fun item => !item.IsWhole
  have hperm : (wholes ++ others).Perm items := List.filter_append_perm _ items
  have hassoc : wholes ++ others ++ [last] = wholes ++ (others ++ [last]) := List.append_assoc _ _ _
  have hwritten : ∀ item ∈ wholes ++ others ++ [last], item.Written table := by
    intro item hitem
    apply h
    exact (hperm.append_right [last]).mem_iff.1 hitem
  have hwholes : ∀ item ∈ wholes, item.Written table ∧ item.IsWhole := by
    intro item hitem
    have hmem := List.mem_filter.1 hitem
    exact ⟨h item (List.mem_append_left _ hmem.1), by simpa using hmem.2⟩
  have hothers : ∀ item ∈ others ++ [last], item.Written table ∧ ¬item.IsWhole := by
    intro item hitem
    obtain hitem | hitem := List.mem_append.1 hitem
    · have hmem := List.mem_filter.1 hitem
      exact ⟨h item (List.mem_append_left _ hmem.1), by simpa using hmem.2⟩
    · rw [List.mem_singleton.1 hitem]
      exact ⟨h last (List.mem_append_right _ List.mem_cons_self), hwhole⟩
  refine ⟨wholes ++ others ++ [last], hperm.append_right _, ?_⟩
  obtain ⟨e, he⟩ := read_joinedPredicates hwholes hothers
  rw [readOrdered_clause_last hwritten ((orderings_perm hperm).trans hno) ho, hassoc, he]
  rfl

/-- In front of others a condition with an ordering makes no clause. -/
theorem readOrdered_order_first {item : SqlConditionItem} (h : ∀ i ∈ item :: items, i.Written table)
    (ho : item.orders = true) (hne : items ≠ []) :
    readOrdered (clause table ⟨.default⟩ (item :: items)) = none := by
  have hsplit : item :: items = [] ++ item :: items := rfl
  rw [hsplit] at h ⊢
  exact readOrdered_clause_eq_none h rfl ho (.inl hne)

/-- **The ordering is not at the end** if a condition follows its own. -/
theorem clause_ne_placed {pre post : List SqlConditionItem} {item next : SqlConditionItem}
    (h : ∀ i ∈ pre ++ item :: next :: post, i.Written table) (hone : orderings (pre ++ item :: next :: post) = 1)
    (hpre : orderings pre = 0) (ho : item.orders = true) :
    clause table ⟨.default⟩ (pre ++ item :: next :: post) ≠
      joinedPredicates (pre ++ item :: next :: post) ++ (pre ++ item :: next :: post).flatMap order := by
  have hpost : orderings (next :: post) = 0 := by
    rw [orderings_append, orderings_cons, if_pos ho] at hone
    omega
  have hfront : ∀ i ∈ pre ++ [item], i.Written table := by
    intro i hi
    apply h
    simp only [List.mem_append, List.mem_cons] at hi ⊢
    tauto
  obtain ⟨back, hback⟩ := clause_order_append h hpre ho
  obtain ⟨ts, hts⟩ := lex_joinedPredicates hfront
  obtain ⟨us, hus⟩ := lex_joinedPredicates h
  obtain ⟨desc, hdesc⟩ := Option.isSome_iff_exists.1 ho
  have hidentifier := (h item (List.mem_append_right _ List.mem_cons_self)).identifier
  have horder : (pre ++ item :: next :: post).flatMap order = orderText item.columnInfo.columnName desc := by
    rw [List.flatMap_append, List.flatMap_cons, flatMap_order hpre, flatMap_order hpost, List.append_nil,
      List.nil_append, order_eq hdesc]
  rw [hback, horder, order_eq hdesc]
  exact orderText_append_ne hts hus hidentifier hidentifier desc desc back

/-- A placed ordering is that of the last condition, which is alone or has no finite end. -/
theorem OrderPlacement.last (hplace : OrderPlacement table items) (hv : table.isValid = true)
    (h : ∀ item ∈ items, item.Written table) (hone : orderings items = 1) :
    ∃ init last, items = init ++ [last] ∧ orderings init = 0 ∧ (init = [] ∨ last.IsWhole) := by
  obtain ⟨pre, item, post, rfl, hpre, ho⟩ := exists_order hone.ge
  cases post with
  | cons next post =>
    have hplaced := hplace.placed hone
    rw [buildConditionString_orders hv h hone.ge, Except.ok.injEq, Option.some.injEq] at hplaced
    exact absurd hplaced (clause_ne_placed h hone hpre ho)
  | nil =>
    refine ⟨pre, item, rfl, hpre, ?_⟩
    by_contra hbad
    rw [not_or] at hbad
    -- in one order the clause can be read, and with the ordering in front it cannot
    obtain ⟨items', hperm, hsome⟩ := exists_perm_valid h hpre ho hbad.2
    have hfirst : (item :: pre).Perm (pre ++ [item]) := (List.perm_append_singleton item pre).symm
    have hwritten := written_perm h hperm
    have hwrittenFirst := written_perm h hfirst
    have hone' : orderings items' = 1 := (orderings_perm hperm).trans hone
    have honeFirst : orderings (item :: pre) = 1 := (orderings_perm hfirst).trans hone
    have hvalid := (hplace.valid hone items' hperm).trans (hplace.valid hone _ hfirst).symm
    rw [clauseValid_eq hv hwritten hone'.ge, clauseValid_eq hv hwrittenFirst honeFirst.ge,
      readOrdered_order_first hwrittenFirst ho hbad.1, hsome] at hvalid
    exact absurd hvalid (by decide)

/-- **Placed as asked**: the ordering of the last condition, if that is alone or has no finite end. -/
theorem OrderPlacement.of_last {last : SqlConditionItem} (hv : table.isValid = true)
    (h : ∀ item ∈ items ++ [last], item.Written table) (hno : orderings items = 0)
    (hlast : items = [] ∨ last.IsWhole) : OrderPlacement table (items ++ [last]) where
  placed hone := by
    have horder : (items ++ [last]).flatMap order = last.order := by
      rw [List.flatMap_append, flatMap_order hno, List.flatMap_singleton, List.nil_append]
    rw [buildConditionString_orders hv h hone.ge, clause_concat h hno, horder]
  valid hone items' hperm := by
    obtain rfl | hwhole := hlast
    · rw [List.perm_singleton.1 hperm]
      rfl
    · -- in no order of the conditions can the clause be read, so all orders agree
      have hone' : orderings items' = 1 := (orderings_perm hperm).trans hone
      have hnone := readOrdered_whole h hone hno hwhole hperm
      have hnone' := readOrdered_whole h hone hno hwhole (List.Perm.refl _)
      rw [clauseValid_eq hv (written_perm h hperm) hone'.ge, clauseValid_eq hv h hone.ge, hnone, hnone']
  rows hone items' hperm destColumns row := by
    obtain rfl | hwhole := hlast
    · rw [List.perm_singleton.1 hperm]
      rfl
    · have hone' : orderings items' = 1 := (orderings_perm hperm).trans hone
      have hnone := readOrdered_whole h hone hno hwhole hperm
      have hnone' := readOrdered_whole h hone hno hwhole (List.Perm.refl _)
      rw [orderedTruth_of_none hv (written_perm h hperm) hone'.ge hnone, orderedTruth_of_none hv h hone.ge hnone']
  refused htwo := by
    have hle : orderings [last] ≤ 1 := List.countP_le_length
    rw [orderings_append, hno] at htwo
    omega

/-- One condition with an ordering: `a` is at least 3, by `a`. -/
def orderedOne : List SqlConditionItem :=
  [⟨true, ColumnRange.columnA, some (.range [.ofEndpoint (.new (some 3) false .left)]), some false⟩]

/-- The same condition, and behind it `b` is 0. -/
def orderedFirst : List SqlConditionItem :=
  orderedOne ++ [⟨true, ColumnRange.columnB, some (.range [.ofPoint 0]), none⟩]

/-- The same condition, and behind it `b` is 0, by `b`. -/
def orderedTwice : List SqlConditionItem :=
  orderedOne ++ [⟨true, ColumnRange.columnB, some (.range [.ofPoint 0]), some true⟩]

instance {table : SqlTableItem} : DecidablePred (Written table) := fun item =>
  decidable_of_iff (item.isSet = true ∧ item.Renderable table ∧ Identifier item.columnInfo.columnName)
    ⟨fun h => ⟨h.1, h.2.1, h.2.2⟩, fun h => ⟨h.isSet, h.renderable, h.identifier⟩⟩

/-- `a` is at least 3, `b` is 0, and behind them the whole line, by `a`. -/
def orderedWhole : List SqlConditionItem :=
  [⟨true, ColumnRange.columnA, some (.range [.ofEndpoint (.new (some 3) false .left)]), none⟩,
    ⟨true, ColumnRange.columnB, some (.range [.ofPoint 0]), none⟩,
    ⟨true, ColumnRange.columnA, some (.range [.ofBoundaries ⟨none, true⟩ ⟨none, true⟩]), some true⟩]

end ProjectTrans
