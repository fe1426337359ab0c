import ProjectTrans.Lib.Predicate
import ProjectTrans.Proof.Condition.NormalForm
import ProjectTrans.Proof.Database.Placeholders

/-!
# What a condition clause means

The clause of conditions on integer columns, read as a predicate. A condition with a
finite end is a list of alternatives, and between conditions stands an `AND` without
parentheses around the alternatives: so the last alternative of a condition is tied to the
first of the next (`conjunctions`). A condition whose range is the whole line has no text,
and behind another one leaves an `AND` without a second operand.
-/

namespace ProjectTrans

open Predicate Wire SqlConditionItem
open Lexer (glue glue_assoc lex_blank)

/-! ## Intervals as operands -/

theorem EndpointRange.getIntegerEndpoint_id (e : EndpointRange Int64) : e.getIntegerEndpoint id = e := by
  rw [getIntegerEndpoint, Option.map_id, id, new_self]

theorem SingleInterval.getIntegerInterval_id (I : SingleInterval Int64) : I.getIntegerInterval id = I := by
  rw [getIntegerInterval, EndpointRange.getIntegerEndpoint_id, EndpointRange.getIntegerEndpoint_id,
    ofBoundaries_self]

/-- The sign of a left end. -/
def leftSign (I : SingleInterval Int64) : Sign := if I.left.isOpen then .gt else .ge

/-- The sign of a right end. -/
def rightSign (I : SingleInterval Int64) : Sign := if I.right.isOpen then .lt else .le

/-- An interval on a column, as an operand. The whole line is none, and stands for any. -/
def intervalOperand (f : Text × SingleInterval Int64) : Operand Int64 :=
  match f.2.left.value, f.2.right.value with
  | some a, some b => .both f.1 (leftSign f.2) a (rightSign f.2) b
  | some a, none => .one f.1 (leftSign f.2) a
  | none, some b => .one f.1 (rightSign f.2) b
  | none, none => .one f.1 .ge 0

theorem leftSign_holds {I : SingleInterval Int64} {a : Int64} (h : I.left.value = some a) (v : Int64) :
    (leftSign I).holds v a = I.left.isInRange v := by
  unfold leftSign EndpointRange.isInRange
  rw [h, I.left_side]
  rcases lt_trichotomy v a with hlt | rfl | hgt
  · cases I.left.isOpen <;> simp [Sign.holds, hlt, hlt.le]
  · cases I.left.isOpen <;> simp [Sign.holds]
  · cases I.left.isOpen <;> simp [Sign.holds, hgt, hgt.le, hgt.not_gt]

theorem rightSign_holds {I : SingleInterval Int64} {b : Int64} (h : I.right.value = some b) (v : Int64) :
    (rightSign I).holds v b = I.right.isInRange v := by
  unfold rightSign EndpointRange.isInRange
  rw [h, I.right_side]
  rcases lt_trichotomy v b with hlt | rfl | hgt
  · cases I.right.isOpen <;> simp [Sign.holds, hlt, hlt.le]
  · cases I.right.isOpen <;> simp [Sign.holds]
  · cases I.right.isOpen <;> simp [Sign.holds, hgt, hgt.not_gt]

/-- **An operand holds of the values of its interval**, unless that is the whole line. -/
theorem intervalOperand_holds {f : Text × SingleInterval Int64} (h : ¬f.2.IsWhole) (row : Text → Int64) :
    (intervalOperand f).holds row = f.2.isInRange (row f.1) := by
  unfold intervalOperand SingleInterval.isInRange
  cases hl : f.2.left.value with
  | some a =>
    have hleft := leftSign_holds hl (row f.1)
    cases hr : f.2.right.value with
    | some b => rw [← hleft, ← rightSign_holds hr (row f.1)]; rfl
    | none =>
      have hright : f.2.right.isInRange (row f.1) = true := by simp [EndpointRange.isInRange, hr]
      rw [← hleft, hright, Bool.and_true]
      rfl
  | none =>
    have hleft : f.2.left.isInRange (row f.1) = true := by simp [EndpointRange.isInRange, hl]
    cases hr : f.2.right.value with
    | some b =>
      rw [hleft, ← rightSign_holds hr (row f.1), Bool.true_and]
      rfl
    | none => exact absurd ⟨by simp [EndpointRange.isLimited, hl], by simp [EndpointRange.isLimited, hr]⟩ h

theorem intervalOperand_values {f : Text × SingleInterval Int64} (h : ¬f.2.IsWhole) :
    (intervalOperand f).values = f.2.ends := by
  unfold intervalOperand SingleInterval.ends
  cases hl : f.2.left.value <;> cases hr : f.2.right.value
  · exact absurd ⟨by simp [EndpointRange.isLimited, hl], by simp [EndpointRange.isLimited, hr]⟩ h
  all_goals rfl

/-- The text of a sign. -/
def signText : Sign → Text
  | .lt => ['<']
  | .le => ['<', '=']
  | .gt => ['>']
  | .ge => ['>', '=']
  | .eq => ['=']

theorem lex_signText (s : Sign) : lexer.lex (signText s) = some [.sign s] := by
  cases s <;> decide

/-- A comparison behind another text. -/
theorem lex_comparison {n : Text} (hn : Identifier n) (s : Sign) (front back : Text) :
    lexer.lex (front ++ ' ' :: (n ++ ' ' :: (signText s ++ ' ' :: (['?'] ++ ' ' :: back)))) =
      glue (lexer.lex front) (glue (some [.word n, .sign s, .hole]) (lexer.lex back)) := by
  have hhole : lexer.lex ['?'] = some [.hole] := by decide
  have hmerge : glue (some [.word n]) (glue (some [.sign s]) (glue (some [.hole]) (lexer.lex back))) =
      glue (some [.word n, .sign s, .hole]) (lexer.lex back) := by
    rw [← glue_assoc, ← glue_assoc]
    rfl
  rw [lex_blank, lex_blank, lex_identifier hn, lex_blank, lex_signText, lex_blank, hhole, hmerge]

/-- **The text of an interval** is that of its operand. -/
theorem lex_interval {n t : Text} {I : SingleInterval Int64} (hn : Identifier n)
    (h : SqliteStringify.tryFormatIntegerInterval ⟨.default⟩ I n = some t) :
    lexer.lex t = some (intervalOperand (n, I)).tokens := by
  have hopen : lexer.lex ['('] = some [.lparen] := by decide
  have hclose : lexer.lex [')'] = some [.rparen] := by decide
  have hand : lexer.lex "AND".toList = some [.conn .and] := by decide
  rw [intervalTemplate_chars] at h
  unfold intervalTemplate at h
  have hleft : (if I.left.isOpen then " > ".toList else " >= ".toList) =
      ' ' :: (signText (leftSign I) ++ [' ']) := by
    unfold leftSign
    cases I.left.isOpen <;> rfl
  have hright : (if I.right.isOpen then " < ".toList else " <= ".toList) =
      ' ' :: (signText (rightSign I) ++ [' ']) := by
    unfold rightSign
    cases I.right.isOpen <;> rfl
  simp only [hleft, hright] at h
  unfold intervalOperand
  cases hl : I.left.value with
  | none =>
    cases hr : I.right.value with
    -- an interval without ends has no text
    | none => simp [hl, hr] at h
    | some b =>
      have ht : t = ['('] ++ ' ' :: (n ++ ' ' :: (signText (rightSign I) ++ ' ' :: (['?'] ++ ' ' :: [')']))) := by
        simp only [hl, hr, Option.map_some, Option.some.injEq] at h
        rw [← h]
        simp [Piece.chars]
      rw [ht, lex_comparison hn, hopen, hclose]
      rfl
  | some a =>
    cases hr : I.right.value with
    | none =>
      have ht : t = ['('] ++ ' ' :: (n ++ ' ' :: (signText (leftSign I) ++ ' ' :: (['?'] ++ ' ' :: [')']))) := by
        simp only [hl, hr, Option.map_some, Option.some.injEq] at h
        rw [← h]
        simp [Piece.chars]
      rw [ht, lex_comparison hn, hopen, hclose]
      rfl
    | some b =>
      have ht : t = ['('] ++ ' ' :: (n ++ ' ' :: (signText (leftSign I) ++ ' ' :: (['?'] ++ ' ' ::
          ("AND".toList ++ ' ' ::
            (n ++ ' ' :: (signText (rightSign I) ++ ' ' :: (['?'] ++ ' ' :: [')']))))))) := by
        simp only [hl, hr, Option.map_some, Option.some.injEq] at h
        rw [← h]
        simp [Piece.chars]
      rw [ht, lex_comparison hn, lex_comparison hn, hopen, hclose, hand]
      rfl

/-- The text of an interval on column `n`. -/
def intervalText (n : Text) (I : SingleInterval Int64) : Text :=
  (SqliteStringify.tryFormatIntegerInterval ⟨.default⟩ I n).getD []

theorem tryFormatIntegerInterval_some {n : Text} {I : SingleInterval Int64} (hn : n ≠ []) (h : ¬I.IsWhole) :
    SqliteStringify.tryFormatIntegerInterval ⟨.default⟩ I n = some (intervalText n I) := by
  obtain ⟨t, ht⟩ := Option.ne_none_iff_exists'.1 (mt (tryFormatIntegerInterval_eq_none (s := ⟨.default⟩) hn).1 h)
  rw [intervalText, ht, Option.getD_some]

/-- Intervals with finite ends, joined by OR. -/
theorem formatIntervals_cons {n : Text} {I : SingleInterval Int64} {rest : List (SingleInterval Int64)}
    (hn : n ≠ []) (h : ∀ J ∈ I :: rest, ¬J.IsWhole) :
    SqliteStringify.formatIntervals ⟨.default⟩ n (I :: rest) =
      (rest.map (intervalText n)).foldl (Text.appendWith (' ' :: "OR".toList ++ [' '])) (intervalText n I) := by
  have hmap : (I :: rest).filterMap (fun J => SqliteStringify.tryFormatIntegerInterval ⟨.default⟩ J n) =
      (I :: rest).map (intervalText n) := by
    rw [← List.filterMap_eq_map]
    exact List.filterMap_congr fun J hJ => tryFormatIntegerInterval_some hn (h J hJ)
  unfold SqliteStringify.formatIntervals
  rw [hmap]
  rfl

/-- **The text of intervals** is that of their alternatives. -/
theorem lex_formatIntervals {n : Text} {is : List (SingleInterval Int64)} (hn : Identifier n) (hne : is ≠ [])
    (h : ∀ J ∈ is, ¬J.IsWhole) :
    SqliteStringify.formatIntervals ⟨.default⟩ n is ≠ [] ∧
      lexer.lex (SqliteStringify.formatIntervals ⟨.default⟩ n is) =
        some (altTokens (is.map fun J => intervalOperand (n, J))) := by
  have hlex : ∀ J ∈ is, lexer.lex (intervalText n J) = some (intervalOperand (n, J)).tokens :=
    fun J hJ => lex_interval hn (tryFormatIntegerInterval_some hn.1 (h J hJ))
  cases is with
  | nil => exact absurd rfl hne
  | cons I rest =>
    obtain ⟨hI, hrest⟩ := List.forall_mem_cons.1 hlex
    have hfirst : intervalText n I ≠ [] :=
      tryFormatIntegerInterval_ne_nil hn.1 (tryFormatIntegerInterval_some hn.1 (h I List.mem_cons_self))
    rw [formatIntervals_cons hn.1 h, separates_or.lex_foldl_appendWith hrest hfirst hI, Ne,
      Text.foldl_appendWith_eq_nil, List.map_cons, altTokens, List.flatMap_map]
    exact ⟨fun hnil => hfirst hnil.1, rfl⟩

/-! ## Range conditions on columns -/

/-- A set range condition on an integer column, without an ordering. -/
structure ColumnRange where
  column : SqlColumnItem
  range : RangeCondition Int64
  deriving DecidableEq

namespace ColumnRange

/-- The condition item; the query asks the range for its integer intervals. -/
def item (c : ColumnRange) : SqlConditionItem :=
  ⟨true, c.column, some (.range (c.range.getIntegerIntervals id)), none⟩

/-- A range that constructors and `add_range` made and that is not empty, on an integer
column of the table. A column exists under its name only if that is an identifier:
CREATE TABLE writes names without quotes, as every statement does. -/
structure Proper (table : SqlTableItem) (c : ColumnRange) : Prop where
  hasColumn : table.hasColumn c.column = true
  integer : isIntegerType c.column.dataType = true
  identifier : Identifier c.column.columnName
  built : c.range.Built
  nonempty : c.range.isEmpty = false

/-- The range contains the row's value. -/
def contains (c : ColumnRange) (row : Text → Int64) : Bool := c.range.isInRange (row c.column.columnName)

/-- The range has a finite end. -/
def restricts (c : ColumnRange) : Bool :=
  c.range.intervals.toList.any fun I => I.left.isLimited || I.right.isLimited

/-- The intervals, each with the column. -/
def fragments (c : ColumnRange) : List (Text × SingleInterval Int64) :=
  c.range.intervals.toList.map (Prod.mk c.column.columnName)

/-- The text of the condition. -/
def text (c : ColumnRange) : Text :=
  SqliteStringify.formatIntervals ⟨.default⟩ c.column.columnName c.range.intervals.toList

theorem item_intervals (c : ColumnRange) : c.item.intervals = c.range.intervals.toList := by
  have hid : (fun I : SingleInterval Int64 => I.getIntegerInterval id) = id :=
    funext SingleInterval.getIntegerInterval_id
  have hmap : c.item.intervals = c.range.intervals.toList.map (·.getIntegerInterval id) := rfl
  rw [hmap, hid, List.map_id]

variable {table : SqlTableItem} {c : ColumnRange}

theorem Proper.renderable (h : c.Proper table) : c.item.Renderable table := by
  refine ⟨h.hasColumn, h.integer, ?_⟩
  rw [item_intervals]
  have hne := h.nonempty
  rw [RangeCondition.isEmpty] at hne
  intro hnil
  rw [hnil] at hne
  exact absurd hne (by simp)

theorem item_not_faults (table : SqlTableItem) (c : ColumnRange) : ¬c.item.Faults table :=
  fun h => h.2.2.2 _ rfl

/-- With a finite end, no interval is the whole line. -/
theorem Proper.not_whole (h : c.Proper table) (hr : c.restricts = true) {f : Text × SingleInterval Int64}
    (hf : f ∈ c.fragments) : ¬f.2.IsWhole := by
  intro hwhole
  obtain ⟨I, hI, rfl⟩ := List.mem_map.1 hf
  have halone := h.built.whole_alone (OrderedSet.mem_def.2 hI) hwhole
  obtain ⟨J, hJ, hlim⟩ := List.any_eq_true.1 hr
  rw [halone, List.mem_singleton] at hJ
  subst hJ
  rw [hwhole.1, hwhole.2] at hlim
  exact absurd hlim (by decide)

/-- Without one, the range is the whole line. -/
theorem whole_of_not_restricts (hr : c.restricts = false) {I : SingleInterval Int64}
    (hI : I ∈ c.range.intervals.toList) : I.IsWhole := by
  have hlim := List.any_eq_false.1 hr I hI
  rw [Bool.or_eq_true, not_or, Bool.not_eq_true, Bool.not_eq_true] at hlim
  exact hlim

theorem Proper.exists_interval (h : c.Proper table) : ∃ I, I ∈ c.range.intervals.toList := by
  have hne := h.renderable.2.2
  rw [item_intervals] at hne
  exact List.exists_mem_of_ne_nil _ hne

theorem contains_iff (c : ColumnRange) (row : Text → Int64) :
    c.contains row = true ↔ ∃ f ∈ c.fragments, f.2.isInRange (row f.1) = true := by
  unfold contains RangeCondition.isInRange fragments
  simp

/-- **The text of a condition** is that of its alternatives. -/
theorem Proper.lex_text (h : c.Proper table) (hr : c.restricts = true) :
    c.text ≠ [] ∧ lexer.lex c.text = some (altTokens (c.fragments.map intervalOperand)) := by
  have hne : c.range.intervals.toList ≠ [] := by
    obtain ⟨I, hI⟩ := h.exists_interval
    exact List.ne_nil_of_mem hI
  have hlex := lex_formatIntervals h.identifier hne fun J hJ => h.not_whole hr (List.mem_map_of_mem hJ)
  rw [fragments, List.map_map]
  exact hlex

/-- The whole line has no text. -/
theorem Proper.text_whole (h : c.Proper table) (hr : c.restricts = false) : c.text = [] :=
  (formatIntervals_eq_nil h.identifier.1).2 fun _ hI => whole_of_not_restricts hr hI

/-- What the condition adds to the clause. -/
theorem Proper.addCondition (h : c.Proper table) (acc : Text) :
    addCondition table ⟨.default⟩ acc c.item = Text.appendWith (' ' :: "AND".toList ++ [' ']) acc c.text := by
  have hadd : ProjectTrans.addCondition table ⟨.default⟩ acc c.item = _ := if_pos ⟨rfl, h.renderable⟩
  rw [hadd, item_intervals, signs_default.1]
  exact List.append_nil _

/-- The clause is made of the texts of the conditions. -/
theorem clause_eq {conds : List ColumnRange} (h : ∀ c ∈ conds, c.Proper table) :
    clause table ⟨.default⟩ (conds.map item) =
      (conds.map text).foldl (Text.appendWith (' ' :: "AND".toList ++ [' '])) [] := by
  rw [clause, List.foldl_map, List.foldl_map]
  exact List.foldl_ext _ _ _ fun acc c hc => (h c hc).addCondition acc

/-- The alternatives of a condition with a finite end. -/
def alternatives (c : ColumnRange) : List (Operand Int64) :=
  if c.restricts then c.fragments.map intervalOperand else []

theorem Proper.lex_alternatives (h : c.Proper table) : lexer.lex c.text = some (altTokens c.alternatives) := by
  unfold alternatives
  by_cases hr : c.restricts = true
  · rw [if_pos hr]
    exact (h.lex_text hr).2
  · rw [if_neg hr, h.text_whole (by simpa using hr)]
    rfl

theorem Proper.alternatives_ne_nil (h : c.Proper table) (hr : c.restricts = true) : c.alternatives ≠ [] := by
  obtain ⟨I, hI⟩ := h.exists_interval
  rw [alternatives, if_pos hr]
  exact List.ne_nil_of_mem (List.mem_map_of_mem (List.mem_map_of_mem hI))

/-- The conditions from the first one with a finite end on: the others leave no text. -/
def written (conds : List ColumnRange) : List ColumnRange := conds.dropWhile fun c => !c.restricts

theorem written_head {conds later : List ColumnRange} {c : ColumnRange} (h : written conds = c :: later) :
    c ∈ conds ∧ c.restricts = true := by
  have hhead := List.head?_dropWhile_not (fun c : ColumnRange => !c.restricts) conds
  unfold written at h
  rw [h, List.head?_cons] at hhead
  have hc : c ∈ conds.dropWhile fun c => !c.restricts := h ▸ List.mem_cons_self
  exact ⟨(List.dropWhile_sublist _).mem hc, by simpa using hhead⟩

/-- **The clause**: nothing, or lists of alternatives, of which that of the whole line is empty. -/
theorem lex_clause {conds : List ColumnRange} (h : ∀ c ∈ conds, c.Proper table) :
    match written conds with
    | [] => clause table ⟨.default⟩ (conds.map item) = []
    | c :: later => clause table ⟨.default⟩ (conds.map item) ≠ [] ∧
        lexer.lex (clause table ⟨.default⟩ (conds.map item)) =
          some (altTokens c.alternatives ++ laterTokens (later.map alternatives)) := by
  rw [clause_eq h]
  induction conds with
  | nil => rfl
  | cons c rest ih =>
    obtain ⟨hc, hrest⟩ := List.forall_mem_cons.1 h
    rw [List.map_cons, List.foldl_cons, Text.appendWith_nil]
    by_cases hr : c.restricts = true
    · have hwritten : written (c :: rest) = c :: rest := List.dropWhile_cons_of_neg (by simpa using hr)
      have hne := (hc.lex_text hr).1
      rw [hwritten]
      refine ⟨fun hnil => hne (Text.foldl_appendWith_eq_nil.1 hnil).1, ?_⟩
      rw [separates_and.lex_foldl_appendWith (fun x hx => (hrest x hx).lex_alternatives) hne hc.lex_alternatives,
        laterTokens, List.flatMap_map]
      rfl
    · have hr : c.restricts = false := by simpa using hr
      -- a first condition without text is skipped
      have hwritten : written (c :: rest) = written rest := List.dropWhile_cons_of_pos (by simp [hr])
      rw [hwritten, hc.text_whole hr]
      exact ih hrest

/-! ## The branches of a clause -/

/-- The conjunctions that the clause is a disjunction of: the last interval of a condition
goes with the first of the next one. -/
def conjunctions (conds : List ColumnRange) : List (List (Text × SingleInterval Int64)) :=
  branches [] (chain ((conds.filter (·.restricts)).map fragments))

theorem written_eq_filter {conds : List ColumnRange} (h : (written conds).all (·.restricts) = true) :
    written conds = conds.filter (·.restricts) := by
  unfold written at *
  induction conds with
  | nil => rfl
  | cons c rest ih =>
    by_cases hr : c.restricts = true
    · rw [List.dropWhile_cons_of_neg (by simpa using hr)] at h ⊢
      exact (List.filter_eq_self.2 (List.all_eq_true.1 h)).symm
    · rw [List.dropWhile_cons_of_pos (by simpa using hr)] at h ⊢
      rw [List.filter_cons_of_neg hr]
      exact ih h

/-- Every interval of a conjunction is one of a condition with a finite end. -/
theorem mem_conjunctions {conds : List ColumnRange} {b : List (Text × SingleInterval Int64)}
    {f : Text × SingleInterval Int64} (hb : b ∈ conjunctions conds) (hf : f ∈ b) :
    ∃ c ∈ conds, c.restricts = true ∧ f ∈ c.fragments := by
  obtain h | h := mem_branches hb hf
  · exact absurd h List.not_mem_nil
  · rw [chain_snd, ← List.flatMap_def] at h
    obtain ⟨c, hc, hfc⟩ := List.mem_flatMap.1 h
    obtain ⟨hc, hr⟩ := List.mem_filter.1 hc
    exact ⟨c, hc, hr, hfc⟩

/-- The conjunctions of the operands. -/
theorem branches_alternatives (conds : List ColumnRange) :
    branches [] (chain ((conds.filter (·.restricts)).map alternatives)) =
      (conjunctions conds).map (List.map intervalOperand) := by
  have halt : (conds.filter (·.restricts)).map alternatives =
      ((conds.filter (·.restricts)).map fragments).map (List.map intervalOperand) := by
    rw [List.map_map]
    refine List.map_congr_left fun c hc => ?_
    rw [alternatives, if_pos (List.mem_filter.1 hc).2]
    rfl
  have hmap := branches_map intervalOperand [] (chain ((conds.filter (·.restricts)).map fragments))
  rw [halt, chain_map, conjunctions, ← hmap]
  rfl

/-- The values that the operands stand for. -/
theorem chain_values {conds : List ColumnRange} (h : ∀ c ∈ conds, c.Proper table) :
    (chain ((conds.filter (·.restricts)).map alternatives)).flatMap (fun f => f.2.values) =
      conds.flatMap fun c => c.range.intervals.toList.flatMap (·.ends) := by
  have hsnd : (chain ((conds.filter (·.restricts)).map alternatives)).flatMap (fun f => f.2.values) =
      ((conds.filter (·.restricts)).map alternatives).flatten.flatMap (·.values) := by
    rw [← chain_snd, List.flatMap_map]
  rw [hsnd, ← List.flatMap_def, List.flatMap_assoc]
  clear hsnd
  induction conds with
  | nil => rfl
  | cons c rest ih =>
    obtain ⟨hc, hrest⟩ := List.forall_mem_cons.1 h
    rw [List.flatMap_cons, ← ih hrest]
    by_cases hr : c.restricts = true
    · have hvalues : c.alternatives.flatMap (·.values) = c.range.intervals.toList.flatMap (·.ends) := by
        rw [alternatives, if_pos hr, List.flatMap_map, fragments, List.flatMap_map]
        exact List.flatMap_congr fun I hI => intervalOperand_values (hc.not_whole hr (List.mem_map_of_mem hI))
      rw [List.filter_cons_of_pos hr, List.flatMap_cons, hvalues]
    · -- a condition that restricts nothing has no finite end, and binds nothing
      have hvalues : c.range.intervals.toList.flatMap (·.ends) = [] := by
        refine List.flatMap_eq_nil_iff.2 fun I hI => ?_
        obtain ⟨hl, hr⟩ := whole_of_not_restricts (by simpa using hr) hI
        rw [EndpointRange.isLimited, Option.isSome_eq_false_iff, Option.isNone_iff_eq_none] at hl hr
        rw [SingleInterval.ends, hl, hr]
        rfl
      rw [List.filter_cons_of_neg hr, hvalues, List.nil_append]

/-! ## The values of a selection -/

theorem Proper.bound (h : c.Proper table) : c.item.Bound table :=
  ⟨rfl, SqlTableItem.hasColumnName_of_hasColumn h.hasColumn, h.integer⟩

theorem bindConditions_items {conds : List ColumnRange} (h : ∀ c ∈ conds, c.Proper table) (s : Statement) :
    ∃ s', SqlTableQuery.bindConditions table s (conds.map item) = .ok s' := by
  induction conds generalizing s with
  | nil => exact ⟨s, rfl⟩
  | cons c rest ih =>
    obtain ⟨hc, hrest⟩ := List.forall_mem_cons.1 h
    obtain ⟨hset, hname, hint⟩ := hc.bound
    rw [List.map_cons, SqlTableQuery.bindConditions, hset, hname, hint]
    exact ih hrest _

end ColumnRange

/-- The 64-bit values bound to a statement, in the order of their placeholders. -/
def Statement.values (s : Statement) : List Int64 :=
  s.binds.filterMap fun b =>
    match b.2.data with
    | .int64 v => some v
    | _ => none

theorem Statement.values_bindAll (s : Statement) (l : List Int64) :
    (s.bindAll (l.map SqlCell.ofInt64)).values = s.values ++ l := by
  induction l generalizing s with
  | nil => exact (List.append_nil _).symm
  | cons v l ih =>
    have hstep : (s.bind (.ofInt64 v)).values = s.values ++ [v] := List.filterMap_append
    have hcons : s.bindAll ((v :: l).map SqlCell.ofInt64) = (s.bind (.ofInt64 v)).bindAll
      (l.map SqlCell.ofInt64) := rfl
    rw [hcons, ih, hstep, List.append_assoc, List.singleton_append]

/-- The truth of a condition clause on a row, its placeholders filled with what `select`
binds; there is none if the clause is no predicate, or the values are too few or too many. -/
def clauseTruth (table : SqlTableItem) (destColumns : List SqlColumnItem) (items : List SqlConditionItem)
    (row : Text → Int64) : Option Bool :=
  match SqlBuilder.buildConditionString ⟨some table, some ⟨.default⟩⟩ items,
    (SqlTableQuery.onDefault table).select destColumns items with
  | .ok none, .ok (some statement) => if statement.values.isEmpty then some true else none
  | .ok (some text), .ok (some statement) => read text >>= fun e => e.truth row statement.values
  | _, _ => none

namespace ColumnRange

variable {table : SqlTableItem} {c : ColumnRange}

theorem boundConditions_items {conds : List ColumnRange} (h : ∀ c ∈ conds, c.Proper table) :
    boundConditions table (conds.map item) =
      (conds.flatMap fun c => c.range.intervals.toList.flatMap (·.ends)).map SqlCell.ofInt64 := by
  have hall : (conds.map item).filter (fun item => item.Bound table) = conds.map item := by
    refine List.filter_eq_self.2 fun i hi => ?_
    obtain ⟨c, hc, rfl⟩ := List.mem_map.1 hi
    exact decide_eq_true (h c hc).bound
  rw [boundConditions, hall, List.flatMap_map, List.map_flatMap]
  refine List.flatMap_congr fun c _ => ?_
  rw [SqlConditionItem.values, item_intervals]

/-- **A selection binds the finite ends** of the conditions, in order. -/
theorem select_values {conds : List ColumnRange} (hv : table.isValid = true) (h : ∀ c ∈ conds, c.Proper table)
    (destColumns : List SqlColumnItem) :
    ∃ statement, (SqlTableQuery.onDefault table).select destColumns (conds.map item) = .ok (some statement) ∧
      statement.values = conds.flatMap fun c => c.range.intervals.toList.flatMap (·.ends) := by
  have hfaults : ∀ i ∈ conds.map item, ¬i.Faults table := by
    intro i hi
    obtain ⟨c, -, rfl⟩ := List.mem_map.1 hi
    exact item_not_faults table c
  obtain ⟨sql, hsql⟩ : ∃ sql, SqlBuilder.buildSelectString ⟨some table, some ⟨.default⟩⟩ destColumns
    (conds.map item) =
      .ok (some sql) := by
    simp only [SqlBuilder.buildSelectString, deref, Checked.ok_bind, hv, Bool.not_true, Bool.false_eq_true,
      if_false, buildDestColumnsString_eq hv, buildConditionString_eq hv hfaults]
    exact ⟨_, rfl⟩
  obtain ⟨statement, hstatement⟩ := bindConditions_items h (.prepare sql)
  refine ⟨statement, ?_, ?_⟩
  · show (SqlBuilder.buildSelectString ⟨some table, some ⟨.default⟩⟩ destColumns (conds.map item) >>= _) = _
    rw [hsql, Checked.ok_bind]
    dsimp only
    rw [hstatement]
    rfl
  · rw [bindConditions_ok hstatement, boundConditions_items h, Statement.values_bindAll]
    rfl

/-! ## Truth -/

theorem clauseTruth_spec {conds : List ColumnRange} (hv : table.isValid = true) (h : ∀ c ∈ conds, c.Proper table)
    (destColumns : List SqlColumnItem) (row : Text → Int64) :
    clauseTruth table destColumns (conds.map item) row =
      let values := conds.flatMap fun c => c.range.intervals.toList.flatMap (·.ends)
      if (clause table ⟨.default⟩ (conds.map item)).isEmpty then if values.isEmpty then some true else none
      else read (clause table ⟨.default⟩ (conds.map item)) >>= fun e => e.truth row values := by
  have hfaults : ∀ i ∈ conds.map item, ¬i.Faults table := by
    intro i hi
    obtain ⟨c, -, rfl⟩ := List.mem_map.1 hi
    exact item_not_faults table c
  obtain ⟨statement, hselect, hvalues⟩ := select_values hv h destColumns
  rw [clauseTruth, buildConditionString_eq hv hfaults, hselect, ← hvalues]
  by_cases hnil : (clause table ⟨.default⟩ (conds.map item)).isEmpty = true
  · rw [if_pos hnil, if_pos hnil]
  · rw [if_neg hnil, if_neg hnil]

/-- **A clause without a dangling AND** is the disjunction of its conjunctions. -/
theorem clauseTruth_eq {conds : List ColumnRange} (hv : table.isValid = true) (h : ∀ c ∈ conds, c.Proper table)
    (hw : (written conds).all (·.restricts) = true) (destColumns : List SqlColumnItem) (row : Text → Int64) :
    clauseTruth table destColumns (conds.map item) row =
      some ((conjunctions conds).any fun b => b.all fun f => f.2.isInRange (row f.1)) := by
  have hfilter := written_eq_filter hw
  have hlex := lex_clause h
  have hvalues := chain_values h
  have hbranches := branches_alternatives conds
  rw [clauseTruth_spec hv h, ← hvalues]
  rw [← hfilter] at hbranches ⊢
  -- the operands of a conjunction hold of the values of its intervals
  have hholds : ((conjunctions conds).map (List.map intervalOperand)).any (fun b => b.all (·.holds row)) =
      (conjunctions conds).any fun b => b.all fun f => f.2.isInRange (row f.1) := by
    rw [List.any_map, Bool.eq_iff_iff, List.any_eq_true, List.any_eq_true]
    refine exists_congr fun b => and_congr_right fun hb => ?_
    rw [Function.comp_apply, List.all_map, List.all_eq_true, List.all_eq_true]
    refine forall₂_congr fun f hf => ?_
    obtain ⟨c, hc, hr, hfc⟩ := mem_conjunctions hb hf
    rw [Function.comp_apply, intervalOperand_holds ((h c hc).not_whole hr hfc)]
  rw [← hholds, ← hbranches]
  cases hwritten : written conds with
  | nil =>
    rw [hwritten] at hlex
    rw [hlex]
    rfl
  | cons c later =>
    rw [hwritten] at hlex hw hfilter
    obtain ⟨hne, hlex⟩ := hlex
    have hproper : ∀ d ∈ c :: later, d.Proper table ∧ d.restricts = true := by
      intro d hd
      rw [hfilter] at hd
      exact ⟨h d (List.mem_filter.1 hd).1, (List.mem_filter.1 hd).2⟩
    obtain ⟨hc, hlater⟩ := List.forall_mem_cons.1 hproper
    have hlater : ∀ g ∈ later.map alternatives, g ≠ [] := by
      intro g hg
      obtain ⟨d, hd, rfl⟩ := List.mem_map.1 hg
      exact (hlater d hd).1.alternatives_ne_nil (hlater d hd).2
    rw [if_neg (by simpa using hne), List.map_cons, Predicate.read, hlex]
    cases hg : c.alternatives with
    | nil => exact absurd hg (hc.1.alternatives_ne_nil hc.2)
    | cons f fs =>
      obtain ⟨e, hparse, hmeans⟩ := parse_groups f fs hlater
      simp only [Option.bind_eq_bind, Option.bind_some, hparse]
      exact hmeans.truth_eq row

/-- **A dangling AND**: a clause that goes on with the whole line is no predicate. -/
theorem clauseTruth_dangling {conds : List ColumnRange} (hv : table.isValid = true)
    (h : ∀ c ∈ conds, c.Proper table)
    (hw : ¬(written conds).all (·.restricts) = true) (destColumns : List SqlColumnItem) (row : Text → Int64) :
    clauseTruth table destColumns (conds.map item) row = none := by
  have hlex := lex_clause h
  rw [clauseTruth_spec hv h]
  cases hwritten : written conds with
  | nil =>
    rw [hwritten] at hw
    exact absurd rfl hw
  | cons c later =>
    rw [hwritten] at hlex hw
    obtain ⟨hne, hlex⟩ := hlex
    obtain ⟨hmem, hr⟩ := written_head hwritten
    -- the whole line stands behind `c`
    have hempty : [] ∈ later.map alternatives := by
      rw [List.all_cons, hr, Bool.true_and, List.all_eq_true] at hw
      push Not at hw
      obtain ⟨d, hd, hdr⟩ := hw
      exact List.mem_map.2 ⟨d, hd, if_neg hdr⟩
    rw [if_neg (by simpa using hne), Predicate.read, hlex]
    cases hg : c.alternatives with
    | nil => exact absurd hg ((h c hmem).alternatives_ne_nil hr)
    | cons f fs =>
      simp only [Option.bind_eq_bind, Option.bind_some, parse_groups_empty f fs hempty, Option.bind_none]

/-! ## When the clause means the conditions -/

/-- A value that every interval of a conjunction on column `n` contains. -/
def Common (b : List (Text × SingleInterval Int64)) (n : Text) (v : Int64) : Prop :=
  ∀ f ∈ b, f.1 = n → f.2.isInRange v = true

/-- The intervals of a conjunction on some column have no common value, or those on the
column of `c` have common values in its range only. -/
def Implies (b : List (Text × SingleInterval Int64)) (c : ColumnRange) : Prop :=
  (∃ n, ∀ v, ¬Common b n v) ∨ ∀ v, Common b c.column.columnName v → c.range.isInRange v = true

theorem common_row {b : List (Text × SingleInterval Int64)} {row : Text → Int64} :
    (b.all fun f => f.2.isInRange (row f.1)) = true ↔ ∀ n, Common b n (row n) := by
  rw [List.all_eq_true]
  constructor
  · rintro h n f hf rfl
    exact h f hf
  · intro h f hf
    exact h f.1 f hf rfl

/-- **The rows of a conjunction satisfy a condition** exactly when it implies it: the
columns of a row are independent of each other. -/
theorem implies_iff {b : List (Text × SingleInterval Int64)} {c : ColumnRange} :
    Implies b c ↔ ∀ row, (b.all fun f => f.2.isInRange (row f.1)) = true → c.contains row = true := by
  simp only [common_row]
  constructor
  · intro h row hrow
    obtain ⟨n, hn⟩ | h := h
    · exact absurd (hrow n) (hn _)
    · exact h _ (hrow _)
  · intro h
    by_cases hsat : ∀ n, ∃ v, Common b n v
    · -- a row of the conjunction, with any common value in the column of `c`
      choose row hrow using hsat
      refine .inr fun v hv => ?_
      have hcontains := h (Function.update row c.column.columnName v) fun n => by
        by_cases hn : n = c.column.columnName
        · subst hn
          rwa [Function.update_self]
        · rw [Function.update_of_ne hn]
          exact hrow n
      rwa [contains, Function.update_self] at hcontains
    · push Not at hsat
      exact .inl hsat

/-- A row of all conditions is one of some conjunction. -/
theorem exists_conjunction {conds : List ColumnRange} {row : Text → Int64}
    (h : ∀ c ∈ conds, c.contains row = true) :
    ((conjunctions conds).any fun b => b.all fun f => f.2.isInRange (row f.1)) = true := by
  have hgroups : ∀ g ∈ (conds.filter (·.restricts)).map fragments, ∃ f ∈ g, f.2.isInRange (row f.1) = true := by
    intro g hg
    obtain ⟨c, hc, rfl⟩ := List.mem_map.1 hg
    exact (contains_iff c row).1 (h c (List.mem_filter.1 hc).1)
  obtain ⟨b, hb, hall⟩ := exists_branch hgroups [] (by simp)
  exact List.any_eq_true.2 ⟨b, hb, List.all_eq_true.2 hall⟩

/-- Behind a finite end the whole line leaves an AND without a second operand. -/
example :
    let column : SqlColumnItem := ⟨0, "a".toList, .int64, true, true, false, none⟩
    let whole : SingleInterval Int64 := .ofEndpoint (.infinite .left)
    let conds : List ColumnRange := [⟨column, .ofPoint 0⟩, ⟨column, .ofInterval whole⟩]
    SqlBuilder.buildConditionString ⟨some ⟨"t".toList, [column], false⟩, some ⟨.default⟩⟩ (conds.map item) =
      .ok (some "( a >= ? AND a <= ? ) AND ".toList) := by
  decide +kernel

/-- Two integer columns. -/
def columnA : SqlColumnItem := ⟨0, "a".toList, .int64, true, true, false, none⟩

def columnB : SqlColumnItem := ⟨1, "b".toList, .int64, false, true, false, none⟩

def tableAB : SqlTableItem := ⟨"t".toList, [columnA, columnB], false⟩

/-- `a` is at least 3, and `b` is 0. -/
def oneInterval : List ColumnRange :=
  [⟨columnA, .ofInterval (.ofEndpoint (.new (some 3) false .left))⟩, ⟨columnB, .ofPoint 0⟩]

/-- `a` is 1 or 5, and `b` is 0. -/
def twoIntervals : List ColumnRange :=
  [⟨columnA, (RangeCondition.ofPoint 1).addRange (.ofPoint 5) .or⟩, ⟨columnB, .ofPoint 0⟩]

theorem proper_of_check {table : SqlTableItem} {c : ColumnRange}
    (h : table.hasColumn c.column = true ∧ isIntegerType c.column.dataType = true ∧
      Identifier c.column.columnName ∧ c.range.isEmpty = false) (hb : c.range.Built) : c.Proper table :=
  ⟨h.1, h.2.1, h.2.2.1, hb, h.2.2.2⟩

end ColumnRange

end ProjectTrans
