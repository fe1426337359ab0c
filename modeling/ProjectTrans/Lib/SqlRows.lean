import Mathlib.Data.List.Perm.Basic
import ProjectTrans.Lib.Sql

/-!
# Tables of entities

A table whose rows are the codes of entities, of which a column is the primary key. As long
as the keys are distinct, each statement does to the entities what it says: `exec_insert`,
`exec_update`, `exec_delete`, `exec_select`, `exec_count`, `exec_max`.
-/

namespace Sql

open Predicate

/-! ## Orders of results -/

/-- A list in the order of a mapped one is the image of one in another order. -/
theorem exists_perm_of_perm_map {α β : Type*} {f : α → β} {l : List β} {es : List α} (h : l.Perm (es.map f)) :
    ∃ es' : List α, es'.Perm es ∧ l = es'.map f := by
  have hcomp : Relation.Comp (fun l m => l = List.map f m) List.Perm l es := by
    rw [List.eq_map_comp_perm]
    exact h
  obtain ⟨es', hl, hperm⟩ := hcomp
  exact ⟨es', hperm, hl⟩

/-- Reading a code each gives what was coded. -/
theorem mapM_map {α β γ : Type*} {f : α → β} {g : β → Option γ} {k : α → γ} {es : List α}
    (h : ∀ e ∈ es, g (f e) = some (k e)) : (es.map f).mapM g = some (es.map k) := by
  induction es with
  | nil => rfl
  | cons e es ih =>
    obtain ⟨he, hes⟩ := List.forall_mem_cons.1 h
    rw [List.map_cons, List.mapM_cons, he, ih hes]
    rfl

/-! ## Selecting among codes -/

section Codes

variable {E : Type*} {encode : E → Row} {p : Row → Option Bool} {q : E → Bool} {es : List E}

theorem pick_map (h : ∀ e ∈ es, p (encode e) = some (q e)) (keep : Bool) :
    pick p keep (es.map encode) = some ((es.filter fun e => q e = keep).map encode) := by
  induction es with
  | nil => rfl
  | cons e es ih =>
    obtain ⟨he, hes⟩ := List.forall_mem_cons.1 h
    rw [List.map_cons, pick, he, ih hes]
    by_cases hq : q e = keep
    · rw [List.filter_cons_of_pos (by simpa using hq)]
      simp [hq]
    · rw [List.filter_cons_of_neg (by simpa using hq)]
      simp [hq]

theorem change_map {f : Row → Row} {g : E → E} (h : ∀ e ∈ es, p (encode e) = some (q e))
    (hf : ∀ e ∈ es, q e = true → f (encode e) = encode (g e)) :
    change p f (es.map encode) = some ((es.map fun e => if q e then g e else e).map encode) := by
  induction es with
  | nil => rfl
  | cons e es ih =>
    obtain ⟨he, hes⟩ := List.forall_mem_cons.1 h
    obtain ⟨hfe, hfes⟩ := List.forall_mem_cons.1 hf
    rw [List.map_cons, change, he, ih hes hfes]
    cases hq : q e with
    | true => simp [hq, hfe hq]
    | false => simp [hq]

end Codes

/-- The condition that an integer column has a value, as two comparisons. -/
def between (name : Text) : Expr := .and (.test name .ge) (.test name .le)

theorem test_between {row : Text → Option Value} {name : Text} {x : Int64} (h : row name = some (.integer x))
    (v : Int64) (rest : List Value) :
    test row (between name) (.integer v :: .integer v :: rest) = some (decide (x = v), rest) := by
  have hboth : (decide (v ≤ x) && decide (x ≤ v)) = decide (x = v) := by
    rw [← Bool.decide_and, decide_eq_decide]
    constructor
    · rintro ⟨hle, hge⟩
      exact Int64.le_antisymm hge hle
    · rintro rfl
      exact ⟨Int64.le_refl x, Int64.le_refl x⟩
  have hge : test row (.test name .ge) (.integer v :: .integer v :: rest) =
      some (decide (v ≤ x), .integer v :: rest) := by
    rw [test, h]
    rfl
  have hle : test row (.test name .le) (.integer v :: rest) = some (decide (x ≤ v), rest) := by
    rw [test, h]
    rfl
  rw [← hboth, between, test, hge]
  simp only [Option.bind_eq_bind, Option.bind_some]
  rw [hle]
  rfl

/-- Rows selected by the value of one column. -/
theorem selects_between {columns : List Column} {row : Row} {name : Text} {x : Int64}
    (h : cell columns row name = some (.integer x)) (v : Int64) :
    selects columns (some (between name)) [.integer v, .integer v] row = some (decide (x = v)) := by
  unfold selects
  dsimp only
  rw [test_between h]

/-- Rows selected by the values of two columns. -/
theorem selects_between_and {columns : List Column} {row : Row} {name name' : Text} {x x' : Int64}
    (h : cell columns row name = some (.integer x)) (h' : cell columns row name' = some (.integer x'))
    (v v' : Int64) : selects columns (some (.and (between name) (between name')))
        [.integer v, .integer v, .integer v', .integer v'] row = some (decide (x = v ∧ x' = v')) := by
  unfold selects
  dsimp only
  rw [test, test_between h]
  simp only [Option.bind_eq_bind, Option.bind_some]
  rw [test_between h']
  simp only [Option.bind_some, Bool.decide_and]
  rfl

/-- A row without NULL has a value in each column. -/
theorem exists_cell {columns : List Column} {row : Row} {c : Column} (hc : c ∈ columns)
    (hlength : columns.length ≤ row.length) (hnull : .null ∉ row) :
    ∃ v, cell columns row c.name = some v ∧ v ≠ .null := by
  induction columns generalizing row with
  | nil => exact absurd hc List.not_mem_nil
  | cons c' columns ih =>
    cases row with
    | nil => exact absurd hlength (Nat.not_succ_le_zero _)
    | cons v row =>
      rw [cell]
      by_cases hname : c'.name = c.name
      · refine ⟨v, if_pos hname, ?_⟩
        rintro rfl
        exact hnull List.mem_cons_self
      · rw [if_neg hname]
        have hne : c ≠ c' := by
          rintro rfl
          exact hname rfl
        exact ih ((List.mem_cons.1 hc).resolve_left hne) (Nat.le_of_succ_le_succ hlength)
          fun h => hnull (List.mem_cons_of_mem v h)

/-! ## Codings -/

/-- Entities as rows: their key is the primary key, and no column is NULL. -/
structure Coding (E : Type*) where
  columns : List Column
  keyName : Text
  key : E → Int64
  encode : E → Row
  admits : ∀ e, ((List.zipWith Column.admits columns (encode e)).all id) = true
  keyed : ∀ e, cell columns (encode e) keyName = some (.integer (key e))
  hasKey : ∃ c ∈ columns, c.name = keyName ∧ (c.primaryKey || c.unique) = true
  unique : ∀ c ∈ columns, (c.primaryKey || c.unique) = true → c.name = keyName
  notNull : ∀ c ∈ columns, ∀ e, ∃ v, cell columns (encode e) c.name = some v ∧ v ≠ .null

namespace Coding

variable {E : Type*} (C : Coding E)

/-- The table of some entities. -/
def table (es : List E) : Table := ⟨C.columns, es.map C.encode⟩

variable {C} {es : List E} {db : Database} {name : Text} {choice : Choice} {params : List Value}

theorem values_key (es : List E) : (C.table es).values C.keyName = es.map fun e => .integer (C.key e) := by
  unfold Table.values table
  rw [List.filterMap_map]
  refine List.filterMap_eq_map_iff_forall_eq_some.2 fun e he => ?_
  exact C.keyed e

/-- **A table is valid** when the keys of its entities are distinct. -/
theorem valid_iff (C : Coding E) (es : List E) : (C.table es).Valid ↔ (es.map C.key).Nodup := by
  have hkeys : (((C.table es).values C.keyName).filter (· ≠ .null)).Nodup ↔ (es.map C.key).Nodup := by
    have hall : ((C.table es).values C.keyName).filter (· ≠ .null) = (es.map C.key).map .integer := by
      rw [values_key, List.map_map]
      refine List.filter_eq_self.2 fun v hv => ?_
      obtain ⟨e, -, rfl⟩ := List.mem_map.1 hv
      rfl
    rw [hall]
    exact List.nodup_map_iff fun a b h => by simpa using h
  constructor
  · intro h
    obtain ⟨c, hc, hname, hunique⟩ := C.hasKey
    have hc := (h c hc).2 hunique
    rw [hname] at hc
    exact hkeys.1 hc
  · intro h c hc
    refine ⟨fun _ hnull => ?_, fun hunique => ?_⟩
    · obtain ⟨row, hrow, hcell⟩ := List.mem_filterMap.1 hnull
      obtain ⟨e, -, rfl⟩ := List.mem_map.1 hrow
      obtain ⟨v, hv, hne⟩ := C.notNull c hc e
      exact hne (Option.some.inj (hv.symm.trans hcell))
    · rw [C.unique c hc hunique]
      exact hkeys.2 h

/-- What is stored. -/
theorem store_table (db : Database) (name : Text) (es : List E) :
    store db name (C.table es) =
      if (es.map C.key).Nodup then some (Function.update db name (some (C.table es)), .done)
      else some (db, .refused) := by
  have hadmits : ((C.table es).rows.all fun row =>
      (List.zipWith Column.admits (C.table es).columns row).all id) = true := by
    refine List.all_eq_true.2 fun row hrow => ?_
    obtain ⟨e, -, rfl⟩ := List.mem_map.1 hrow
    exact C.admits e
  unfold store
  rw [if_pos hadmits]
  by_cases hvalid : (C.table es).Valid
  · rw [if_pos hvalid, if_pos ((valid_iff C es).1 hvalid)]
  · rw [if_neg hvalid, if_neg (mt (valid_iff C es).2 hvalid)]

/-! ## Statements on a table of entities -/

/-- **INSERT** of an entity, refused when its key is there. -/
theorem exec_insert {names : List Text} {e : E} (hdb : db name = some (C.table es)) (hes : (es.map C.key).Nodup)
    (hlength : params.length = names.length) (hnames : ∀ n ∈ names, ∃ c ∈ C.columns, c.name = n)
    (hrow : newRow C.columns choice.assigned (names.zip params) = C.encode e) :
    exec db choice params (.insert name names) =
      if C.key e ∈ es.map C.key then some (db, .refused)
      else some (Function.update db name (some (C.table (es ++ [e]))), .done) := by
  have hok : ¬(params.length ≠ names.length ∨ ¬∀ n ∈ names, ∃ c ∈ (C.table es).columns, c.name = n) :=
    not_or.2 ⟨not_not.2 hlength, not_not.2 hnames⟩
  have htable : { C.table es with
      rows := (C.table es).rows ++ [newRow (C.table es).columns choice.assigned (names.zip params)] } =
        C.table (es ++ [e]) := by
    show Table.mk C.columns (es.map C.encode ++ [newRow C.columns choice.assigned (names.zip params)]) = _
    rw [hrow]
    simp [table]
  -- keys stay unique exactly when the new one is new
  have hnodup : ((es ++ [e]).map C.key).Nodup ↔ C.key e ∉ es.map C.key := by
    rw [List.map_append, List.map_singleton, List.nodup_append]
    constructor
    · rintro ⟨-, -, hne⟩ hmem
      exact hne _ hmem _ (List.mem_singleton.2 rfl) rfl
    · intro hnew
      refine ⟨hes, List.nodup_singleton _, ?_⟩
      rintro a ha b hb rfl
      exact hnew (List.mem_singleton.1 hb ▸ ha)
  simp only [exec, hdb, Option.bind_eq_bind, Option.bind_some, if_neg hok]
  rw [htable, store_table]
  by_cases hmem : C.key e ∈ es.map C.key
  · rw [if_neg (mt hnodup.1 (not_not.2 hmem)), if_pos hmem]
  · rw [if_pos (hnodup.2 hmem), if_neg hmem]

/-- **UPDATE** of the entities that are selected, their keys staying. -/
theorem exec_update {names : List Text} {condition : Option Expr} {q : E → Bool} {g : E → E}
    (hdb : db name = some (C.table es)) (hes : (es.map C.key).Nodup) (hlength : names.length ≤ params.length)
    (hnames : ∀ n ∈ names, ∃ c ∈ C.columns, c.name = n)
    (hq : ∀ e ∈ es, selects C.columns condition (params.drop names.length) (C.encode e) = some (q e))
    (hg : ∀ e ∈ es, q e = true → setCells C.columns (C.encode e) (names.zip params) = C.encode (g e))
    (hkey : ∀ e ∈ es, q e = true → C.key (g e) = C.key e) :
    exec db choice params (.update name names condition) =
      some (Function.update db name (some (C.table (es.map fun e => if q e then g e else e))), .done) := by
  have hok : ¬(params.length < names.length ∨ ¬∀ n ∈ names, ∃ c ∈ (C.table es).columns, c.name = n) :=
    not_or.2 ⟨not_lt.2 hlength, not_not.2 hnames⟩
  have hrows : change (selects (C.table es).columns condition (params.drop names.length))
      (fun row => setCells (C.table es).columns row (names.zip params)) (C.table es).rows =
        some ((es.map fun e => if q e then g e else e).map C.encode) := change_map hq hg
  -- no key is changed, so the primary key stays unique
  have hkeys : (es.map fun e => if q e then g e else e).map C.key = es.map C.key := by
    rw [List.map_map]
    refine List.map_congr_left fun e he => ?_
    rw [Function.comp_apply]
    split
    · rename_i hqe
      exact hkey e he hqe
    · rfl
  simp only [exec, hdb, Option.bind_eq_bind, Option.bind_some, if_neg hok, hrows]
  show store db name (C.table (es.map fun e => if q e then g e else e)) = _
  rw [store_table, hkeys, if_pos hes]

/-- **DELETE** of the entities that are selected. -/
theorem exec_delete {condition : Option Expr} {q : E → Bool} (hdb : db name = some (C.table es))
    (hq : ∀ e ∈ es, selects C.columns condition params (C.encode e) = some (q e)) :
    exec db choice params (.delete name condition) =
      some (Function.update db name (some (C.table (es.filter fun e => q e = false))), .done) := by
  have hrows : pick (selects (C.table es).columns condition params) false (C.table es).rows =
      some ((es.filter fun e => q e = false).map C.encode) := pick_map hq false
  simp only [exec, hdb, Option.bind_eq_bind, Option.bind_some, hrows]
  rfl

variable (choice) in
/-- **SELECT** of all columns returns the codes of the entities that are selected, in some order. -/
theorem exec_select {names : List Text} {condition : Option Expr} {q : E → Bool}
    (hdb : db name = some (C.table es))
    (hq : ∀ e ∈ es, selects C.columns condition params (C.encode e) = some (q e))
    (hnames : ∀ e, names.mapM (cell C.columns (C.encode e)) = some (C.encode e)) :
    ∃ es' : List E, es'.Perm (es.filter fun e => q e) ∧
      exec db choice params (.select names name condition) = some (db, .rows names (es'.map C.encode)) := by
  have hrows : pick (selects (C.table es).columns condition params) true (C.table es).rows =
      some ((es.filter fun e => q e = true).map C.encode) := pick_map hq true
  obtain ⟨es', hperm, harranged⟩ :=
    exists_perm_of_perm_map (choice.perm ((es.filter fun e => q e = true).map C.encode))
  have hcells : (es'.map C.encode).mapM (fun row => names.mapM (cell (C.table es).columns row)) =
      some (es'.map C.encode) := mapM_map fun e _ => hnames e
  refine ⟨es', by simpa using hperm, ?_⟩
  simp only [exec, hdb, Option.bind_eq_bind, Option.bind_some, hrows, harranged, hcells]
  rfl

/-- **COUNT** of the entities that are selected. -/
theorem exec_count {condition : Option Expr} {q : E → Bool} (hdb : db name = some (C.table es))
    (hq : ∀ e ∈ es, selects C.columns condition params (C.encode e) = some (q e)) :
    exec db choice params (.count name condition) =
      some (db, .rows ["COUNT(*)".toList] [[.integer (.ofNat (es.filter fun e => q e).length)]]) := by
  have hrows : pick (selects (C.table es).columns condition params) true (C.table es).rows =
      some ((es.filter fun e => q e = true).map C.encode) := pick_map hq true
  simp only [exec, hdb, Option.bind_eq_bind, Option.bind_some, hrows, List.length_map]
  simp

theorem greatest_cons (v : Int64) (rest : List Value) :
    greatest (.integer v :: rest) = (greatest rest).bind fun m =>
      some (some (m.elim v fun m => if m ≤ v then v else m)) := by
  show (greatest rest).bind _ = (greatest rest).bind _
  congr 1
  funext m
  cases m <;> rfl

/-- The greatest of integers is one of them and not below any. -/
theorem greatest_map (f : E → Int64) (es : List E) :
    ∃ m, greatest (es.map fun e => .integer (f e)) = some m ∧
      ((m = none ∧ es = []) ∨ ∃ e ∈ es, m = some (f e) ∧ ∀ e' ∈ es, f e' ≤ f e) := by
  induction es with
  | nil => exact ⟨none, rfl, Or.inl ⟨rfl, rfl⟩⟩
  | cons e es ih =>
    obtain ⟨m, hm, hcases⟩ := ih
    rw [List.map_cons, greatest_cons, hm, Option.bind_some]
    rcases hcases with ⟨rfl, rfl⟩ | ⟨e', he', rfl, hle⟩
    · refine ⟨some (f e), rfl, Or.inr ⟨e, List.mem_singleton.2 rfl, rfl, ?_⟩⟩
      intro e' he'
      rw [List.mem_singleton.1 he']
      exact Int64.le_refl _
    · -- the head is greater than the rest's greatest, or not
      by_cases hlt : f e' ≤ f e
      · refine ⟨some (f e), by simp [hlt], Or.inr ⟨e, List.mem_cons_self, rfl, ?_⟩⟩
        intro e'' he''
        rcases List.mem_cons.1 he'' with rfl | he''
        · exact Int64.le_refl _
        · exact Int64.le_trans (hle e'' he'') hlt
      · refine ⟨some (f e'), by simp [hlt], Or.inr ⟨e', List.mem_cons_of_mem _ he', rfl, ?_⟩⟩
        intro e'' he''
        rcases List.mem_cons.1 he'' with rfl | he''
        · exact (Int64.le_total (f e'') (f e')).resolve_right hlt
        · exact hle e'' he''

variable (choice) in
/-- **MAX** of the keys, the default where there are none. -/
theorem exec_max (default : Int64) (hdb : db name = some (C.table es)) :
    ∃ m, ((m = default ∧ es = []) ∨ ∃ e ∈ es, m = C.key e ∧ ∀ e' ∈ es, C.key e' ≤ m) ∧
      exec db choice params (.max C.keyName default name) =
        some (db, .rows ["MAX".toList ++ C.keyName] [[.integer m]]) := by
  obtain ⟨m, hm, hcases⟩ := greatest_map C.key es
  refine ⟨m.getD default, ?_, ?_⟩
  · rcases hcases with ⟨rfl, hnil⟩ | ⟨e, he, rfl, hle⟩
    · exact Or.inl ⟨rfl, hnil⟩
    · exact Or.inr ⟨e, he, rfl, hle⟩
  · simp only [exec, hdb, Option.bind_eq_bind, Option.bind_some, values_key, hm]
    rfl

end Coding

end Sql
