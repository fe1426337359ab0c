import ProjectTrans.Model.Client.EntityMap
import ProjectTrans.Proof.Client.BlockRows

/-!
# The repositories are finite maps

A table of storable entities with distinct ids stands for a finite map. Each call does to
the table what `onMap` does to the map, and leaves the other table alone; so in any
sequence of calls of both repositories on one database every reply is that of the maps
(`run_eq_runMaps`).
-/

namespace ProjectTrans

/-! ## Tables that stand for maps -/

/-- The table of a name is made of rows for the entities of a map, all of them storable. -/
def Holds {E : Type} (key : E → Int64) (table : List E → Sql.Table) (name : Text) (storable : E → Prop)
    (db : Sql.Database) (m : EntityMap E) : Prop :=
  ∃ (rows : List E) (h : (rows.map key).Nodup),
    db name = some (table rows) ∧ (∀ e ∈ rows, storable e) ∧ Table.ofRows key rows h = m

section Rows

variable {E : Type} {key : E → Int64} {table : List E → Sql.Table} {name name' : Text} {storable : E → Prop}
  {db db' : Sql.Database} {m : EntityMap E}

/-- A table that was made of rows. -/
theorem holds_update {rows : List E} (h : (rows.map key).Nodup) (hstorable : ∀ e ∈ rows, storable e) :
    Holds key table name storable (Function.update db name (some (table rows))) (Table.ofRows key rows h) :=
  ⟨rows, h, Function.update_self .., hstorable, rfl⟩

/-- Other tables do not matter. -/
theorem Holds.update_of_ne (h : Holds key table name storable db m) (hne : name ≠ name') (t : Option Sql.Table) :
    Holds key table name storable (Function.update db name' t) m := by
  obtain ⟨rows, hkeys, hdb, hstorable, hm⟩ := h
  refine ⟨rows, hkeys, ?_, hstorable, hm⟩
  rw [Function.update_of_ne hne, hdb]

/-- A map without entries is that of a new table. -/
theorem holds_empty : Holds key table name storable (Function.update db name (some (table []))) ∅ :=
  ⟨[], List.nodup_nil, Function.update_self .., by simp, rfl⟩

section Write

variable {rows : List E} (h : (rows.map key).Nodup) (hstorable : ∀ e ∈ rows, storable e) {e : E}

include hstorable

/-- A row that is added is an entry more. -/
theorem holds_append (he : storable e) (hnew : key e ∉ rows.map key) :
    Holds key table name storable (Function.update db name (some (table (rows ++ [e]))))
      ((Table.ofRows key rows h).insert (key e) e) := by
  have hkeys : ((rows ++ [e]).map key).Nodup := by
    rw [List.map_append, List.map_singleton, ← List.concat_eq_append]
    exact h.concat hnew
  rw [← Table.ofRows_append h hkeys hnew]
  exact holds_update hkeys (List.forall_mem_append.2 ⟨hstorable, List.forall_mem_singleton.2 he⟩)

/-- A row that replaces the one under its key replaces the entry. -/
theorem holds_map (he : storable e) :
    Holds key table name storable
      (Function.update db name (some (table (rows.map fun row => if key row = key e then e else row))))
      (if key e ∈ Table.ofRows key rows h then (Table.ofRows key rows h).insert (key e) e
        else Table.ofRows key rows h) := by
  -- no key changes
  have hsame : (rows.map fun row => if key row = key e then e else row).map key = rows.map key := by
    rw [List.map_map]
    refine List.map_congr_left fun row _ => ?_
    rw [Function.comp_apply]
    split
    · rename_i hkey
      exact hkey.symm
    · rfl
  have hkeys : ((rows.map fun row => if key row = key e then e else row).map key).Nodup := by
    rw [hsame]
    exact h
  rw [← Table.ofRows_map h hkeys]
  refine holds_update hkeys fun row hrow => ?_
  obtain ⟨old, hold, rfl⟩ := List.mem_map.1 hrow
  split
  · exact he
  · exact hstorable old hold

/-- Rows that are dropped are entries less. -/
theorem holds_filter (k : Int64) :
    Holds key table name storable (Function.update db name (some (table (rows.filter fun e => key e ≠ k))))
      ((Table.ofRows key rows h).erase k) := by
  have hkeys : ((rows.filter fun e => key e ≠ k).map key).Nodup := h.sublist (List.filter_sublist.map _)
  rw [← Table.ofRows_filter h hkeys]
  exact holds_update hkeys fun row hrow => hstorable row (List.mem_of_mem_filter hrow)

end Write

/-- Rows that were found, as entries of the map. -/
theorem coe_eq_filter_values {rows found : List E} (h : (rows.map key).Nodup) {p : E → Prop} [DecidablePred p]
    (hperm : found.Perm (rows.filter fun e => p e)) :
    (found : Multiset E) = (Table.values (Table.ofRows key rows h)).filter p := by
  rw [Table.values_ofRows, Multiset.filter_coe]
  exact Multiset.coe_eq_coe.2 hperm

/-- The entries are as many as the rows. -/
theorem card_keys_ofRows {rows : List E} (h : (rows.map key).Nodup) :
    (Table.ofRows key rows h).keys.card = rows.length := by
  rw [Table.keys_ofRows, List.toFinset_card_of_nodup h, List.length_map]

end Rows

variable (widen : UInt32 → UInt64) (owned : Bool) {db : Sql.Database} (choice : Sql.Choice)

/-! ## Tasks -/

/-- The table of tasks. -/
def HoldsTasks (db : Sql.Database) (m : EntityMap TaskEntity) : Prop :=
  Holds (·.taskId) SqlTaskRepository.coding.table SqlTaskRepository.table.tableName TaskEntity.Storable db m

/-- Tasks that are written are storable. -/
def TaskCall.Storable : TaskCall → Prop
  | add task => task.Storable
  | update task => task.Storable
  | _ => True

namespace TaskRepository

variable {tasks : List TaskEntity} {task : TaskEntity}

/-- The largest id of a map. -/
theorem getMaxTaskId_eq_max (h : (tasks.map (·.taskId)).Nodup) :
    getMaxTaskId tasks = .ofInt (((Table.ofRows (·.taskId) tasks h).keys.image Int64.toInt).max.unbotD 0) := by
  rw [Table.keys_ofRows]
  rcases getMaxTaskId_spec tasks with ⟨rfl, hmax⟩ | ⟨⟨row, hrow, hid⟩, hle⟩
  · rfl
  · have hmax : ((tasks.map (·.taskId)).toFinset.image Int64.toInt).max = (getMaxTaskId tasks).toInt := by
      refine le_antisymm (Finset.max_le fun x hx => ?_) (Finset.le_max ?_)
      · obtain ⟨k, hk, rfl⟩ := Finset.mem_image.1 hx
        obtain ⟨row', hrow', rfl⟩ := List.mem_map.1 (List.mem_toFinset.1 hk)
        exact WithBot.coe_le_coe.2 (Int64.le_iff_toInt_le.1 (hle row' hrow'))
      · refine Finset.mem_image_of_mem _ (List.mem_toFinset.2 ?_)
        rw [← hid]
        exact List.mem_map_of_mem hrow
    rw [hmax]
    exact (Int64.ofInt_toInt _).symm

end TaskRepository

/-- **A call of the repository of tasks** is one of the map it stands for. -/
theorem TaskCall.perform_onMap {m : EntityMap TaskEntity} (h : HoldsTasks db m) {call : TaskCall}
    (hcall : call.Storable) :
    ∃ t, call.perform widen owned db choice =
        some (Function.update db SqlTaskRepository.table.tableName t, (call.onMap m).2) ∧
      HoldsTasks (Function.update db SqlTaskRepository.table.tableName t) (call.onMap m).1 := by
  obtain ⟨tasks, hkeys, hdb, hstorable, rfl⟩ := h
  have hsame : Function.update db SqlTaskRepository.table.tableName
      (some (SqlTaskRepository.coding.table tasks)) = db := by
    rw [← hdb, Function.update_eq_self]
  have hholds : HoldsTasks (Function.update db SqlTaskRepository.table.tableName
      (some (SqlTaskRepository.coding.table tasks))) (Table.ofRows (·.taskId) tasks hkeys) :=
    holds_update hkeys hstorable
  cases call with
  | add task =>
    have hmem : task.taskId ∉ Table.ofRows (·.taskId) tasks hkeys ↔ ∀ row ∈ tasks, row.taskId ≠ task.taskId := by
      rw [Table.mem_ofRows, List.mem_map, not_exists]
      exact forall_congr' fun row => not_and
    rcases TaskRepository.add_spec tasks task with ⟨⟨hpos, hnew⟩, hadd⟩ | ⟨hnot, hadd⟩
    · -- the id is positive and new, so there is a row more
      have hnotMem : task.taskId ∉ tasks.map (·.taskId) := by
        rw [← Table.mem_ofRows hkeys]
        exact hmem.2 hnew
      refine ⟨some (SqlTaskRepository.coding.table (tasks ++ [task])), ?_, ?_⟩
      · rw [perform, SqlTaskRepository.add_eq widen owned choice hdb hkeys hcall, hadd, onMap,
          if_pos ⟨hpos, hmem.2 hnew⟩]
        rfl
      · rw [onMap, if_pos ⟨hpos, hmem.2 hnew⟩]
        exact holds_append hkeys hstorable hcall hnotMem
    · -- what is not added leaves the table as it was
      have hnot : ¬(0 < task.taskId ∧ task.taskId ∉ Table.ofRows (·.taskId) tasks hkeys) := by rwa [hmem]
      refine ⟨some (SqlTaskRepository.coding.table tasks), ?_, ?_⟩
      · rw [perform, SqlTaskRepository.add_eq widen owned choice hdb hkeys hcall, hadd, onMap, if_neg hnot]
        rfl
      · rw [onMap, if_neg hnot]
        exact hholds
  | update task =>
    refine ⟨some (SqlTaskRepository.coding.table (TaskRepository.update tasks task)), ?_, ?_⟩
    · rw [perform, SqlTaskRepository.update_eq widen owned choice hdb hkeys hcall]
      rfl
    · exact holds_map hkeys hstorable hcall
  | remove taskId =>
    refine ⟨some (SqlTaskRepository.coding.table (TaskRepository.remove tasks taskId)), ?_, ?_⟩
    · rw [perform, SqlTaskRepository.remove_eq widen owned choice hdb]
      rfl
    · exact holds_filter hkeys hstorable taskId
  -- what reads leaves the table as it was
  | getByTaskId taskId =>
    refine ⟨_, ?_, hholds⟩
    rw [perform, SqlTaskRepository.getByTaskId_eq widen owned choice hdb hkeys hstorable, hsame, Option.map_some]
    have hlookup : TaskRepository.getByTaskId tasks taskId =
      (Table.ofRows (·.taskId) tasks hkeys).lookup taskId :=
      (Table.lookup_ofRows hkeys taskId).symm
    rw [hlookup]
    rfl
  | getByFileId fileId =>
    refine ⟨_, ?_, hholds⟩
    obtain ⟨found, hperm, hfound⟩ := SqlTaskRepository.getByFileId_eq widen owned choice hdb hstorable fileId
    rw [perform, hfound, hsame, Option.map_some, coe_eq_filter_values hkeys hperm]
    rfl
  | getAll =>
    refine ⟨_, ?_, hholds⟩
    obtain ⟨found, hperm, hfound⟩ := SqlTaskRepository.getAll_eq widen owned choice hdb hstorable
    rw [perform, hfound, hsame, Option.map_some, Multiset.coe_eq_coe.2 hperm, onMap, Table.values_ofRows]
  | getAllCount =>
    refine ⟨_, ?_, hholds⟩
    have hcard : (Table.ofRows (·.taskId) tasks hkeys).keys.card = tasks.length :=
      card_keys_ofRows hkeys
    rw [perform, SqlTaskRepository.getAllCount_eq widen owned choice hdb, hsame, Option.map_some, onMap, hcard]
  | getMaxTaskId =>
    refine ⟨_, ?_, hholds⟩
    rw [perform, SqlTaskRepository.getMaxTaskId_eq widen owned choice hdb, hsame, Option.map_some,
      TaskRepository.getMaxTaskId_eq_max hkeys]
    rfl

/-! ## Blocks -/

/-- The table of blocks. -/
def HoldsBlocks (db : Sql.Database) (m : EntityMap BlockEntity) : Prop :=
  Holds (·.blockId) SqlBlockRepository.coding.table SqlBlockRepository.table.tableName BlockEntity.Storable db m

namespace BlockCall

/-- Blocks that are written are storable. -/
def Storable : BlockCall → Prop
  | add block => block.Storable
  | update block => block.Storable
  | _ => True

/-- The id that the database gives a new block is new. -/
def Fresh (m : EntityMap BlockEntity) (assigned : Int64) : BlockCall → Prop
  | add _ => assigned ∉ m
  | _ => True

/-- **A call of the repository of blocks** is one of the map it stands for. -/
theorem perform_onMap {m : EntityMap BlockEntity} (h : HoldsBlocks db m) {call : BlockCall}
    (hcall : call.Storable) (hfresh : call.Fresh m choice.assigned) :
    ∃ t, call.perform widen owned db choice =
        some (Function.update db SqlBlockRepository.table.tableName t, (call.onMap m choice.assigned).2) ∧
      HoldsBlocks (Function.update db SqlBlockRepository.table.tableName t) (call.onMap m choice.assigned).1 := by
  obtain ⟨blocks, hkeys, hdb, hstorable, rfl⟩ := h
  have hsame : Function.update db SqlBlockRepository.table.tableName
    (some (SqlBlockRepository.coding.table blocks)) =
      db := by
    rw [← hdb, Function.update_eq_self]
  have hholds : HoldsBlocks (Function.update db SqlBlockRepository.table.tableName
      (some (SqlBlockRepository.coding.table blocks))) (Table.ofRows (·.blockId) blocks hkeys) :=
    holds_update hkeys hstorable
  cases call with
  | add block =>
    -- the database gives an id that no row has
    have hnotMem : choice.assigned ∉ blocks.map (·.blockId) := by
      rw [← Table.mem_ofRows hkeys]
      exact hfresh
    have hadded : BlockEntity.Storable { block with blockId := choice.assigned } :=
      ⟨hcall.startTime, hcall.endTime⟩
    refine ⟨some (SqlBlockRepository.coding.table (blocks ++ [{ block with blockId := choice.assigned }])), ?_,
      ?_⟩
    · rw [perform, SqlBlockRepository.add_eq widen owned choice hdb hkeys hnotMem]
      rfl
    · exact holds_append hkeys hstorable hadded hnotMem
  | update block =>
    refine ⟨some (SqlBlockRepository.coding.table (BlockRepository.update blocks block)), ?_, ?_⟩
    · rw [perform, SqlBlockRepository.update_eq widen owned choice hdb hkeys]
      rfl
    · exact holds_map hkeys hstorable hcall
  | remove blockId =>
    refine ⟨some (SqlBlockRepository.coding.table (blocks.filter fun block => block.blockId ≠ blockId)), ?_, ?_⟩
    · rw [perform, SqlBlockRepository.remove_eq widen owned choice hdb]
      rfl
    · exact holds_filter hkeys hstorable blockId
  | getByBlockId blockId =>
    refine ⟨_, ?_, hholds⟩
    have hlookup : BlockRepository.getByBlockId blocks blockId =
        (Table.ofRows (·.blockId) blocks hkeys).lookup blockId := (Table.lookup_ofRows hkeys blockId).symm
    rw [perform, SqlBlockRepository.getByBlockId_eq widen owned choice hdb hkeys hstorable, hsame,
      Option.map_some, hlookup]
    rfl
  | getByTaskId taskId =>
    refine ⟨_, ?_, hholds⟩
    obtain ⟨found, hperm, hfound⟩ := SqlBlockRepository.getByTaskId_eq widen owned choice hdb hstorable taskId
    rw [perform, hfound, hsame, Option.map_some, coe_eq_filter_values hkeys hperm]
    rfl
  | getByTaskIdAndBlockState taskId state =>
    refine ⟨_, ?_, hholds⟩
    obtain ⟨found, hperm, hfound⟩ :=
      SqlBlockRepository.getByTaskIdAndBlockState_eq widen owned choice hdb hstorable taskId state
    rw [perform, hfound, hsame, Option.map_some, coe_eq_filter_values hkeys hperm]
    rfl
  | getCountByTaskIdAndBlockState taskId state =>
    refine ⟨_, ?_, hholds⟩
    have hcount : BlockRepository.getCountByTaskIdAndBlockState blocks taskId state =
        ((Table.values (Table.ofRows (·.blockId) blocks hkeys)).filter fun block =>
          block.taskId = taskId ∧ block.state = state).card := by
      rw [Table.values_ofRows, Multiset.filter_coe]
      rfl
    rw [perform, SqlBlockRepository.getCountByTaskIdAndBlockState_eq widen owned choice hdb, hsame,
      Option.map_some, hcount]
    rfl
  | getAll =>
    refine ⟨_, ?_, hholds⟩
    obtain ⟨found, hperm, hfound⟩ := SqlBlockRepository.getAll_eq widen owned choice hdb hstorable
    rw [perform, hfound, hsame, Option.map_some, Multiset.coe_eq_coe.2 hperm, onMap, Table.values_ofRows]

end BlockCall

/-! ## Both on one database -/

/-- The tables of both repositories. -/
structure HoldsMaps (db : Sql.Database) (m : RepositoryMaps) : Prop where
  tasks : HoldsTasks db m.tasks
  blocks : HoldsBlocks db m.blocks

theorem tableName_ne : SqlTaskRepository.table.tableName ≠ SqlBlockRepository.table.tableName := by decide

/-- **What `init` makes of a database without the tables** stands for maps without entries. -/
theorem init_holdsMaps (choice' : Sql.Choice) (htasks : db SqlTaskRepository.table.tableName = none)
    (hblocks : db SqlBlockRepository.table.tableName = none) :
    ∃ db' db'', SqlTaskRepository.init widen owned ⟨false⟩ db choice = some (⟨true⟩, db') ∧
      SqlBlockRepository.init widen owned ⟨false⟩ db' choice' = some (⟨true⟩, db'') ∧ HoldsMaps db'' ⟨∅, ∅⟩ := by
  have hblocks' : Function.update db SqlTaskRepository.table.tableName (some (SqlTaskRepository.coding.table []))
      SqlBlockRepository.table.tableName = none := by
    rw [Function.update_of_ne tableName_ne.symm, hblocks]
  have htaskInit := SqlTaskRepository.init_eq widen owned db choice
  rw [if_pos htasks] at htaskInit
  have hblockInit := SqlBlockRepository.init_eq widen owned (Function.update db SqlTaskRepository.table.tableName
    (some (SqlTaskRepository.coding.table []))) choice'
  rw [if_pos hblocks'] at hblockInit
  exact ⟨_, _, htaskInit, hblockInit, ⟨holds_empty.update_of_ne tableName_ne _, holds_empty⟩⟩

namespace RepositoryCall

/-- Entities that are written are storable. -/
def Storable : RepositoryCall → Prop
  | task call => call.Storable
  | block call => call.Storable

/-- The id that the database gives a new block is new. -/
def Fresh (m : RepositoryMaps) (assigned : Int64) : RepositoryCall → Prop
  | task _ => True
  | block call => call.Fresh m.blocks assigned

/-- The ids that are given in a run are new. -/
def RunFresh : RepositoryMaps → List (RepositoryCall × Sql.Choice) → Prop
  | _, [] => True
  | m, (call, choice) :: calls =>
    call.Fresh m choice.assigned ∧ RunFresh (call.onMaps m choice.assigned).1 calls

variable {m : RepositoryMaps}

/-- **A call** of either repository. -/
theorem perform_onMaps (h : HoldsMaps db m) {call : RepositoryCall} (hcall : call.Storable)
    (hfresh : call.Fresh m choice.assigned) :
    ∃ db', call.perform widen owned db choice = some (db', (call.onMaps m choice.assigned).2) ∧
      HoldsMaps db' (call.onMaps m choice.assigned).1 := by
  cases call with
  | task call =>
    obtain ⟨t, hperform, hholds⟩ := TaskCall.perform_onMap widen owned choice h.tasks hcall
    refine ⟨_, ?_, ⟨hholds, h.blocks.update_of_ne tableName_ne.symm t⟩⟩
    rw [perform, hperform]
    rfl
  | block call =>
    obtain ⟨t, hperform, hholds⟩ := BlockCall.perform_onMap widen owned choice h.blocks hcall hfresh
    refine ⟨_, ?_, ⟨h.tasks.update_of_ne tableName_ne t, hholds⟩⟩
    rw [perform, hperform]
    rfl

/-- **The repositories are finite maps**: in any sequence of calls of both on one database,
the replies are those of the maps, for which the tables stand at the end. -/
theorem run_eq_runMaps (h : HoldsMaps db m) {calls : List (RepositoryCall × Sql.Choice)}
    (hcalls : ∀ c ∈ calls, c.1.Storable) (hfresh : RunFresh m calls) :
    ∃ db', run widen owned db calls = some (db', (runMaps m calls).2) ∧ HoldsMaps db' (runMaps m calls).1 := by
  induction calls generalizing db m with
  | nil => exact ⟨db, rfl, h⟩
  | cons c calls ih =>
    obtain ⟨call, choice⟩ := c
    obtain ⟨hcall, hcalls⟩ := List.forall_mem_cons.1 hcalls
    obtain ⟨hone, hrest⟩ := hfresh
    obtain ⟨db', hperform, hholds⟩ := perform_onMaps widen owned choice h hcall hone
    obtain ⟨db'', hrun, hholds⟩ := ih hholds hcalls hrest
    refine ⟨db'', ?_, hholds⟩
    rw [run, hperform]
    show (run widen owned db' calls >>= _) = _
    rw [hrun]
    rfl

/-- The database gives rows in reverse, and the id 7 to a new one. -/
def reverseChoice : Sql.Choice := ⟨7, List.reverse, List.reverse_perm⟩

/-- A task is added twice and one that is not there is updated; then a block is added. -/
def fewCalls : List (RepositoryCall × Sql.Choice) :=
  let choice := reverseChoice
  [(.task (.add { taskId := 5, state := .waiting }), choice),
    (.task (.add { taskId := 5, state := .failed }), choice),
    (.task (.update { taskId := 9, state := .waiting }), choice), (.task .getMaxTaskId, choice),
    (.block (.add { taskId := 5, offset := 0, blockSize := 4, state := .waiting }), choice),
    (.block (.getCountByTaskIdAndBlockState 5 .waiting), choice)]

/-- The repositories are initialised, and called. -/
theorem run_eq_runMaps_fewCalls :
    ∃ db db' db'',
      SqlTaskRepository.init (fun _ => 0) true ⟨false⟩ (fun _ => none) reverseChoice = some (⟨true⟩, db) ∧
      SqlBlockRepository.init (fun _ => 0) true ⟨false⟩ db reverseChoice = some (⟨true⟩, db') ∧
      run (fun _ => 0) true db' fewCalls =
        some (db'', [.task (.succeeded true), .task (.succeeded false), .task (.succeeded true),
          .task (.number 5), .block (.succeeded true), .block (.number 1)]) ∧
      HoldsMaps db'' (runMaps ⟨∅, ∅⟩ fewCalls).1 := by
  obtain ⟨db, db', htasks, hblocks, hnew⟩ :=
    @init_holdsMaps (fun _ => 0) true (fun _ => none) reverseChoice reverseChoice rfl rfl
  have htime : WholeMs 0 := by decide
  have htask : ∀ taskId state, TaskEntity.Storable { taskId := taskId, state := state } :=
    fun _ _ => ⟨List.not_mem_nil, List.not_mem_nil, htime, htime⟩
  have hcalls : ∀ c ∈ fewCalls, c.1.Storable := by
    simp only [fewCalls, List.forall_mem_cons]
    exact ⟨htask 5 .waiting, htask 5 .failed, htask 9 .waiting, trivial, ⟨htime, htime⟩, trivial, by simp⟩
  have hfresh : RunFresh ⟨∅, ∅⟩ fewCalls :=
    ⟨trivial, trivial, trivial, trivial, Finmap.notMem_empty, trivial, trivial⟩
  obtain ⟨db'', hrun, hholds⟩ := run_eq_runMaps (fun _ => 0) true hnew hcalls hfresh
  refine ⟨db, db', db'', htasks, hblocks, ?_, hholds⟩
  rw [hrun]
  rfl

end RepositoryCall

end ProjectTrans
