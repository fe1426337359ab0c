import ProjectTrans.Model.Client.TaskService
import ProjectTrans.Proof.Client.BlockTiling
import ProjectTrans.Lib.Run

/-!
# Fresh task ids

The counter is set behind the ids of the task table, but the rows of removed tasks' blocks
stay. `addTask_fresh`: in runs whose restarts find no block of a task above all that are
left, and whose counter does not come round to zero, a task gets an id that neither table
has. After any other restart some sequence of adds comes to the id of a block that was
left behind (`restart_reuses`).
-/

namespace ProjectTrans

/-! ## The largest id -/

namespace TaskRepository

variable {rows : List TaskEntity} {task row : TaskEntity}

/-- The largest id is that of no table, or of a row, and no row is above it. -/
theorem getMaxTaskId_spec (rows : List TaskEntity) :
    (rows = [] ∧ getMaxTaskId rows = 0) ∨
      ((∃ row ∈ rows, row.taskId = getMaxTaskId rows) ∧ ∀ row ∈ rows, row.taskId ≤ getMaxTaskId rows) := by
  unfold getMaxTaskId
  cases hmax : (rows.map (·.taskId)).max? with
  | none =>
    have hnil : rows = [] := List.map_eq_nil_iff.1 (List.max?_eq_none_iff.1 hmax)
    exact Or.inl ⟨hnil, rfl⟩
  | some m =>
    obtain ⟨hmem, hle⟩ := List.max?_eq_some_iff.1 hmax
    refine Or.inr ⟨?_, ?_⟩
    · obtain ⟨row, hrow, hid⟩ := List.mem_map.1 hmem
      exact ⟨row, hrow, hid⟩
    · intro row hrow
      exact hle _ (List.mem_map_of_mem hrow)

theorem le_getMaxTaskId (h : row ∈ rows) : row.taskId ≤ getMaxTaskId rows := by
  rcases getMaxTaskId_spec rows with ⟨rfl, -⟩ | ⟨-, hle⟩
  · exact absurd h List.not_mem_nil
  · exact hle row h

/-- A task is added when its id is positive and no row has it. -/
theorem add_spec (rows : List TaskEntity) (task : TaskEntity) :
    ((0 < task.taskId ∧ ∀ row ∈ rows, row.taskId ≠ task.taskId) ∧ add rows task = (rows ++ [task], true)) ∨
      (¬(0 < task.taskId ∧ ∀ row ∈ rows, row.taskId ≠ task.taskId) ∧ add rows task = (rows, false)) := by
  unfold add
  by_cases hpos : task.taskId ≤ 0
  · rw [if_pos hpos]
    exact Or.inr ⟨fun h => absurd h.1 (not_lt.2 hpos), rfl⟩
  rw [if_neg hpos]
  by_cases hany : rows.any (fun row => row.taskId = task.taskId) = true
  · rw [if_pos hany]
    obtain ⟨row, hrow, hid⟩ := List.any_eq_true.1 hany
    exact Or.inr ⟨fun h => h.2 row hrow (of_decide_eq_true hid), rfl⟩
  · rw [if_neg hany]
    refine Or.inl ⟨⟨not_le.1 hpos, ?_⟩, rfl⟩
    intro row hrow hid
    exact hany (List.any_eq_true.2 ⟨row, hrow, decide_eq_true hid⟩)

end TaskRepository

namespace ClientStore

open TaskRepository

variable {s : ClientStore} {op : StoreOp}

/-! ## What is asked of a run, and what of its adds -/

/-- Blocks are inserted for tasks the table has. -/
def InsertsForTasks (s : ClientStore) : StoreOp → Prop
  | .addBlock block _ => ∃ row ∈ s.tasks, row.taskId = block.taskId
  | _ => True

/-- No block that is there belongs to a task above all that are left, and ids are left. -/
def NothingAbove (s : ClientStore) : Prop :=
  getMaxTaskId s.tasks ≠ Int64.maxValue ∧
    ∀ block ∈ s.blocks, block.taskId ≤ 0 ∨ block.taskId ≤ getMaxTaskId s.tasks

/-- A restart finds no block above the tasks, and an add does not find the counter at zero,
where it comes only by going all the way round. -/
def Orderly (s : ClientStore) : StoreOp → Prop
  | .restart => s.NothingAbove
  | .addTask _ => s.service.isInit = true → s.service.taskCounter ≠ 0
  | _ => True

/-- A task that is added gets an id that no task has and that finds no blocks. -/
def IssuesFresh (s : ClientStore) : StoreOp → Prop
  | .addTask task =>
    let result := s.service.add s.tasks task
    result.2.2.2 = true → (∀ row ∈ s.tasks, row.taskId ≠ result.2.2.1.taskId) ∧
      BlockRepository.getByTaskId (s.step (.addTask task)).blocks result.2.2.1.taskId = []
  | _ => True

instance (s : ClientStore) : Decidable s.NothingAbove := inferInstanceAs (Decidable (_ ∧ _))

instance (s : ClientStore) : DecidablePred s.InsertsForTasks
  | .addBlock block _ => inferInstanceAs (Decidable (∃ row ∈ s.tasks, row.taskId = block.taskId))
  | .restart | .addTask _ | .removeTask _ => isTrue trivial

instance (s : ClientStore) : DecidablePred s.Orderly
  | .restart => inferInstanceAs (Decidable s.NothingAbove)
  | .addTask _ => inferInstanceAs (Decidable (_ → _))
  | .removeTask _ | .addBlock _ _ => isTrue trivial

instance (s : ClientStore) : DecidablePred s.IssuesFresh
  | .addTask _ => inferInstanceAs (Decidable (_ → _ ∧ _))
  | .restart | .removeTask _ | .addBlock _ _ => isTrue trivial

/-! ## The counter -/

/-- The counter of a service that has started is above all ids of both tables, unless it
has wrapped and gives ids that are refused. -/
def Above (s : ClientStore) : Prop :=
  s.service.isInit = true → s.service.taskCounter ≤ 0 ∨
    (∀ row ∈ s.tasks, row.taskId < s.service.taskCounter) ∧
      ∀ block ∈ s.blocks, block.taskId < s.service.taskCounter

/-- A service starts behind the largest id. -/
theorem init_spec {tasks : List TaskEntity} (h : getMaxTaskId tasks ≠ Int64.maxValue) :
    ∃ service, TaskService.init tasks = some service ∧ service.isInit = true ∧
      service.taskCounter.toInt = max (getMaxTaskId tasks).toInt 0 + 1 := by
  have hlt := (getMaxTaskId tasks).toInt_lt
  have hne : (getMaxTaskId tasks).toInt ≠ 2 ^ 63 - 1 := fun heq => h (Int64.toInt_inj.1 heq)
  have hmax : (if getMaxTaskId tasks < 0 then 0 else getMaxTaskId tasks).toInt =
      max (getMaxTaskId tasks).toInt 0 := by
    split
    · rename_i hneg
      have hneg : (getMaxTaskId tasks).toInt < 0 := Int64.lt_iff_toInt_lt.1 hneg
      rw [max_eq_right hneg.le]
      rfl
    · rename_i hneg
      have hneg : 0 ≤ (getMaxTaskId tasks).toInt := Int64.le_iff_toInt_le.1 (not_lt.1 hneg)
      rw [max_eq_left hneg]
  -- the one that is added does not overflow
  have hadd : ∃ c, addInt64 (if getMaxTaskId tasks < 0 then 0 else getMaxTaskId tasks) 1 = some c := by
    refine ⟨_, if_pos ?_⟩
    have hone : (1 : Int64).toInt = 1 := rfl
    rw [hmax, hone]
    omega
  obtain ⟨c, hc⟩ := hadd
  refine ⟨⟨true, c⟩, ?_, rfl, ?_⟩
  · show (addInt64 _ 1).map _ = _
    rw [hc]
    rfl
  · have hsum := addInt64_eq_some.1 hc
    rw [hmax] at hsum
    exact hsum

/-- The next number is above this one, or has wrapped. -/
theorem lt_succ_or_wraps (c : Int64) : c < c + 1 ∨ c + 1 ≤ 0 := by
  rw [Int64.lt_iff_toInt_lt, Int64.le_iff_toInt_le]
  have hlo := c.le_toInt
  have hlt := c.toInt_lt
  have hone : (1 : Int64).toInt = 1 := rfl
  have hzero : (0 : Int64).toInt = 0 := rfl
  by_cases hmax : c.toInt = 2 ^ 63 - 1
  · right
    rw [Int64.toInt_add, hone, hzero, hmax]
    decide
  · left
    rw [int64_add_toInt (by omega) (by omega)]
    omega

/-- A negative number is not followed by a positive one. -/
theorem succ_nonpos {c : Int64} (h : c < 0) : c + 1 ≤ 0 := by
  rw [Int64.lt_iff_toInt_lt] at h
  rw [Int64.le_iff_toInt_le]
  have hlo := c.le_toInt
  have hone : (1 : Int64).toInt = 1 := rfl
  have hzero : (0 : Int64).toInt = 0 := rfl
  rw [hzero] at h ⊢
  rw [int64_add_toInt (by omega) (by omega)]
  omega

/-! ## One operation -/

/-- A restart that finds nothing above the tasks. -/
theorem above_restart (h : s.NothingAbove) : (s.step .restart).Above := by
  obtain ⟨service, hinit, -, hcounter⟩ := init_spec h.1
  have hstep : s.step .restart = { s with service := service } := by
    unfold step
    dsimp only
    rw [hinit]
  rw [hstep]
  intro _
  right
  constructor
  · intro row hrow
    have hrow : row ∈ s.tasks := hrow
    -- rows are below the largest id plus one
    have hle := Int64.le_iff_toInt_le.1 (le_getMaxTaskId hrow)
    rw [Int64.lt_iff_toInt_lt, hcounter]
    omega
  · intro block hblock
    have hzero : (0 : Int64).toInt = 0 := rfl
    rw [Int64.lt_iff_toInt_lt, hcounter]
    rcases h.2 block hblock with hle | hle
    · rw [Int64.le_iff_toInt_le, hzero] at hle
      omega
    · rw [Int64.le_iff_toInt_le] at hle
      omega

/-- What a service that has started adds: the task under the number of the counter. -/
theorem add_of_isInit {service : TaskService} (h : service.isInit = true) (tasks : List TaskEntity)
    (task : TaskEntity) : service.add tasks task =
      ({ service with taskCounter := service.taskCounter + 1 },
        (TaskRepository.add tasks { task with taskId := service.taskCounter }).1,
        { task with taskId := service.taskCounter },
        (TaskRepository.add tasks { task with taskId := service.taskCounter }).2) := by
  unfold TaskService.add
  rw [h]
  rfl

/-- One that has not adds nothing. -/
theorem add_of_not_isInit {service : TaskService} (h : service.isInit = false) (tasks : List TaskEntity)
    (task : TaskEntity) : service.add tasks task =
      ({ service with taskCounter := service.taskCounter + 1 }, tasks,
        { task with taskId := service.taskCounter }, false) := by
  unfold TaskService.add
  rw [h]
  rfl

/-- Behind an add under the counter the next one is above all tasks. -/
theorem below_append {tasks : List TaskEntity} {counter next : Int64} (h : ∀ row ∈ tasks, row.taskId < counter)
    (hlt : counter < next) (task : TaskEntity) :
    ∀ row ∈ tasks ++ [{ task with taskId := counter }], row.taskId < next := by
  intro row hrow
  rcases List.mem_append.1 hrow with hold | hnew
  · exact (h row hold).trans hlt
  · obtain rfl := List.mem_singleton.1 hnew
    exact hlt

/-- An add under a counter that is above the tables, or gives refused ids. -/
theorem above_addTask (h : s.Above) (task : TaskEntity) (horderly : s.Orderly (.addTask task)) :
    (s.step (.addTask task)).Above ∧ s.IssuesFresh (.addTask task) := by
  unfold IssuesFresh step
  dsimp only
  cases hinit : s.service.isInit with
  | false =>
    rw [add_of_not_isInit hinit]
    refine ⟨fun hstarted => ?_, fun hsucceeded => absurd hsucceeded Bool.false_ne_true⟩
    exact absurd (hinit.symm.trans hstarted) Bool.false_ne_true
  | true =>
    have hne := horderly hinit
    rw [add_of_isInit hinit]
    rcases add_spec s.tasks { task with taskId := s.service.taskCounter } with
      ⟨⟨hpos, hnew⟩, hadd⟩ | ⟨hrefused, hadd⟩
    · -- the id is positive, so the counter has not wrapped
      obtain ⟨htasks, hblocks⟩ := (h hinit).resolve_left (not_le.2 hpos)
      rw [hadd]
      refine ⟨fun _ => ?_, fun _ => ⟨hnew, ?_⟩⟩
      · rcases lt_succ_or_wraps s.service.taskCounter with hlt | hwraps
        · right
          constructor
          · exact below_append htasks hlt task
          · intro block hblock
            exact (hblocks block hblock).trans hlt
        · exact Or.inl hwraps
      · refine List.filter_eq_nil_iff.2 fun block hblock hid => ?_
        exact (hblocks block hblock).ne (of_decide_eq_true hid)
    · -- a refused id: the counter goes on, and the tables stay
      rw [hadd]
      refine ⟨fun _ => ?_, fun hsucceeded => absurd hsucceeded Bool.false_ne_true⟩
      rcases h hinit with hle | ⟨htasks, hblocks⟩
      · exact Or.inl (succ_nonpos (lt_of_le_of_ne hle hne))
      · rcases lt_succ_or_wraps s.service.taskCounter with hlt | hwraps
        · right
          exact ⟨fun row hrow => (htasks row hrow).trans hlt,
            fun block hblock => (hblocks block hblock).trans hlt⟩
        · exact Or.inl hwraps

/-- Removing a task takes rows away. -/
theorem above_removeTask (h : s.Above) (taskId : Int64) : (s.step (.removeTask taskId)).Above := by
  intro hinit
  have hinit : s.service.isInit = true := hinit
  have hremove : s.service.remove s.tasks taskId = TaskRepository.remove s.tasks taskId := by
    unfold TaskService.remove
    rw [hinit]
    rfl
  rcases h hinit with hle | ⟨htasks, hblocks⟩
  · exact Or.inl hle
  · refine Or.inr ⟨fun row hrow => htasks row ?_, hblocks⟩
    have hrow : row ∈ s.service.remove s.tasks taskId := hrow
    rw [hremove] at hrow
    exact (List.mem_filter.1 hrow).1

/-- A block of a task is below the counter as the task is. -/
theorem above_addBlock (h : s.Above) {block : BlockEntity} (assigned : Option Int64)
    (htask : ∃ row ∈ s.tasks, row.taskId = block.taskId) : (s.step (.addBlock block assigned)).Above := by
  intro hinit
  rcases h hinit with hle | ⟨htasks, hblocks⟩
  · exact Or.inl hle
  · refine Or.inr ⟨htasks, fun row hrow => ?_⟩
    cases assigned with
    | none => exact hblocks row hrow
    | some blockId =>
      rcases List.mem_append.1 hrow with hrow | hrow
      · exact hblocks row hrow
      · obtain ⟨task, htask, hid⟩ := htask
        obtain rfl := List.mem_singleton.1 hrow
        have hlt := htasks task htask
        rw [hid] at hlt
        exact hlt

/-- **One operation** keeps the counter above both tables, and adds issue fresh ids. -/
theorem above_step (h : s.Above) (hok : s.InsertsForTasks op ∧ s.Orderly op) :
    (s.step op).Above ∧ s.IssuesFresh op := by
  cases op with
  | restart => exact ⟨above_restart hok.2, trivial⟩
  | addTask task => exact above_addTask h task hok.2
  | removeTask taskId => exact ⟨above_removeTask h taskId, trivial⟩
  | addBlock block assigned => exact ⟨above_addBlock h assigned hok.1, trivial⟩

/-! ## Runs -/

/-- **Ids are fresh**: in every run from tables as they are found, blocks being inserted for
tasks that are there, if every restart finds no block above the tasks and no add finds the
counter at zero. -/
theorem addTask_fresh (tasks : List TaskEntity) (blocks : List BlockEntity) {ops : List StoreOp}
    (hinserts : Run.Meets InsertsForTasks step { tasks, blocks } ops)
    (horderly : Run.Meets Orderly step { tasks, blocks } ops) :
    Run.Meets IssuesFresh step { tasks, blocks } ops := by
  have hstart : ({ tasks, blocks } : ClientStore).Above := fun hinit => absurd hinit Bool.false_ne_true
  exact (hinserts.and horderly).imp_of_invariant Above (fun s op h hok => above_step h hok) hstart

/-- A task, a block of it, and another task after the first has been removed. -/
theorem addTask_fresh_removed :
    let task : TaskEntity := { state := .waiting }
    let block : BlockEntity := { taskId := 1, offset := 0, blockSize := 1, state := .waiting }
    Run.Meets IssuesFresh step {} [.restart, .addTask task, .addBlock block (some 1), .removeTask 1,
      .addTask task] :=
  addTask_fresh [] [] (by decide) (by decide)

/-- **An id is used again**: the last task is removed, its block stays, and after a restart
the next task is given its id. -/
theorem addTask_reuses :
    let task : TaskEntity := { state := .waiting }
    let block : BlockEntity := { taskId := 1, offset := 0, blockSize := 1, state := .waiting }
    let ops : List StoreOp :=
      [.restart, .addTask task, .addBlock block (some 1), .removeTask 1, .restart, .addTask task]
    Run.Meets InsertsForTasks step {} ops ∧ ¬Run.Meets IssuesFresh step {} ops := by
  decide

/-! ## What a block left behind leads to -/

/-- Adds in a row count on, as long as there are numbers. -/
theorem addTasks_counter (task : TaskEntity) (n : ℕ) : ∀ {s : ClientStore}, s.service.isInit = true →
    0 < s.service.taskCounter.toInt → (∀ row ∈ s.tasks, row.taskId < s.service.taskCounter) →
    s.service.taskCounter.toInt + n < 2 ^ 63 →
    let last := (List.replicate n (.addTask task)).foldl step s
    last.service.isInit = true ∧ last.service.taskCounter.toInt = s.service.taskCounter.toInt + n ∧
      (∀ row ∈ last.tasks, row.taskId < last.service.taskCounter) ∧ last.blocks = s.blocks := by
  induction n with
  | zero =>
    intro s hinit hpos htasks hn
    exact ⟨hinit, by simp, htasks, rfl⟩
  | succ n ih =>
    intro s hinit hpos htasks hn
    have hone : (1 : Int64).toInt = 1 := rfl
    have hcounter : (s.service.taskCounter + 1).toInt = s.service.taskCounter.toInt + 1 := by
      rw [int64_add_toInt] <;> omega
    have hlt : s.service.taskCounter < s.service.taskCounter + 1 := by
      rw [Int64.lt_iff_toInt_lt, hcounter]
      omega
    have hstep : s.step (.addTask task) =
        { s with
          service := { s.service with taskCounter := s.service.taskCounter + 1 }
          tasks := (TaskRepository.add s.tasks { task with taskId := s.service.taskCounter }).1 } := by
      unfold step
      dsimp only
      rw [add_of_isInit hinit]
    have hbelow : ∀ row ∈ (s.step (.addTask task)).tasks, row.taskId < s.service.taskCounter + 1 := by
      rw [hstep]
      dsimp only
      -- whether or not the row is taken, the rows stay below the next number
      rcases add_spec s.tasks { task with taskId := s.service.taskCounter } with ⟨-, hadd⟩ | ⟨-, hadd⟩
      · rw [hadd]
        exact below_append htasks hlt task
      · rw [hadd]
        exact fun row hrow => (htasks row hrow).trans hlt
    have hnext : (s.step (.addTask task)).service.taskCounter = s.service.taskCounter + 1 := by rw [hstep]
    obtain ⟨h₁, h₂, h₃, h₄⟩ := ih (s := s.step (.addTask task)) (by rw [hstep]; exact hinit)
      (by rw [hnext]; omega) (by rw [hnext]; exact hbelow) (by rw [hnext]; omega)
    refine ⟨h₁, ?_, h₃, ?_⟩
    · rw [List.replicate_succ, List.foldl_cons, h₂, hnext]
      omega
    · rw [List.replicate_succ, List.foldl_cons, h₄, hstep]

/-- **After a restart that finds a block above the tasks**, some number of adds comes to the
id of that block. -/
theorem restart_reuses (task : TaskEntity) {block : BlockEntity} (hblock : block ∈ s.blocks)
    (hpos : 0 < block.taskId) (habove : getMaxTaskId s.tasks < block.taskId) :
    ∃ n, ¬IssuesFresh ((.restart :: List.replicate n (.addTask task)).foldl step s) (.addTask task) := by
  have hpos : 0 < block.taskId.toInt := Int64.lt_iff_toInt_lt.1 hpos
  have habove : (getMaxTaskId s.tasks).toInt < block.taskId.toInt := Int64.lt_iff_toInt_lt.1 habove
  have hlast := block.taskId.toInt_lt
  have hne : getMaxTaskId s.tasks ≠ Int64.maxValue := by
    intro heq
    have hmax : (getMaxTaskId s.tasks).toInt = 2 ^ 63 - 1 := congrArg Int64.toInt heq
    omega
  obtain ⟨service, hservice, hinit, hcounter⟩ := init_spec hne
  have hstep : s.step .restart = { s with service := service } := by
    unfold step
    dsimp only
    rw [hservice]
  have htasks : ∀ row ∈ s.tasks, row.taskId < service.taskCounter := by
    intro row hrow
    have hle := Int64.le_iff_toInt_le.1 (le_getMaxTaskId hrow)
    rw [Int64.lt_iff_toInt_lt, hcounter]
    omega
  -- the adds that use up the numbers below the block's
  obtain ⟨n, hn⟩ : ∃ n : ℕ, service.taskCounter.toInt + n = block.taskId.toInt :=
    ⟨(block.taskId.toInt - service.taskCounter.toInt).toNat, by omega⟩
  refine ⟨n, ?_⟩
  rw [List.foldl_cons, hstep]
  obtain ⟨hstarted, hcount, hbelow, hblocks⟩ :=
    addTasks_counter task n (s := { s with service := service }) hinit (by dsimp only; omega) htasks
    (by dsimp only; omega)
  -- the service after these adds, with the id of the block as its next one
  generalize (List.replicate n (.addTask task)).foldl step { s with service := service } = last at *
  have hid : last.service.taskCounter = block.taskId := Int64.toInt_inj.1 (hcount.trans hn)
  intro hfresh
  unfold IssuesFresh at hfresh
  dsimp only at hfresh
  rw [add_of_isInit hstarted] at hfresh
  have hadded : (TaskRepository.add last.tasks { task with taskId := last.service.taskCounter }).2 = true := by
    rcases add_spec last.tasks { task with taskId := last.service.taskCounter } with ⟨-, hadd⟩ | ⟨hrefused, -⟩
    · rw [hadd]
    · refine absurd ⟨?_, fun row hrow => (hbelow row hrow).ne⟩ hrefused
      rw [Int64.lt_iff_toInt_lt, hid]
      exact hpos
  have hnone := (hfresh hadded).2
  have hmem : block ∈ BlockRepository.getByTaskId last.blocks last.service.taskCounter := by
    refine List.mem_filter.2 ⟨?_, decide_eq_true hid.symm⟩
    rw [hblocks]
    exact hblock
  have hsame : (last.step (.addTask task)).blocks = last.blocks := rfl
  rw [hsame] at hnone
  rw [hnone] at hmem
  exact absurd hmem List.not_mem_nil

end ClientStore

end ProjectTrans
