import ProjectTrans.Model.Client.TaskTableModel
import ProjectTrans.Proof.Client.Published

/-!
# The table of tasks that is shown

`table_shown`: the window shows the tasks of the database, in their order. A row can be late
only in the state and the end time of a task that has been completed, and only until the main
thread has taken the announcement. So a task that is selected is one of the database.
-/

namespace ProjectTrans

open Wire

/-- The task as it was, or completed and announced. -/
def TaskEntity.Later (announced : List Int64) (row task : TaskEntity) : Prop :=
  task = row ∨ task = { row with state := .completed, endTime := task.endTime } ∧ row.taskId ∈ announced

/-- Tasks of which some have been completed. -/
def AllLater (announced : List Int64) (rows tasks : List TaskEntity) : Prop :=
  List.Forall₂ (TaskEntity.Later announced) rows tasks

section Later

variable {announced announced' : List Int64} {row task task' : TaskEntity} {rows tasks tasks' : List TaskEntity}

theorem TaskEntity.Later.taskId (h : row.Later announced task) : task.taskId = row.taskId := by
  rcases h with rfl | ⟨heq, -⟩
  · rfl
  · rw [heq]

theorem TaskEntity.Later.mono (h : row.Later announced task) (hsubset : announced ⊆ announced') :
    row.Later announced' task :=
  h.imp_right fun hdone => ⟨hdone.1, hsubset hdone.2⟩

theorem TaskEntity.Later.trans (h : row.Later announced task) (h' : task.Later announced' task') :
    row.Later (announced ++ announced') task' := by
  rcases h' with rfl | ⟨heq, hmem⟩
  · exact h.mono (List.subset_append_left ..)
  · refine .inr ⟨?_, List.mem_append_right _ (h.taskId ▸ hmem)⟩
    rcases h with rfl | ⟨hrow, -⟩
    · exact heq
    · rw [heq, hrow]

/-- A row that is not late for an announcement does not wait for it. -/
theorem TaskEntity.Later.of_cons {taskId : Int64} (h : row.Later (taskId :: announced) task)
    (hne : row.taskId ≠ taskId) : row.Later announced task :=
  h.imp_right fun hdone => ⟨hdone.1, (List.mem_cons.1 hdone.2).resolve_left hne⟩

theorem AllLater.refl (announced : List Int64) (rows : List TaskEntity) : AllLater announced rows rows :=
  List.forall₂_same.2 fun _ _ => .inl rfl

theorem AllLater.mono (h : AllLater announced rows tasks) (hsubset : announced ⊆ announced') :
    AllLater announced' rows tasks :=
  List.Forall₂.imp (fun _ _ hrow => hrow.mono hsubset) h

theorem AllLater.trans (h : AllLater announced rows tasks) (h' : AllLater announced' tasks tasks') :
    AllLater (announced ++ announced') rows tasks' := by
  induction h generalizing tasks' with
  | nil =>
    cases h'
    exact .nil
  | cons hrow _ ih =>
    obtain _ | ⟨htask, hrest⟩ := h'
    exact .cons (hrow.trans htask) (ih hrest)

/-- The ids are the same. -/
theorem AllLater.taskIds (h : AllLater announced rows tasks) : tasks.map (·.taskId) = rows.map (·.taskId) := by
  induction h with
  | nil => rfl
  | cons hrow _ ih => rw [List.map_cons, List.map_cons, hrow.taskId, ih]

theorem AllLater.append (h : AllLater announced rows tasks) (task : TaskEntity) :
    AllLater announced (rows ++ [task]) (tasks ++ [task]) :=
  List.rel_append h (.cons (.inl rfl) .nil)

/-- Without announcements nothing is late. -/
theorem AllLater.eq (h : AllLater [] rows tasks) : rows = tasks := by
  induction h with
  | nil => rfl
  | cons hrow _ ih =>
    rcases hrow with rfl | ⟨-, hmem⟩
    · rw [ih]
    · exact absurd hmem List.not_mem_nil

/-- A task that is not there is not waited for. -/
theorem AllLater.of_absent {taskId : Int64} (h : AllLater (taskId :: announced) rows tasks)
    (habsent : ∀ task ∈ tasks, task.taskId ≠ taskId) : AllLater announced rows tasks := by
  induction h with
  | nil => exact .nil
  | cons hrow _ ih =>
    obtain ⟨hfirst, hrest⟩ := List.forall_mem_cons.1 habsent
    exact .cons (hrow.of_cons fun heq => hfirst (hrow.taskId.trans heq)) (ih hrest)

end Later

/-! ## The table -/

namespace TaskTableModel

variable {announced : List Int64} {rows tasks : List TaskEntity}

/-- **The row of a task is written over** by the task as it is now. -/
theorem replaceRow_later {task : TaskEntity} (h : AllLater (task.taskId :: announced) rows tasks)
    (hids : (tasks.map (·.taskId)).Nodup) (hmem : task ∈ tasks) :
    AllLater announced (replaceRow task rows) tasks := by
  induction h with
  | nil => exact absurd hmem List.not_mem_nil
  | @cons row first rows tasks hrow hrest ih =>
    rw [List.map_cons, List.nodup_cons] at hids
    obtain ⟨hfirst, hids⟩ := hids
    unfold replaceRow
    by_cases hsame : task.taskId = row.taskId
    · -- it is the first, and no other has its id
      rw [if_pos hsame]
      have hid : first.taskId = task.taskId := hrow.taskId.trans hsame.symm
      rcases List.mem_cons.1 hmem with rfl | hlater
      · refine .cons (.inl rfl) (AllLater.of_absent hrest fun other hother heq => hfirst ?_)
        rw [← heq]
        exact List.mem_map_of_mem hother
      · refine absurd ?_ hfirst
        rw [hid]
        exact List.mem_map_of_mem hlater
    · rw [if_neg hsame]
      rcases List.mem_cons.1 hmem with rfl | hlater
      · exact absurd hrow.taskId hsame
      · exact .cons (hrow.of_cons (Ne.symm hsame)) (ih hids hlater)

/-- A task is read again. -/
theorem update_later {model : TaskTableModel} {taskId : Int64}
    (h : AllLater (taskId :: announced) model.taskList tasks)
    (hids : (tasks.map (·.taskId)).Nodup) : AllLater announced (model.update tasks taskId).taskList tasks := by
  unfold update
  split
  · rename_i hnone
    refine h.of_absent fun task htask heq => ?_
    exact absurd (decide_eq_true heq) (List.find?_eq_none.1 hnone task htask)
  · rename_i task hfound
    have hid : task.taskId = taskId := by simpa using List.find?_some hfound
    subst hid
    exact replaceRow_later h hids (List.mem_of_find?_eq_some hfound)

/-- A new task is shown behind the others. -/
theorem add_taskList {model : TaskTableModel} {task : TaskEntity}
    (hnew : ∀ row ∈ model.taskList, row.taskId ≠ task.taskId) :
    (model.add task).taskList = model.taskList ++ [task] := by
  have hnone : ¬(model.taskList.any fun row => row.taskId = task.taskId) = true := by
    rw [List.any_eq_true]
    rintro ⟨row, hrow, heq⟩
    exact hnew row hrow (of_decide_eq_true heq)
  unfold add
  rw [if_neg hnone]

theorem getTaskByRow_mem {model : TaskTableModel} {row : Int64} {task : TaskEntity}
    (h : model.getTaskByRow row = some task) : task ∈ model.taskList := by
  unfold getTaskByRow at h
  split at h
  · cases h
  · exact List.mem_of_getElem? h

end TaskTableModel

/-! ## What goes on in the client -/

namespace BlockScheduleController

variable {c : BlockScheduleController}

/-- What is announced by signals. -/
def announcements (signals : List ScheduleSignal) : List Int64 :=
  signals.filterMap fun
    | .taskCompleted taskId => some taskId
    | .blockRequest _ _ _ => none

theorem completeTask_later (hids : (c.tasks.map (·.taskId)).Nodup) (outcome : FileOutcome) (taskId : Int64) :
    AllLater (announcements (c.completeTask outcome taskId).2) c.tasks
      (c.completeTask outcome taskId).1.tasks := by
  unfold completeTask
  split
  · dsimp only
    split
    · rename_i task hfound
      have hid : task.taskId = taskId := by simpa using List.find?_some hfound
      unfold TaskRepository.update
      -- ids are distinct, so only the row that was found is written over
      refine List.forall₂_map_right_iff.2 (List.forall₂_same.2 fun row hrow => ?_)
      split
      · rename_i hsame
        obtain rfl : row = task := List.inj_on_of_nodup_map hids hrow (List.mem_of_find?_eq_some hfound) hsame
        exact .inr ⟨rfl, List.mem_singleton.2 hid⟩
      · exact .inl rfl
    · exact .refl _ _
  · exact .refl _ _

/-- **A call changes only tasks that it announces.** -/
theorem step_later (hids : (c.tasks.map (·.taskId)).Nodup) (call : ScheduleCall) :
    AllLater (announcements (c.step call).2) c.tasks (c.step call).1.tasks := by
  by_cases hcall : ∃ outcome response, call = .onBlockResponse outcome response
  · obtain ⟨outcome, response, rfl⟩ := hcall
    rw [step]
    obtain h | ⟨task, block, -, -, h | ⟨-, h⟩⟩ := c.onBlockResponse_cases outcome response
    · rw [h]
      exact .refl _ _
    · rw [h]
      exact .refl _ _
    · rw [h]
      exact completeTask_later (c := { c.afterWrite outcome task response with
        blocks := BlockRepository.update c.blocks
          { block with state := .completed, endTime := outcome.blockEnd } })
        hids outcome task.taskEntity.taskId
  · obtain ⟨-, htasks, -⟩ := step_tables fun outcome response heq => hcall ⟨outcome, response, heq⟩
    rw [htasks]
    exact .refl _ _

end BlockScheduleController

namespace ClientApp

variable {s : ClientApp}

/-- What a step does to the tasks: one is added, or some are completed and announced. -/
def Changes (s s' : ClientApp) : Prop :=
  ∃ announced, s'.completed = s.completed ++ announced ∧
    ((∃ task, s'.controller.tasks = s.controller.tasks ++ [task] ∧
        ∀ row ∈ s.controller.tasks, row.taskId ≠ task.taskId) ∨
      AllLater announced s.controller.tasks s'.controller.tasks)

theorem Changes.of_eq {s' : ClientApp} (hcompleted : s'.completed = s.completed)
    (htasks : s'.controller.tasks = s.controller.tasks) : Changes s s' := by
  refine ⟨[], ?_, .inr ?_⟩
  · rw [hcompleted, List.append_nil]
  · rw [htasks]
    exact .refl _ _

/-- What is emitted is published or announced. -/
theorem emit_all (signals : List ScheduleSignal) : ∀ s : ClientApp,
    (signals.foldl emit s).controller = s.controller ∧
      (signals.foldl emit s).completed = s.completed ++ BlockScheduleController.announcements signals := by
  induction signals with
  | nil => exact fun s => ⟨rfl, (List.append_nil _).symm⟩
  | cons signal signals ih =>
    intro s
    obtain ⟨hcontroller, hcompleted⟩ := ih (s.emit signal)
    cases signal with
    | blockRequest eventSource endpoint transfer => exact ⟨hcontroller, hcompleted⟩
    | taskCompleted taskId =>
      refine ⟨hcontroller, hcompleted.trans ?_⟩
      exact List.append_assoc s.completed [taskId] _

theorem call_changes (hids : (s.controller.tasks.map (·.taskId)).Nodup) (scheduleCall : ScheduleCall) :
    Changes s (s.call scheduleCall) := by
  obtain ⟨hcontroller, hcompleted⟩ := emit_all (s.controller.step scheduleCall).2
    { s with controller := (s.controller.step scheduleCall).1 }
  have hcalled : (s.call scheduleCall).controller = (s.controller.step scheduleCall).1 := hcontroller
  refine ⟨_, hcompleted, .inr ?_⟩
  rw [hcalled]
  exact BlockScheduleController.step_later hids scheduleCall

variable (serverFd eventFd : NetworkEndpoint → ℕ) (host : Endian) (text : SerializeField → Bytes)

/-- **A download that is added** adds a task with an id of its own. -/
theorem onAddDownload_changes (download : NewDownload) :
    Changes s (s.onAddDownload serverFd eventFd host text download) := by
  unfold onAddDownload
  split
  · exact .of_eq rfl rfl
  · split
    · exact .of_eq rfl rfl
    · split
      · exact .of_eq rfl rfl
      · split
        · exact .of_eq rfl rfl
        · split
          · exact .of_eq rfl rfl
          · dsimp only
            rename_i fileId _
            rcases add_cases s.taskService s.controller.tasks _ with ⟨hadded, htasks⟩ | ⟨hadded, htasks, hnew⟩
            · -- the service refuses the task
              rw [hadded]
              exact .of_eq rfl htasks
            · -- what is asked for after that does not touch the tables
              rw [hadded]
              exact ⟨[], (List.append_nil _).symm, .inl ⟨_, htasks, hnew⟩⟩

theorem onSendTest_changes (objectName url message : Bytes) :
    Changes s (s.onSendTest serverFd eventFd host text objectName url message) := by
  unfold onSendTest
  split
  · exact .of_eq rfl rfl
  · exact .of_eq rfl rfl

theorem onStartTask_changes (taskId : Int64) : Changes s (s.onStartTask taskId) := by
  unfold onStartTask
  split
  · exact .of_eq rfl rfl
  · split
    · exact .of_eq rfl rfl
    · split
      · exact .of_eq rfl rfl
      · exact .of_eq rfl rfl

theorem dispatch_changes : Changes s s.dispatch := by
  unfold dispatch
  split
  · exact .of_eq rfl rfl
  · rename_i signal _
    dsimp only
    split
    · exact .of_eq rfl rfl
    · cases signal with
      | testResponseReceived => exact .of_eq rfl rfl
      | downloadResponseReceived _ response =>
        dsimp only
        unfold onDownloadResponse
        split
        · exact .of_eq rfl rfl
        · exact .of_eq rfl rfl
      | blockResponseReceived => exact .of_eq rfl rfl

/-- A block is added to the other table. -/
theorem addBlock_changes (call : AddCall) (assigned : Option Int64) : Changes s (s.addBlock call assigned) := by
  unfold addBlock
  split
  · split
    · exact .of_eq rfl rfl
    · dsimp only
      split
      · exact .of_eq rfl rfl
      · exact .of_eq rfl rfl
  · exact .of_eq rfl rfl

theorem schedule_changes (hids : (s.controller.tasks.map (·.taskId)).Nodup) (outcome : FileOutcome) :
    Changes s (s.schedule outcome) := by
  unfold schedule
  split
  · exact .of_eq rfl rfl
  · rename_i event events _
    cases event with
    | taskEnqueue eventSource endpoint taskEntity =>
      exact call_changes (s := { s with scheduleEvents := events }) hids
        (.onTaskEnqueue eventSource endpoint taskEntity)
    | blockResponse response =>
      exact call_changes (s := { s with scheduleEvents := events }) hids (.onBlockResponse outcome response)

theorem onMainThread_changes {next : ClientApp} (h : Changes s next) : Changes s (s.onMainThread next) := by
  unfold onMainThread
  split
  · exact h
  · exact .of_eq rfl rfl

/-- **A step** of the client. -/
theorem step_changes (hids : (s.controller.tasks.map (·.taskId)).Nodup) (action : ClientAction) :
    Changes s (s.step serverFd eventFd host text action) := by
  cases action with
  | newDownload download => exact onMainThread_changes (onAddDownload_changes serverFd eventFd host text download)
  | sendTest objectName url message =>
    exact onMainThread_changes (onSendTest_changes serverFd eventFd host text objectName url message)
  | startTask taskId => exact onMainThread_changes (onStartTask_changes taskId)
  | onBlockRequest =>
    simp only [step]
    split
    · exact .of_eq rfl rfl
    · exact onMainThread_changes (.of_eq rfl rfl)
  | dispatch => exact onMainThread_changes dispatch_changes
  | addBlock assigned =>
    simp only [step]
    split
    · exact .of_eq rfl rfl
    · rename_i call _
      split
      · exact .of_eq rfl rfl
      · exact addBlock_changes call assigned
  | schedule outcome => exact schedule_changes hids outcome
  | timer => exact call_changes hids .onBlockRequest
  | net action =>
    -- what goes on behind `TransService` does not reach the tables
    rcases step_net s serverFd eventFd host text action with hsame | ⟨-, hnet⟩
    · rw [hsame]
      exact .of_eq rfl rfl
    · rw [hnet]
      exact .of_eq rfl rfl

end ClientApp

/-! ## The window -/

namespace ClientMainWindow

/-- The announcements that the main thread has not taken yet. -/
def waiting (w : ClientMainWindow) : List Int64 := w.app.completed.drop w.announced

/-- The rows are the tasks, up to those that are waited for, and the selected id is one of a task. -/
structure Inv (w : ClientMainWindow) : Prop where
  ids : (w.app.controller.tasks.map (·.taskId)).Nodup
  taken : w.announced ≤ w.app.completed.length
  rows : AllLater w.waiting w.table.taskList w.app.controller.tasks
  selected : w.selectedTaskId = -1 ∨ w.selectedTaskId ∈ w.app.controller.tasks.map (·.taskId)

theorem Inv.init : Inv ClientMainWindow.init where
  ids := List.nodup_nil
  taken := Nat.le_refl _
  rows := .nil
  selected := .inl rfl

variable {w : ClientMainWindow}

/-- **The table follows** a step of the client. -/
theorem Inv.onTaskEntityAdd (h : w.Inv) {app : ClientApp} (hchanges : w.app.Changes app) :
    (w.onTaskEntityAdd app).Inv := by
  obtain ⟨announced, hcompleted, hchange⟩ := hchanges
  -- what is announced by the step waits behind what was waiting
  have hwaiting : (w.onTaskEntityAdd app).waiting = w.waiting ++ announced := by
    show app.completed.drop w.announced = _
    rw [hcompleted, List.drop_append_of_le_length h.taken]
    rfl
  have htaken : w.announced ≤ app.completed.length := by
    rw [hcompleted, List.length_append]
    exact h.taken.trans (Nat.le_add_right _ _)
  rcases hchange with ⟨task, htasks, hnew⟩ | hlater
  · -- the row of the new task is shown behind the others
    have hadded : (w.onTaskEntityAdd app).table = w.table.add task := by
      show (app.controller.tasks.drop w.app.controller.tasks.length).foldl TaskTableModel.add w.table = _
      rw [htasks, List.drop_left]
      rfl
    have hrow : ∀ row ∈ w.table.taskList, row.taskId ≠ task.taskId := by
      intro row hrow heq
      have hmem : row.taskId ∈ w.app.controller.tasks.map (·.taskId) := by
        rw [h.rows.taskIds]
        exact List.mem_map_of_mem hrow
      obtain ⟨task', htask', hid⟩ := List.mem_map.1 hmem
      exact hnew task' htask' (hid.trans heq)
    have hids : (app.controller.tasks.map (·.taskId)).Nodup := by
      rw [htasks, List.map_append, List.map_singleton, ← List.concat_eq_append]
      refine h.ids.concat fun hmem => ?_
      obtain ⟨task', htask', hid⟩ := List.mem_map.1 hmem
      exact hnew task' htask' hid
    refine ⟨hids, htaken, ?_, ?_⟩
    · rw [hwaiting, hadded, TaskTableModel.add_taskList hrow]
      show AllLater _ _ app.controller.tasks
      rw [htasks]
      exact (h.rows.mono (List.subset_append_left _ _)).append task
    · refine h.selected.imp_right fun hmem => ?_
      show _ ∈ app.controller.tasks.map (·.taskId)
      rw [htasks, List.map_append]
      exact List.mem_append_left _ hmem
  · -- no task is added
    have hkept : (w.onTaskEntityAdd app).table = w.table := by
      show (app.controller.tasks.drop w.app.controller.tasks.length).foldl TaskTableModel.add w.table = _
      rw [List.drop_eq_nil_of_le (Nat.le_of_eq hlater.length_eq.symm)]
      rfl
    have hids : app.controller.tasks.map (·.taskId) = w.app.controller.tasks.map (·.taskId) := hlater.taskIds
    refine ⟨?_, htaken, ?_, ?_⟩
    · show (app.controller.tasks.map (·.taskId)).Nodup
      rw [hids]
      exact h.ids
    · rw [hwaiting, hkept]
      exact h.rows.trans hlater
    · show _ ∨ _ ∈ app.controller.tasks.map (·.taskId)
      rw [hids]
      exact h.selected

/-- An announcement is taken. -/
theorem Inv.onTaskCompleted (h : w.Inv) : w.onTaskCompleted.Inv := by
  unfold ClientMainWindow.onTaskCompleted
  split
  · exact h
  · rename_i taskId hfirst
    obtain ⟨hlt, hget⟩ := List.getElem?_eq_some_iff.1 hfirst
    have hwaiting : w.waiting = taskId :: w.app.completed.drop (w.announced + 1) := by
      rw [← hget]
      exact List.drop_eq_getElem_cons hlt
    have hrows := h.rows
    rw [hwaiting] at hrows
    exact ⟨h.ids, hlt, TaskTableModel.update_later hrows h.ids, h.selected⟩

/-- A row is clicked. -/
theorem Inv.onCellClicked (h : w.Inv) (row : Int64) : (w.onCellClicked row).Inv := by
  unfold ClientMainWindow.onCellClicked
  split
  · exact h
  · rename_i task hclicked
    split
    · exact h
    · refine ⟨h.ids, h.taken, h.rows, .inr ?_⟩
      show task.taskId ∈ w.app.controller.tasks.map (·.taskId)
      rw [h.rows.taskIds]
      exact List.mem_map_of_mem (TaskTableModel.getTaskByRow_mem hclicked)

variable (serverFd eventFd : NetworkEndpoint → ℕ) (host : Endian) (text : SerializeField → Bytes)

/-- **Every step keeps** the table. -/
theorem Inv.step (h : w.Inv) (action : WindowAction) : (w.step serverFd eventFd host text action).Inv := by
  cases action with
  | app action =>
    have hstep := h.onTaskEntityAdd (ClientApp.step_changes serverFd eventFd host text h.ids action)
    cases action with
    | startTask taskId => exact h
    | _ => exact hstep
  | clicked row =>
    simp only [ClientMainWindow.step]
    split
    · exact h.onCellClicked row
    · exact h
  | startTask =>
    exact h.onTaskEntityAdd
      (ClientApp.step_changes serverFd eventFd host text h.ids (.startTask w.selectedTaskId))
  | taskCompleted =>
    simp only [ClientMainWindow.step]
    split
    · exact h.onTaskCompleted
    · exact h

/-- **The table that is shown** is the table of tasks in every run, its rows in the same
order. A row differs only in the state and the end time of a task that is completed, while
its announcement is waiting; with none waiting the two tables are equal. What is selected is
the id of a task. -/
theorem table_shown (actions : List WindowAction) :
    let w := actions.foldl (step serverFd eventFd host text) ClientMainWindow.init
    AllLater w.waiting w.table.taskList w.app.controller.tasks ∧
      (w.waiting = [] → w.table.taskList = w.app.controller.tasks) ∧
      (w.selectedTaskId = -1 ∨ ∃ task ∈ w.app.controller.tasks, task.taskId = w.selectedTaskId) := by
  intro w
  have h : w.Inv := by
    show (actions.foldl (step serverFd eventFd host text) ClientMainWindow.init).Inv
    exact List.foldlRecOn actions _ Inv.init fun _ hw action _ => hw.step serverFd eventFd host text action
  refine ⟨h.rows, fun hnone => ?_, h.selected.imp_right List.mem_map.1⟩
  have hrows := h.rows
  rw [hnone] at hrows
  exact hrows.eq

end ClientMainWindow

end ProjectTrans
