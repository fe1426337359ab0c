import ProjectTrans.Model.Client.ClientApp

/-!
# What the user sees

`view/widget/client_main_window`, `view/widget/task_table_widget`, `model/view/task_table_model`.
The window shows a table of tasks, which is a copy of the one in the database. It is told when
a task is added, and it reads a task again when the task is announced as completed. The row
that is clicked says which task is started.
-/

namespace ProjectTrans

open Wire

/-- `TaskTableModel`. -/
structure TaskTableModel where
  taskList : List TaskEntity := []

namespace TaskTableModel

variable (model : TaskTableModel)

/-- `init`. -/
def init (tasks : List TaskEntity) : TaskTableModel := ⟨tasks⟩

/-- The loop of `update`, and of `add` once it has found the row: the first row of the task is written over. -/
def replaceRow (task : TaskEntity) : List TaskEntity → List TaskEntity
  | [] => []
  | row :: rows => if task.taskId = row.taskId then task :: rows else row :: replaceRow task rows

/-- `update`, with the table of the database. -/
def update (tasks : List TaskEntity) (taskId : Int64) : TaskTableModel :=
  match TaskRepository.getByTaskId tasks taskId with
  | none => model
  | some task => ⟨replaceRow task model.taskList⟩

/-- `add`. -/
def add (task : TaskEntity) : TaskTableModel :=
  if model.taskList.any fun row => row.taskId = task.taskId then ⟨replaceRow task model.taskList⟩
  else ⟨model.taskList ++ [task]⟩

/-- `get_task_by_row`. -/
def getTaskByRow (row : Int64) : Option TaskEntity :=
  if row < 0 ∨ row.toInt ≥ model.taskList.length then none else model.taskList[row.toInt.toNat]?

end TaskTableModel

/-- `ClientMainWindow` with its table, and the client behind it. The announcements that the main
thread has taken are counted. -/
structure ClientMainWindow where
  app : ClientApp
  table : TaskTableModel
  announced : ℕ := 0
  selectedTaskId : Int64 := -1

/-- Something goes on in the client, a row is clicked, the task that is selected is started, or
the main thread takes an announcement. -/
inductive WindowAction
  | app (action : ClientAction)
  | clicked (row : Int64)
  | startTask
  | taskCompleted

namespace ClientMainWindow

/-- Once `init` has cleared the database. -/
def init : ClientMainWindow := { app := .init, table := .init ClientApp.init.controller.tasks }

variable (serverFd eventFd : NetworkEndpoint → ℕ) (host : Endian) (text : SerializeField → Bytes)
  (w : ClientMainWindow)

/-- `on_task_entity_add`: what has been added to the table of the database is published. -/
def onTaskEntityAdd (app : ClientApp) : ClientMainWindow :=
  { w with
    app := app
    table := (app.controller.tasks.drop w.app.controller.tasks.length).foldl TaskTableModel.add w.table }

/-- `on_cell_clicked` and `on_task_selected`. -/
def onCellClicked (row : Int64) : ClientMainWindow :=
  match w.table.getTaskByRow row with
  | none => w
  | some task => if task.taskId < 0 then w else { w with selectedTaskId := task.taskId }

/-- `on_task_completed`, for the announcement that waits first. -/
def onTaskCompleted : ClientMainWindow :=
  match w.app.completed[w.announced]? with
  | none => w
  | some taskId =>
    { w with table := w.table.update w.app.controller.tasks taskId, announced := w.announced + 1 }

/-- One step. A task is started only from the window, and no slot of the window runs while
another is under way. -/
def step : WindowAction → ClientMainWindow
  | .app (.startTask _) => w
  | .app action => w.onTaskEntityAdd (w.app.step serverFd eventFd host text action)
  | .clicked row => if w.app.adding.isNone then w.onCellClicked row else w
  | .startTask => w.onTaskEntityAdd (w.app.step serverFd eventFd host text (.startTask w.selectedTaskId))
  | .taskCompleted => if w.app.adding.isNone then w.onTaskCompleted else w

end ClientMainWindow

end ProjectTrans
