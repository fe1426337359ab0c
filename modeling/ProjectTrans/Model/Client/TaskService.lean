import ProjectTrans.Model.Client.Block
import ProjectTrans.Model.Condition.EndpointRange

/-!
# Task ids (`service/task_service`, `repository/task_repository`)

A service numbers the tasks it adds with a counter of its own, which starts behind the
largest id of the task table each time the client starts. The tables outlive it.
-/

namespace ProjectTrans

namespace TaskRepository

variable (rows : List TaskEntity)

/-- `add`: only positive ids, and the id is the primary key. -/
def add (task : TaskEntity) : List TaskEntity × Bool :=
  if task.taskId ≤ 0 then (rows, false)
  else if rows.any fun row => row.taskId = task.taskId then (rows, false)
  else (rows ++ [task], true)

/-- `remove`. -/
def remove (taskId : Int64) : List TaskEntity := rows.filter fun row => row.taskId ≠ taskId

/-- `get_max_task_id`. -/
def getMaxTaskId : Int64 := (rows.map (·.taskId)).max?.getD 0

end TaskRepository

/-- `TaskService`. -/
structure TaskService where
  isInit : Bool := false
  taskCounter : Int64 := -1
  deriving DecidableEq, Repr

namespace TaskService

/-- `init`; there is no result when the sum overflows. -/
def init (tasks : List TaskEntity) : Option TaskService :=
  let maxTaskId := TaskRepository.getMaxTaskId tasks
  let maxTaskId := if maxTaskId < 0 then 0 else maxTaskId
  (addInt64 maxTaskId 1).map fun taskCounter => ⟨true, taskCounter⟩

/-- `add`: the service, the table, the task as it was numbered and what is returned. The
counter wraps. -/
def add (s : TaskService) (tasks : List TaskEntity) (task : TaskEntity) :
    TaskService × List TaskEntity × TaskEntity × Bool :=
  let task := { task with taskId := s.taskCounter }
  let s := { s with taskCounter := s.taskCounter + 1 }
  if !s.isInit then (s, tasks, task, false)
  else
    let (tasks, added) := TaskRepository.add tasks task
    (s, tasks, task, added)

/-- `remove`. -/
def remove (s : TaskService) (tasks : List TaskEntity) (taskId : Int64) : List TaskEntity :=
  if !s.isInit then tasks else TaskRepository.remove tasks taskId

end TaskService

/-- The client: the two tables of its database, and the service of this start. -/
structure ClientStore where
  tasks : List TaskEntity := []
  blocks : List BlockEntity := []
  service : TaskService := {}
  deriving DecidableEq, Repr

/-- What happens to them; `assigned` is the id the database gives a block. -/
inductive StoreOp
  | restart
  | addTask (task : TaskEntity)
  | removeTask (taskId : Int64)
  | addBlock (block : BlockEntity) (assigned : Option Int64)
  deriving DecidableEq, Repr

namespace ClientStore

def step (s : ClientStore) : StoreOp → ClientStore
  | .restart =>
    match TaskService.init s.tasks with
    | some service => { s with service := service }
    -- the sum has overflowed, and what follows is undefined
    | none => { s with service := {} }
  | .addTask task =>
    let (service, tasks, _, _) := s.service.add s.tasks task
    { s with service := service, tasks := tasks }
  | .removeTask taskId => { s with tasks := s.service.remove s.tasks taskId }
  | .addBlock block assigned => { s with blocks := (BlockRepository.add s.blocks block assigned).1 }

end ClientStore

end ProjectTrans
