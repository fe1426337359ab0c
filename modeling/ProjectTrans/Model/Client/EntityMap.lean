import ProjectTrans.Lib.Table
import ProjectTrans.Model.Client.SqlRepository

/-!
# The repositories as finite maps

What the repositories are for: each keeps a finite map from ids to entities. A call is
answered from the map, and adds, replaces or drops one of its entries at most. `onMap` is
this statement of purpose; `perform` is what the repository does on the database.
-/

namespace ProjectTrans

/-- Entities under their ids. -/
abbrev EntityMap (E : Type) := Finmap fun _ : Int64 => E

/-- What a call returns; the order of several entities is left out. -/
inductive Reply (E : Type)
  | succeeded (b : Bool)
  | entity (e : Option E)
  | entities (es : Multiset E)
  | number (n : Int64)
  deriving DecidableEq

section Calls

variable (widen : UInt32 → UInt64) (owned : Bool) (db : Sql.Database) (choice : Sql.Choice)

/-! ## Tasks -/

/-- Calls of the repository of tasks. -/
inductive TaskCall
  | add (task : TaskEntity)
  | update (task : TaskEntity)
  | remove (taskId : Int64)
  | getByTaskId (taskId : Int64)
  | getByFileId (fileId : Int64)
  | getAll
  | getAllCount
  | getMaxTaskId

namespace TaskCall

/-- The call, of a repository that is initialised. -/
def perform : TaskCall → Option (Sql.Database × Reply TaskEntity)
  | add task => (SqlTaskRepository.add widen owned ⟨true⟩ db choice task).map fun r => (r.1, .succeeded r.2)
  | update task => (SqlTaskRepository.update widen owned ⟨true⟩ db choice task).map fun r => (r.1, .succeeded r.2)
  | remove taskId => (SqlTaskRepository.remove widen owned ⟨true⟩ db choice taskId).map fun r =>
    (r.1, .succeeded r.2)
  | getByTaskId taskId =>
    (SqlTaskRepository.getByTaskId widen owned ⟨true⟩ db choice taskId).map fun r => (r.1, .entity r.2)
  | getByFileId fileId =>
    (SqlTaskRepository.getByFileId widen owned ⟨true⟩ db choice fileId).map fun r => (r.1, .entities r.2)
  | getAll => (SqlTaskRepository.getAll widen owned ⟨true⟩ db choice).map fun r => (r.1, .entities r.2)
  | getAllCount => (SqlTaskRepository.getAllCount widen owned ⟨true⟩ db choice).map fun r => (r.1, .number r.2)
  | getMaxTaskId => (SqlTaskRepository.getMaxTaskId widen owned ⟨true⟩ db choice).map fun r => (r.1, .number r.2)

/-- The call, of a map. -/
def onMap (m : EntityMap TaskEntity) : TaskCall → EntityMap TaskEntity × Reply TaskEntity
  | add task =>
    if 0 < task.taskId ∧ task.taskId ∉ m then (m.insert task.taskId task, .succeeded true)
    else (m, .succeeded false)
  | update task => (if task.taskId ∈ m then m.insert task.taskId task else m, .succeeded true)
  | remove taskId => (m.erase taskId, .succeeded true)
  | getByTaskId taskId => (m, .entity (m.lookup taskId))
  | getByFileId fileId => (m, .entities ((Table.values m).filter fun task => task.fileId = fileId))
  | getAll => (m, .entities (Table.values m))
  | getAllCount => (m, .number (.ofNat m.keys.card))
  | getMaxTaskId => (m, .number (.ofInt ((m.keys.image Int64.toInt).max.unbotD 0)))

end TaskCall

/-! ## Blocks -/

/-- Calls of the repository of blocks. -/
inductive BlockCall
  | add (block : BlockEntity)
  | update (block : BlockEntity)
  | remove (blockId : Int64)
  | getByBlockId (blockId : Int64)
  | getByTaskId (taskId : Int64)
  | getByTaskIdAndBlockState (taskId : Int64) (state : BlockState)
  | getCountByTaskIdAndBlockState (taskId : Int64) (state : BlockState)
  | getAll

namespace BlockCall

/-- The call, of a repository that is initialised. -/
def perform : BlockCall → Option (Sql.Database × Reply BlockEntity)
  | add block => (SqlBlockRepository.add widen owned ⟨true⟩ db choice block).map fun r => (r.1, .succeeded r.2)
  | update block => (SqlBlockRepository.update widen owned ⟨true⟩ db choice block).map fun r =>
    (r.1, .succeeded r.2)
  | remove blockId =>
    (SqlBlockRepository.remove widen owned ⟨true⟩ db choice blockId).map fun r => (r.1, .succeeded r.2)
  | getByBlockId blockId =>
    (SqlBlockRepository.getByBlockId widen owned ⟨true⟩ db choice blockId).map fun r => (r.1, .entity r.2)
  | getByTaskId taskId =>
    (SqlBlockRepository.getByTaskId widen owned ⟨true⟩ db choice taskId).map fun r => (r.1, .entities r.2)
  | getByTaskIdAndBlockState taskId state =>
    (SqlBlockRepository.getByTaskIdAndBlockState widen owned ⟨true⟩ db choice taskId state).map fun r =>
      (r.1, .entities r.2)
  | getCountByTaskIdAndBlockState taskId state =>
    (SqlBlockRepository.getCountByTaskIdAndBlockState widen owned ⟨true⟩ db choice taskId state).map fun r =>
      (r.1, .number r.2)
  | getAll => (SqlBlockRepository.getAll widen owned ⟨true⟩ db choice).map fun r => (r.1, .entities r.2)

/-- The call, of a map; `assigned` is the id that a new block gets. -/
def onMap (m : EntityMap BlockEntity) (assigned : Int64) : BlockCall → EntityMap BlockEntity × Reply BlockEntity
  | add block => (m.insert assigned { block with blockId := assigned }, .succeeded true)
  | update block => (if block.blockId ∈ m then m.insert block.blockId block else m, .succeeded true)
  | remove blockId => (m.erase blockId, .succeeded true)
  | getByBlockId blockId => (m, .entity (m.lookup blockId))
  | getByTaskId taskId => (m, .entities ((Table.values m).filter fun block => block.taskId = taskId))
  | getByTaskIdAndBlockState taskId state =>
    (m, .entities ((Table.values m).filter fun block => block.taskId = taskId ∧ block.state = state))
  | getCountByTaskIdAndBlockState taskId state =>
    (m, .number (.ofNat ((Table.values m).filter fun block => block.taskId = taskId ∧ block.state = state).card))
  | getAll => (m, .entities (Table.values m))

end BlockCall

/-! ## Both on one database -/

/-- A call of either repository. -/
inductive RepositoryCall
  | task (call : TaskCall)
  | block (call : BlockCall)

/-- The reply of either. -/
inductive RepositoryReply
  | task (reply : Reply TaskEntity)
  | block (reply : Reply BlockEntity)
  deriving DecidableEq

/-- The maps of both. -/
structure RepositoryMaps where
  tasks : EntityMap TaskEntity
  blocks : EntityMap BlockEntity

namespace RepositoryCall

def perform : RepositoryCall → Option (Sql.Database × RepositoryReply)
  | task call => (call.perform widen owned db choice).map fun r => (r.1, .task r.2)
  | block call => (call.perform widen owned db choice).map fun r => (r.1, .block r.2)

def onMaps (m : RepositoryMaps) (assigned : Int64) : RepositoryCall → RepositoryMaps × RepositoryReply
  | task call => ({ m with tasks := (call.onMap m.tasks).1 }, .task (call.onMap m.tasks).2)
  | block call => ({ m with blocks := (call.onMap m.blocks assigned).1 }, .block (call.onMap m.blocks assigned).2)

/-- Calls one after another, with what is left to the database in each. -/
def run : Sql.Database → List (RepositoryCall × Sql.Choice) → Option (Sql.Database × List RepositoryReply)
  | db, [] => some (db, [])
  | db, (call, choice) :: calls => do
    let (db, reply) ← call.perform widen owned db choice
    let (db, replies) ← run db calls
    return (db, reply :: replies)

/-- The same calls of the maps. -/
def runMaps : RepositoryMaps → List (RepositoryCall × Sql.Choice) → RepositoryMaps × List RepositoryReply
  | m, [] => (m, [])
  | m, (call, choice) :: calls =>
    let (m', reply) := call.onMaps m choice.assigned
    let (m'', replies) := runMaps m' calls
    (m'', reply :: replies)

end RepositoryCall

end Calls

end ProjectTrans
