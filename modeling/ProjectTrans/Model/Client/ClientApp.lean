import ProjectTrans.Model.Client.TaskService
import ProjectTrans.Model.Deployment
import ProjectTrans.Model.Network.UrlResolver

/-!
# The client (`client/source/view`, `client/source/controller`, `client/source/main/client_app`)

Dialogs and windows, `ViewEventHub`, `ViewEventController` and `TransService` live on the main
thread, `BlockScheduleController` on a thread of its own; a slot runs to its end before its thread takes the next,
and signals from one thread to the other wait in a queue. Both threads use the tables of the
database. Here is what they do with requests, tasks and blocks; what is only shown is left out.
-/

namespace ProjectTrans

open Wire

/-! ## URLs -/

/-- The letters of a `std::string`. -/
def letters (s : Bytes) : Text := s.map fun b => Char.ofNat b.toNat

/-- The `std::string` of letters. -/
def unletters (t : Text) : Bytes := t.map fun c => UInt8.ofNat c.toNat

/-- `std::stoll`. -/
def stoll (s : Text) : Except UrlFault Int64 :=
  let signed := readSign (s.dropWhile isSpace)
  let digits := signed.2.takeWhile Char.isDigit
  if digits = [] then .error .invalidArgument
  else
    let n : ℤ := Nat.ofDigitChars 10 digits 0
    let value := if signed.1 then -n else n
    if -2 ^ 63 ≤ value ∧ value < 2 ^ 63 then .ok (.ofInt value) else .error .outOfRange

/-- `get_param`; `pairs` is the order in which the container holds its pairs. -/
def UrlInfo.getParam (pairs : List (Text × Text)) (key : Text) : Option Text :=
  (pairs.find? fun p => p.1 = key).map Prod.snd

/-- The endpoint that a URL names. -/
def UrlInfo.endpoint (info : UrlInfo) : NetworkEndpoint := ⟨unletters info.host, info.port⟩

/-! ## Events -/

/-- `EventEnvelope`, without its time. -/
structure EventEnvelope where
  eventId : UInt64 := 0
  eventContext : EventContext
  deriving DecidableEq, Repr

/-- A request that a publisher of `ViewEventHub` emits. -/
structure RequestEvent where
  envelope : EventEnvelope
  endpoint : NetworkEndpoint
  request : TransService.Request
  deriving DecidableEq

/-- What waits for the thread of `BlockScheduleController`. -/
inductive ScheduleEvent
  | taskEnqueue (eventSource : EventContext) (endpoint : NetworkEndpoint) (taskEntity : TaskEntity)
  | blockResponse (response : BlockResponseTransfer)
  deriving DecidableEq

/-- What the user enters for a download and answers to the questions about it. -/
structure NewDownload where
  url : Bytes
  savedPath : Bytes
  query : List (Text × Text)
  agrees : Bool
  startTime : Int64
  deriving DecidableEq

/-- A call of `BlockService::add` that is under way. -/
structure AddCall where
  file : ClientFileEntity
  taskId : Int64
  offset : Int64 := 0
  deriving DecidableEq, Repr

/-- The client, and all that it talks to. The tables of tasks and blocks are those of the controller. -/
structure ClientApp where
  net : Deployment
  controller : BlockScheduleController
  taskService : TaskService
  /-- `m_event_id_counter` and `m_event_envelopes`. -/
  eventIdCounter : UInt64 := 0
  eventEnvelopes : UInt64 → Option EventEnvelope := fun _ => none
  /-- How many of the signals of `TransService` have come to their slots. -/
  dispatched : ℕ := 0
  adding : Option AddCall := none
  /-- What waits for the main thread and for the controller's. -/
  requestEvents : List RequestEvent := []
  scheduleEvents : List ScheduleEvent := []
  /-- All requests and responses that the hub has published, the calls of `BlockService::add` that
  returned true, and the tasks that were announced. -/
  asked : List RequestEvent := []
  published : List (EventEnvelope × TransService.Signal) := []
  added : List AddCall := []
  completed : List Int64 := []

/-- The user enters a download, a test or starts a task; the main thread takes a block request, takes
a response, or goes on with the blocks of a file; the controller's thread takes what waits for it,
or its timer goes off; or something goes on behind `TransService`. -/
inductive ClientAction
  | newDownload (download : NewDownload)
  | sendTest (objectName url message : Bytes)
  | startTask (taskId : Int64)
  | onBlockRequest
  | dispatch
  | addBlock (assigned : Option Int64)
  | schedule (outcome : FileOutcome)
  | timer
  | net (action : DeploymentAction)

namespace ClientApp

/-- Once `init` has cleared the database. -/
def init : ClientApp where
  net := .init
  controller := { queue := [], pending := fun _ => none, blocks := [], tasks := [], written := [] }
  taskService := (TaskService.init []).getD {}

section Steps

variable (serverFd eventFd : NetworkEndpoint → ℕ) (host : Endian) (text : SerializeField → Bytes)

variable (s : ClientApp)

/-- `publish_test_request`, `publish_download_request` and `publish_block_request`. -/
def publish (eventContext : EventContext) (endpoint : NetworkEndpoint) (request : TransService.Request) :
    ClientApp × RequestEvent :=
  let event : RequestEvent := ⟨⟨s.eventIdCounter, eventContext⟩, endpoint, request⟩
  ({ s with eventIdCounter := s.eventIdCounter + 1, asked := s.asked ++ [event] }, event)

/-- `on_test_request`, `on_download_request` and `on_block_request` of `ViewEventController`. The
envelope is kept when `TransService` returns, before anything else that looks for it. -/
def onRequest (event : RequestEvent) : ClientApp :=
  let requestId := s.net.trans.service.requestIdCounter
  { s with
    net := s.net.step serverFd eventFd host text (.trans (.send event.endpoint event.request))
    eventEnvelopes := Function.update s.eventEnvelopes requestId (some event.envelope) }

/-- `on_add_download_push_button_clicked`. -/
def onAddDownload (download : NewDownload) : ClientApp :=
  match UrlResolver.parse (letters download.url) with
  | .error _ => s
  | .ok info =>
    if (download.query : Multiset (Text × Text)) ≠ info.query then s
    else
      match UrlInfo.getParam download.query "file_id".toList with
      | none => s
      | some param =>
        if !download.agrees then s
        else
          match stoll param with
          | .error _ => s
          | .ok fileId =>
            let task : TaskEntity :=
              { fileId := fileId
                savedPath := download.savedPath
                sourceUrl := download.url
                operation := .download
                state := .waiting
                startTime := download.startTime }
            let (taskService, tasks, task, added) := s.taskService.add s.controller.tasks task
            let s := { s with taskService := taskService, controller := { s.controller with tasks := tasks } }
            if !added then s
            else
              let (s, event) := s.publish ⟨ascii "NewDownloadDialog"⟩ info.endpoint
                (.download ⟨task.fileId, task.taskId⟩)
              s.onRequest serverFd eventFd host text event

/-- `on_send_push_button_clicked` of the connection test. -/
def onSendTest (objectName url message : Bytes) : ClientApp :=
  match UrlResolver.parse (letters url) with
  | .error _ => s
  | .ok info =>
    let (s, event) := s.publish ⟨objectName⟩ info.endpoint (.test ⟨message⟩)
    s.onRequest serverFd eventFd host text event

/-- `on_start_task_action_triggered`, of the task that is selected. -/
def onStartTask (taskId : Int64) : ClientApp :=
  if taskId < 0 then s
  else
    match TaskRepository.getByTaskId s.controller.tasks taskId with
    | none => s
    | some task =>
      match UrlResolver.parse (letters task.sourceUrl) with
      | .error _ => s
      | .ok info =>
        { s with
          scheduleEvents := s.scheduleEvents ++ [.taskEnqueue ⟨ascii "ClientMainWindow"⟩ info.endpoint task] }

/-- `on_download_response`, up to the call of `BlockService::add`. -/
def onDownloadResponse (response : DownloadResponseTransfer) : ClientApp :=
  if response.fileId < 0 then s
  else { s with adding := some { file := ⟨response.fileId, response.fileSize⟩, taskId := response.taskId } }

/-- The slots that take the signals of `TransService`. -/
def dispatch : ClientApp :=
  match s.net.trans.signals[s.dispatched]? with
  | none => s
  | some signal =>
    let s := { s with dispatched := s.dispatched + 1 }
    match s.eventEnvelopes signal.transContext.requestId with
    | none => s
    | some envelope =>
      let s := { s with published := s.published ++ [(envelope, signal)] }
      match signal with
      | .testResponseReceived _ _ => s
      | .downloadResponseReceived _ response => s.onDownloadResponse response
      | .blockResponseReceived _ response =>
        { s with scheduleEvents := s.scheduleEvents ++ [.blockResponse response] }

/-- One turn of the loop of `BlockService::add`, or its end. -/
def addBlock (call : AddCall) (assigned : Option Int64) : ClientApp :=
  if call.offset < call.file.fileSize then
    match subInt64 call.file.fileSize call.offset with
    | none => s
    | some rest =>
      let param : BlockParam := {}
      let block : BlockEntity :=
        { fileId := call.file.fileId
          offset := call.offset
          blockSize := if rest ≥ param.blockBytes then param.blockBytes else rest
          taskId := call.taskId
          state := .waiting }
      match addInt64 call.offset block.blockSize with
      | none => s
      | some offset =>
        let (blocks, succeeded) := BlockRepository.add s.controller.blocks block assigned
        { s with
          controller := { s.controller with blocks := blocks }
          adding := if succeeded then some { call with offset := offset } else none }
  else { s with adding := none, added := s.added ++ [call] }

/-- What the controller emits goes to the hub and to the window. -/
def emit (s : ClientApp) : ScheduleSignal → ClientApp
  | .blockRequest eventSource endpoint transfer =>
    let (s, event) := s.publish eventSource endpoint (.block transfer)
    { s with requestEvents := s.requestEvents ++ [event] }
  | .taskCompleted taskId => { s with completed := s.completed ++ [taskId] }

/-- A slot of the controller runs. -/
def call (scheduleCall : ScheduleCall) : ClientApp :=
  let (controller, signals) := s.controller.step scheduleCall
  signals.foldl emit { s with controller := controller }

/-- The controller's thread takes what waits first. -/
def schedule (outcome : FileOutcome) : ClientApp :=
  match s.scheduleEvents with
  | [] => s
  | event :: events =>
    let s := { s with scheduleEvents := events }
    match event with
    | .taskEnqueue eventSource endpoint taskEntity => s.call (.onTaskEnqueue eventSource endpoint taskEntity)
    | .blockResponse response => s.call (.onBlockResponse outcome response)

end Steps

variable (serverFd eventFd : NetworkEndpoint → ℕ) (host : Endian) (text : SerializeField → Bytes)

/-- A slot of the main thread, unless one is under way. -/
def onMainThread (s next : ClientApp) : ClientApp := if s.adding.isNone then next else s

/-- One step. What is not possible changes nothing, and neither does what throws. A block is never
given an id that is taken. -/
def step (s : ClientApp) : ClientAction → ClientApp
  | .newDownload download => s.onMainThread (s.onAddDownload serverFd eventFd host text download)
  | .sendTest objectName url message =>
    s.onMainThread (s.onSendTest serverFd eventFd host text objectName url message)
  | .startTask taskId => s.onMainThread (s.onStartTask taskId)
  | .onBlockRequest =>
    match s.requestEvents with
    | [] => s
    | event :: events =>
      s.onMainThread ({ s with requestEvents := events }.onRequest serverFd eventFd host text event)
  | .dispatch => s.onMainThread s.dispatch
  | .addBlock assigned =>
    match s.adding with
    | none => s
    | some call =>
      if assigned.any fun blockId => (BlockRepository.getByBlockId s.controller.blocks blockId).isSome then s
      else s.addBlock call assigned
  | .schedule outcome => s.schedule outcome
  | .timer => s.call .onBlockRequest
  | .net (.trans (.send _ _)) => s
  | .net action => { s with net := s.net.step serverFd eventFd host text action }

end ClientApp

end ProjectTrans
