import ProjectTrans.Proof.Client.AppRuns

/-!
# Downloads from end to end

A completed block is in the destination file as the server has it, and a file all of whose blocks
are completed is there as a whole (`downloads_intact`). The last byte of some files never is
(`lone_byte_lost`).
-/

namespace ProjectTrans

open Wire

namespace ClientApp

variable {host : Endian} {text : SerializeField → Bytes} {servers : NetworkEndpoint → FileService}
  {serverFd eventFd : NetworkEndpoint → ℕ} {s : ClientApp}

/-! ## What the user gets -/

/-- The tasks that are saved to the path of a task load the same bytes. -/
def SharedAlike (servers : NetworkEndpoint → FileService) (s : ClientApp) (task : TaskEntity) : Prop :=
  ∀ task' ∈ s.controller.tasks, task'.savedPath = task.savedPath →
    task'.download.byteAt servers = task.download.byteAt servers

/-- A completed block is in the destination file. -/
theorem Inv.block (h : s.Inv host text servers []) {task : TaskEntity} (htask : task ∈ s.controller.tasks)
    (hshared : s.SharedAlike servers task) {block : BlockEntity} (hblock : block ∈ s.controller.blocks)
    (hid : block.taskId = task.taskId) (hstate : block.state = .completed) {position : ℤ}
    (hlow : block.offset.toInt ≤ position) (hhigh : position < block.offset.toInt + block.blockSize.toInt) :
    byteWritten s.controller.written task.savedPath position = some (task.download.byteAt servers position) := by
  refine h.controller.bytes hblock hstate (List.mem_map_of_mem htask) hid.symm (fun d' hd' hpath => ?_) hlow hhigh
  obtain ⟨task', htask', rfl⟩ := List.mem_map.1 hd'
  exact hshared task' htask' hpath

/-- A file that was cut is the one its task was offered. -/
theorem Inv.offered (h : s.Inv host text servers []) {call : AddCall} (hcall : call ∈ s.added) {task : TaskEntity}
    (htask : task ∈ s.controller.tasks) (hid : task.taskId = call.taskId) :
    call.file.fileSize = (task.download.offered servers).fileSize := by
  obtain ⟨d, hd, hid', -, hsize⟩ := (h.added call hcall).1.offered
  obtain rfl := h.controller.download_eq hd (List.mem_map_of_mem htask) (hid'.trans hid.symm)
  exact hsize

/-- The block at a position of a file that was cut. -/
theorem Inv.exists_block (h : s.Inv host text servers []) {call : AddCall} (hcall : call ∈ s.added) {position : ℤ}
    (hlow : 0 ≤ position) (hhigh : position < call.file.fileSize.toInt) :
    ∃ block ∈ s.controller.blocks, block.taskId = call.taskId ∧ block.offset.toInt ≤ position ∧
      position < block.offset.toInt + block.blockSize.toInt := by
  obtain ⟨hadds, hdone⟩ := h.added call hcall
  obtain ⟨transfer, htransfer, hid, hstart, hend⟩ := hadds.reaches position hlow (by omega)
  obtain ⟨block, hblock, rfl⟩ := BlockScheduleController.exists_row htransfer
  exact ⟨block, hblock, hid, hstart, hend⟩

/-- A file that is whole is in its destination. -/
theorem Inv.file (h : s.Inv host text servers []) {call : AddCall} (hcall : call ∈ s.added) {task : TaskEntity}
    (htask : task ∈ s.controller.tasks) (hid : task.taskId = call.taskId) (hshared : s.SharedAlike servers task)
    (hcomplete : ∀ block ∈ s.controller.blocks, block.taskId = task.taskId → block.state = .completed)
    {position : ℤ} (hlow : 0 ≤ position) (hhigh : position < call.file.fileSize.toInt) :
    byteWritten s.controller.written task.savedPath position = some (task.download.byteAt servers position) := by
  obtain ⟨block, hblock, hblockId, hstart, hend⟩ := h.exists_block hcall hlow hhigh
  have hown := hblockId.trans hid.symm
  exact h.block htask hshared hblock hown (hcomplete block hblock hown) hstart hend

/-- A block at the last position of a file that is one byte longer than full blocks is that byte. -/
theorem lone_of_covers {transfer : BlockRequestTransfer} {fileSize : ℤ}
    (haligned : transfer.offset.toInt % 134217728 = 0)
    (hsize : transfer.blockSize.toInt = min 134217728 (fileSize - transfer.offset.toInt))
    (hlone : fileSize % 134217728 = 1) (hstart : transfer.offset.toInt ≤ fileSize - 1)
    (hend : fileSize - 1 < transfer.offset.toInt + transfer.blockSize.toInt) :
    transfer.offset.toInt = fileSize - 1 ∧ transfer.blockSize.toInt = 1 := by
  omega

/-- The last byte of such a file does not arrive. -/
theorem Inv.lone (h : s.Inv host text servers []) {call : AddCall} (hcall : call ∈ s.added) {task : TaskEntity}
    (htask : task ∈ s.controller.tasks) (hid : task.taskId = call.taskId)
    (hlone : call.file.fileSize.toInt % 134217728 = 1) (hnonneg : 0 < call.file.fileSize.toInt)
    (halone : ∀ task' ∈ s.controller.tasks, task'.savedPath = task.savedPath → task'.taskId = task.taskId) :
    byteWritten s.controller.written task.savedPath (call.file.fileSize.toInt - 1) = none ∧
      ∃ block ∈ s.controller.blocks, block.taskId = task.taskId ∧ block.offset.toInt =
        call.file.fileSize.toInt - 1 ∧ block.state ≠ .completed := by
  -- blocks of the task at the last position
  have hblocks : ∀ transfer ∈ s.controller.transfers, transfer.taskId = task.taskId →
      transfer.offset.toInt ≤ call.file.fileSize.toInt - 1 →
      call.file.fileSize.toInt - 1 < transfer.offset.toInt + transfer.blockSize.toInt →
      transfer.offset.toInt = call.file.fileSize.toInt - 1 ∧ transfer.blockSize.toInt = 1 := by
    intro transfer htransfer hown hstart hend
    obtain ⟨-, haligned, -, d, hd, hdid, -, hsize⟩ := h.controller.blocks transfer htransfer
    obtain rfl := h.controller.download_eq hd (List.mem_map_of_mem htask) (hdid.trans hown)
    rw [← h.offered hcall htask hid] at hsize
    exact lone_of_covers haligned hsize hlone hstart hend
  constructor
  · refine byteWritten_eq_none fun w hw hcovers => ?_
    obtain ⟨hpath, hstart, hend⟩ := hcovers
    obtain ⟨d, hd, hwpath, -, hbytes⟩ := h.controller.written w hw
    obtain ⟨task', htask', rfl⟩ := List.mem_map.1 hd
    have hown := halone task' htask' (hwpath.symm.trans hpath)
    have hi : (call.file.fileSize.toInt - 1 - w.offset).toNat < w.data.length := by omega
    obtain ⟨-, transfer, htransfer, htransferId, hmore, hlow, hhigh⟩ := hbytes _ hi
    exact hmore (hblocks transfer htransfer (htransferId.trans hown) (by omega) (by omega)).2
  · have hlast : 0 ≤ call.file.fileSize.toInt - 1 ∧
        call.file.fileSize.toInt - 1 < call.file.fileSize.toInt := by omega
    obtain ⟨block, hblock, hblockId, hstart, hend⟩ := h.exists_block hcall hlast.1 hlast.2
    have hown := hblockId.trans hid.symm
    obtain ⟨hoffset, hone⟩ := hblocks _ (List.mem_map_of_mem hblock) hown hstart hend
    exact ⟨block, hblock, hown, hoffset, fun hstate => h.controller.long block hblock hstate hone⟩

/-! ## A download -/

/-- Where a server has `threeByteFile`, and what the user enters. -/
def fileServer : NetworkEndpoint := ⟨ascii "s", 80⟩

def fileDownload : NewDownload :=
  ⟨ascii "http://s/?file_id=1", ascii "f", [("file_id".toList, "1".toList)], true, 0⟩

/-- Its requests, and what `TransService` makes of the responses to them. -/
def fileCall : TransService.SendCall := ⟨⟨0, fileServer⟩, .download ⟨1, 1⟩⟩

def blockCall : TransService.SendCall := ⟨⟨1, fileServer⟩, .block ⟨1, 1, 1, 0, 3⟩⟩

def fileAnswer (files : FileService) : TransService.Answer :=
  TransService.answerOf fileCall
    (ServerMessageCodec.buildDownloadResponseByteArray .little (files.downloadAnswer ⟨1, 1⟩) 0)

def blockAnswer : TransService.Answer :=
  TransService.answerOf blockCall
    (ServerMessageCodec.buildBlockResponseByteArray .little ⟨1, 1, 1, 0, 3, [0x41, 0x42, 0x43]⟩ 1)

/-- A request gets to the server, which answers it. -/
def requestServed (files : FileService) (call : TransService.SendCall) : List ClientAction :=
  .net (.carry fileServer 1000) ::
  ([.loop (.wait [(5, { epollIn := true })]), .loop (.io .go), .loop (.io (.read (.bytes 1024))),
    .loop (.io (.read .again)), .loop (.io .go), .loop (.io .go), .take,
    .handleRequest ⟨0, ⟨0, (call.request.build .little call.context.requestId).toOption.getD []⟩⟩ files
      ⟨0, 0, 0, [], .json, []⟩,
    .loop .signal, .loop (.wait [(4, { epollIn := true })]), .loop (.io .go), .loop (.io (.order [5])),
    .loop (.io (.order [5])), .loop (.io .go), .loop (.io .go), .loop (.io .go),
    .loop (.io (.write [.bytes 1000] [])), .loop (.io .go)] : List ServerAction).map
    fun action => .net (.server fileServer action)

/-- The user adds the download, the connection is made, and the file is cut into blocks. -/
def fileAdded (files : FileService) : List ClientAction :=
  [.newDownload fileDownload, .net (.trans (.register fileCall)), .net (.trans (.emit fileCall)),
    .net (.writeRawData .unusable ⟨0, 0, 0, .none, 0, 0⟩), .net (.connect fileServer)] ++
  ([.loop (.wait [(3, { epollIn := true })]), .loop (.io .go),
    .loop (.io (.accept 5 true ⟨0, 0, 0, .none, 0, 0⟩)), .loop (.io .noConnection)] : List ServerAction).map
    (fun action => .net (.server fileServer action)) ++
  .net (.socketWrite fileServer (.returns 1000)) :: requestServed files fileCall ++
  [.net (.socketRead fileServer 1000), .net (.receive TransService.freshResponse),
    .net (.trans (.answer (fileAnswer files))), .dispatch, .addBlock (some 1), .addBlock none]

/-- The user starts the task; its block is asked for, arrives, and is written. -/
def fileLoaded : List ClientAction :=
  fileAdded threeByteFile ++
  [.startTask 1, .schedule ⟨true, true, true, true, [3], 0, 0⟩, .timer, .onBlockRequest,
    .net (.trans (.register blockCall)), .net (.trans (.emit blockCall)),
    .net (.writeRawData (.returns 1000) ⟨0, 0, 0, .none, 0, 0⟩)] ++ requestServed threeByteFile blockCall ++
  [.net (.socketRead fileServer 1000), .net (.receive TransService.freshResponse),
    .net (.trans (.answer blockAnswer)), .dispatch, .schedule ⟨true, true, true, true, [3], 0, 0⟩]

theorem fileLoaded_proper : Run.Meets (fun s action => s.proper action = true)
    (step (fun _ => 3) (fun _ => 4) .little fun _ => []) init fileLoaded := by
  decide +kernel

theorem fileLoaded_end : let s := fileLoaded.foldl (step (fun _ => 3) (fun _ => 4) .little fun _ => []) init
    s.controller.written = [⟨ascii "f", 0, [0x41, 0x42, 0x43]⟩] ∧ s.added = [⟨⟨1, 3⟩, 1, 3⟩] ∧ s.completed = [1] ∧
      (s.published.map fun p => p.1.eventId) = [0, 1] := by
  decide +kernel

theorem fileLoaded_serves : ∀ action ∈ fileLoaded, action.serves fun _ => threeByteFile := by
  simp [fileLoaded, fileAdded, requestServed, ClientAction.serves, DeploymentAction.serves, ServerAction.serves]

/-! ## Results -/

variable {actions : List ClientAction}

/-- A file of a single byte. -/
def oneByteFile : FileService where
  getById fileId := if fileId = 1 then some ⟨1, ascii "f", ascii "f", 1, []⟩ else none
  openFile path := if path = ascii "f" then some [0x41] else none

theorem oneByteFile_named : oneByteFile.Named := by
  intro fileId fileEntity hfound
  simp only [oneByteFile] at hfound
  split at hfound
  · obtain rfl := Option.some.inj hfound
    exact ⟨by decide, by decide⟩
  · cases hfound

theorem oneByteAdded_proper : Run.Meets (fun s action => s.proper action = true)
    (step (fun _ => 3) (fun _ => 4) .little fun _ => []) init (fileAdded oneByteFile) := by
  decide +kernel

/-- **A lone last byte is lost**: of a file that is one byte longer than full blocks the last byte is
never written, and the row of its block is never completed. -/
theorem lone_byte_lost (hnamed : ∀ endpoint, (servers endpoint).Named)
    (hproper : Run.Meets (fun s action => s.proper action = true) (step serverFd eventFd host text) init actions)
    (hserves : ∀ action ∈ actions, action.serves servers) :
    let s := actions.foldl (step serverFd eventFd host text) init
    ∀ call ∈ s.added, ∀ task ∈ s.controller.tasks, task.taskId = call.taskId →
      (∀ task' ∈ s.controller.tasks, task'.savedPath = task.savedPath → task'.taskId = task.taskId) →
      call.file.fileSize.toInt % 134217728 = 1 → 0 < call.file.fileSize.toInt →
      byteWritten s.controller.written task.savedPath (call.file.fileSize.toInt - 1) = none ∧
        ∃ block ∈ s.controller.blocks, block.taskId = task.taskId ∧
          block.offset.toInt = call.file.fileSize.toInt - 1 ∧ block.state ≠ .completed :=
  fun _ hcall _ htask hid halone hlone hpositive =>
    (inv_run hnamed hproper hserves).lone hcall htask hid hlone hpositive halone

theorem lone_byte_lost_one :
    let s := (fileAdded oneByteFile).foldl (step (fun _ => 3) (fun _ => 4) .little fun _ => []) init
    s.added = [⟨⟨1, 1⟩, 1, 1⟩] ∧ ∀ call ∈ s.added, ∀ task ∈ s.controller.tasks, task.taskId = call.taskId →
      (∀ task' ∈ s.controller.tasks, task'.savedPath = task.savedPath → task'.taskId = task.taskId) →
      call.file.fileSize.toInt % 134217728 = 1 → 0 < call.file.fileSize.toInt →
      byteWritten s.controller.written task.savedPath (call.file.fileSize.toInt - 1) = none ∧
        ∃ block ∈ s.controller.blocks, block.taskId = task.taskId ∧
          block.offset.toInt = call.file.fileSize.toInt - 1 ∧ block.state ≠ .completed := by
  refine ⟨by decide +kernel, ?_⟩
  have hserves : ∀ action ∈ fileAdded oneByteFile, action.serves fun _ => oneByteFile := by
    simp [fileAdded, requestServed, ClientAction.serves, DeploymentAction.serves, ServerAction.serves]
  exact lone_byte_lost (fun _ => oneByteFile_named) oneByteAdded_proper hserves

end ClientApp

end ProjectTrans
