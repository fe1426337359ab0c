import ProjectTrans.Model.Client.ClientApp
import ProjectTrans.Proof.Client.Acceptance
import ProjectTrans.Proof.Server.Exchange

/-!
# What the controller writes

A task is known by what the user entered (`Download`), a block by its request. Where the
controller is only given tasks of the table, requests for blocks of the table and answers to
such requests, every byte it writes is the one that the server of the task has at this
position, and the range of a completed block is written (`Faithful`, and one lemma for each slot).
-/

namespace ProjectTrans

open Wire

/-! ## Downloads -/

/-- What does not change about a task. -/
structure Download where
  taskId : Int64
  fileId : Int64
  savedPath : Bytes
  sourceUrl : Bytes
  deriving DecidableEq, Repr

def TaskEntity.download (task : TaskEntity) : Download :=
  ⟨task.taskId, task.fileId, task.savedPath, task.sourceUrl⟩

namespace Download

/-- The server it comes from. -/
def endpoint (d : Download) : Option NetworkEndpoint :=
  (UrlResolver.parse (letters d.sourceUrl)).toOption.map UrlInfo.endpoint

variable (servers : NetworkEndpoint → FileService) (d : Download)

/-- What the client is told about the file. -/
def offered : DownloadResponseTransfer :=
  match d.endpoint with
  | none => {}
  | some endpoint => arrivingDownload ((servers endpoint).downloadAnswer ⟨d.fileId, d.taskId⟩)

/-- What the server has in the file. -/
def content : Bytes :=
  (d.endpoint.bind fun endpoint => (servers endpoint).content (d.offered servers).fileId).getD []

/-- The byte at a position of the file; behind its end there are zeros. -/
def byteAt (position : ℤ) : UInt8 := (d.content servers).getD position.toNat 0

end Download

/-! ## What a response brings -/

section Fetched

open BusinessRuntime

variable {files : FileService} {transfer : BlockRequestTransfer} {response : BlockResponseTransfer}

/-- What is read into zeros. -/
theorem readInto_getElem? {content : Bytes} {offset : Int64} {size j : ℕ} (hoffset : 0 ≤ offset.toInt)
    (hj : j < size) :
    (readInto content offset (List.replicate size 0))[j]? = some (content.getD (offset.toInt.toNat + j) 0) := by
  have hneg : ¬offset < 0 := by
    rw [Int64.lt_iff_toInt_lt, Int64.toInt_zero]
    omega
  unfold readInto
  rw [if_neg hneg]
  dsimp only
  by_cases hinside : offset.toInt.toNat + j < content.length
  · have hgot : j < ((content.drop offset.toInt.toNat).take (List.replicate size (0 : UInt8)).length).length := by
      rw [List.length_take, List.length_drop, List.length_replicate]
      omega
    rw [List.getElem?_append_left hgot, List.getElem?_take, List.length_replicate, if_pos hj, List.getElem?_drop,
      List.getD_eq_getElem?_getD, List.getElem?_eq_getElem hinside, Option.getD_some]
  · -- the zeros that the file leaves
    have hgot : ((content.drop offset.toInt.toNat).take (List.replicate size (0 : UInt8)).length).length ≤ j := by
      rw [List.length_take, List.length_drop, List.length_replicate]
      omega
    rw [List.getElem?_append_right hgot, List.getElem?_drop, Nat.add_sub_cancel' hgot, List.getElem?_replicate,
      if_pos hj, List.getD_eq_getElem?_getD, List.getElem?_eq_none (by omega), Option.getD_none]

/-- **What is fetched** is the block of a file that the server finds; a single byte comes without its data. -/
theorem fetched_cases (hsize : 0 < transfer.blockSize.toInt) (h : fetched files transfer = some response) :
    ∃ content data, files.content transfer.fileId = some content ∧
      response = ⟨transfer.blockId, transfer.fileId, transfer.taskId, transfer.offset, transfer.blockSize, data⟩ ∧
      (transfer.blockSize.toInt = 1 ∧ data = [] ∨ transfer.blockSize.toInt ≠ 1 ∧
        data = readInto content transfer.offset (List.replicate transfer.blockSize.toInt.toNat 0)) := by
  cases hcontent : files.content transfer.fileId with
  | none =>
    rw [fetched_of_none hcontent] at h
    cases h
  | some content =>
    unfold fetched arrivingBlock at h
    rw [answer_of_content hcontent] at h
    dsimp only at h
    rw [readInto_length, List.length_replicate] at h
    split at h
    · rename_i hone
      exact ⟨content, [], rfl, (Option.some.inj h).symm, .inl ⟨by omega, rfl⟩⟩
    · rename_i hmore
      split at h
      · exact ⟨content, _, rfl, (Option.some.inj h).symm, .inr ⟨by omega, rfl⟩⟩
      · cases h

end Fetched

/-! ## What stands in a file -/

/-- The byte that a write puts at a position. -/
def FileWrite.byteAt (w : FileWrite) (position : ℤ) : Option UInt8 :=
  if w.offset ≤ position then w.data[(position - w.offset).toNat]? else none

/-- The byte that writes have left at a position of a file, if one of them was there. -/
def byteWritten (writes : List FileWrite) (path : Bytes) (position : ℤ) : Option UInt8 :=
  writes.foldl (fun byte w => if w.path = path then (w.byteAt position).or byte else byte) none

/-- A write goes to a position of a file. -/
def FileWrite.Covers (w : FileWrite) (path : Bytes) (position : ℤ) : Prop :=
  w.path = path ∧ w.offset ≤ position ∧ position < w.offset + w.data.length

/-- **Writes that agree** leave their byte. -/
theorem byteWritten_eq {writes : List FileWrite} {path : Bytes} {position : ℤ} {byte : UInt8}
    (hsome : ∃ w ∈ writes, w.Covers path position)
    (hall : ∀ w ∈ writes, w.Covers path position → w.byteAt position = some byte) :
    byteWritten writes path position = some byte := by
  induction writes using List.reverseRecOn with
  | nil =>
    obtain ⟨w, hw, -⟩ := hsome
    cases hw
  | append_singleton writes last ih =>
    -- the last write decides, where it covers the position
    have hstep : byteWritten (writes ++ [last]) path position = if last.path = path then
        (last.byteAt position).or (byteWritten writes path position) else byteWritten writes path position := by
      unfold byteWritten
      rw [List.foldl_append]
      rfl
    rw [hstep]
    by_cases hlast : last.Covers path position
    · rw [if_pos hlast.1, hall last (by simp) hlast, Option.some_or]
    · -- the last write is elsewhere
      have hrest : byteWritten writes path position = some byte := by
        refine ih ?_ fun w hw => hall w (List.mem_append_left _ hw)
        obtain ⟨w, hw, hcovers⟩ := hsome
        rcases List.mem_append.1 hw with hold | hnew
        · exact ⟨w, hold, hcovers⟩
        · obtain rfl := List.mem_singleton.1 hnew
          exact absurd hcovers hlast
      rw [hrest]
      by_cases hpath : last.path = path
      · have hnone : last.byteAt position = none := by
          unfold FileWrite.byteAt
          by_cases hlow : last.offset ≤ position
          · rw [if_pos hlow, List.getElem?_eq_none_iff]
            by_contra hshort
            exact hlast ⟨hpath, hlow, by omega⟩
          · rw [if_neg hlow]
        rw [if_pos hpath, hnone, Option.none_or]
      · rw [if_neg hpath]

/-- Nothing stands where no write went. -/
theorem byteWritten_eq_none {writes : List FileWrite} {path : Bytes} {position : ℤ}
    (hnone : ∀ w ∈ writes, ¬w.Covers path position) : byteWritten writes path position = none := by
  induction writes using List.reverseRecOn with
  | nil => rfl
  | append_singleton writes last ih =>
    unfold byteWritten at ih ⊢
    rw [List.foldl_append, ih fun w hw => hnone w (List.mem_append_left _ hw)]
    have hlast := hnone last (by simp)
    simp only [List.foldl_cons, List.foldl_nil, Option.or_none]
    split
    · rename_i hpath
      unfold FileWrite.byteAt
      split
      · rename_i hlow
        rw [List.getElem?_eq_none_iff]
        by_contra hshort
        exact hlast ⟨hpath, hlow, by omega⟩
      · rfl
    · rfl

/-! ## The tables -/

namespace BlockRepository

/-- An update that changes nothing of the request for a block changes no request. -/
theorem update_transfers {rows : List BlockEntity} {block block' : BlockEntity}
    (hids : (rows.map (·.blockId)).Nodup)
    (hmem : block ∈ rows) (hsame : BlockRequestTransfer.ofBlock block' = .ofBlock block) :
    (update rows block').map BlockRequestTransfer.ofBlock = rows.map .ofBlock := by
  rw [update, List.map_map]
  refine List.map_congr_left fun row hrow => ?_
  simp only [Function.comp_apply]
  split
  · rename_i hid
    have hid' : row.blockId = block.blockId := hid.trans (congrArg BlockRequestTransfer.blockId hsame)
    rw [hsame, List.inj_on_of_nodup_map hids hrow hmem hid']
  · rfl

end BlockRepository

namespace TaskRepository

/-- An update that changes nothing of what the user entered changes no download. -/
theorem update_downloads {rows : List TaskEntity} {task task' : TaskEntity} (hids : (rows.map (·.taskId)).Nodup)
    (hmem : task ∈ rows) (hsame : task'.download = task.download) :
    (update rows task').map TaskEntity.download = rows.map TaskEntity.download := by
  rw [update, List.map_map]
  refine List.map_congr_left fun row hrow => ?_
  simp only [Function.comp_apply]
  split
  · rename_i hid
    have hid' : row.taskId = task.taskId := hid.trans (congrArg Download.taskId hsame)
    rw [hsame, List.inj_on_of_nodup_map hids hrow hmem hid']
  · rfl

theorem getByTaskId_some {rows : List TaskEntity} {task : TaskEntity} {taskId : Int64}
    (h : getByTaskId rows taskId = some task) : task ∈ rows ∧ task.taskId = taskId :=
  ⟨List.mem_of_find?_eq_some h, by simpa using List.find?_some h⟩

end TaskRepository

namespace BlockScheduleController

/-- The downloads and the block requests of the tables. -/
def downloads (c : BlockScheduleController) : List Download := c.tasks.map TaskEntity.download

def transfers (c : BlockScheduleController) : List BlockRequestTransfer := c.blocks.map .ofBlock

variable (servers : NetworkEndpoint → FileService) (c : BlockScheduleController)

/-- A block is one of those into which the file is cut that a task of the table is offered. -/
structure InOffer (downloads : List Download) (transfer : BlockRequestTransfer) : Prop where
  offset : 0 ≤ transfer.offset.toInt
  aligned : transfer.offset.toInt % 134217728 = 0
  positive : 0 < transfer.blockSize.toInt
  task : ∃ d ∈ downloads, d.taskId = transfer.taskId ∧ transfer.fileId = (d.offered servers).fileId ∧
    transfer.blockSize.toInt = min 134217728 ((d.offered servers).fileSize.toInt - transfer.offset.toInt)

/-- The request for a block of the table is made at the server of its task. -/
structure Wanted (endpoint : NetworkEndpoint) (transfer : BlockRequestTransfer) : Prop where
  row : transfer ∈ c.transfers
  task : ∃ d ∈ c.downloads, d.taskId = transfer.taskId ∧ d.endpoint = some endpoint

/-- A response is what the server of the task has for a block of the table. -/
def Answered (response : BlockResponseTransfer) : Prop :=
  ∃ endpoint transfer, c.Wanted endpoint transfer ∧ fetched (servers endpoint) transfer = some response

/-- A position of a task's file is in a block of more than one byte. -/
def InBlock (taskId : Int64) (position : ℤ) : Prop :=
  ∃ transfer ∈ c.transfers, transfer.taskId = taskId ∧ transfer.blockSize.toInt ≠ 1 ∧
    transfer.offset.toInt ≤ position ∧ position < transfer.offset.toInt + transfer.blockSize.toInt

/-- A write puts bytes where the server of a task that is saved there has them. -/
def Faithfully (w : FileWrite) : Prop :=
  ∃ d ∈ c.downloads, w.path = d.savedPath ∧ 0 ≤ w.offset ∧
    ∀ i (hi : i < w.data.length), w.data[i] = d.byteAt servers (w.offset + i) ∧ c.InBlock d.taskId (w.offset + i)

/-- The range of a block is written to the file of its task. -/
def RangeWritten (block : BlockEntity) : Prop :=
  ∃ d ∈ c.downloads, d.taskId = block.taskId ∧ ∀ position, block.offset.toInt ≤ position →
    position < block.offset.toInt + block.blockSize.toInt → ∃ w ∈ c.written, w.Covers d.savedPath position

/-- What the slots keep. -/
structure Faithful : Prop where
  taskIds : (c.downloads.map Download.taskId).Nodup
  blockIds : (c.transfers.map (·.blockId)).Nodup
  blocks : ∀ transfer ∈ c.transfers, InOffer servers c.downloads transfer
  pending : ∀ taskId task, c.pending taskId = some task → task.taskEntity.taskId = taskId ∧
    task.destPath = task.taskEntity.savedPath ∧ task.taskEntity.download ∈ c.downloads ∧
    task.taskEntity.download.endpoint = some task.endpoint
  queue : ∀ transfer ∈ c.queue, transfer ∈ c.transfers
  written : ∀ w ∈ c.written, c.Faithfully servers w
  completed : ∀ block ∈ c.blocks, block.state = .completed → c.RangeWritten block
  long : ∀ block ∈ c.blocks, block.state = .completed → block.blockSize.toInt ≠ 1

variable {servers c} {c' : BlockScheduleController}

theorem InOffer.mono {downloads downloads' : List Download} {transfer : BlockRequestTransfer}
    (h : InOffer servers downloads transfer) (hdownloads : downloads ⊆ downloads') :
    InOffer servers downloads' transfer := by
  obtain ⟨d, hd, hrest⟩ := h.task
  exact ⟨h.offset, h.aligned, h.positive, d, hdownloads hd, hrest⟩

theorem InOffer.small {downloads : List Download} {transfer : BlockRequestTransfer}
    (h : InOffer servers downloads transfer) : transfer.blockSize.toInt ≤ 134217728 := by
  obtain ⟨d, -, -, -, hsize⟩ := h.task
  omega

theorem Wanted.mono {endpoint : NetworkEndpoint} {transfer : BlockRequestTransfer}
    (h : c.Wanted endpoint transfer)
    (hdownloads : c.downloads ⊆ c'.downloads) (htransfers : c.transfers ⊆ c'.transfers) :
    c'.Wanted endpoint transfer := by
  obtain ⟨d, hd, hrest⟩ := h.task
  exact ⟨htransfers h.row, d, hdownloads hd, hrest⟩

theorem Answered.mono {response : BlockResponseTransfer} (h : c.Answered servers response)
    (hdownloads : c.downloads ⊆ c'.downloads) (htransfers : c.transfers ⊆ c'.transfers) :
    c'.Answered servers response := by
  obtain ⟨endpoint, transfer, hwanted, hfetched⟩ := h
  exact ⟨endpoint, transfer, hwanted.mono hdownloads htransfers, hfetched⟩

theorem Faithfully.mono {w : FileWrite} (h : c.Faithfully servers w) (hdownloads : c.downloads ⊆ c'.downloads)
    (htransfers : c.transfers ⊆ c'.transfers) : c'.Faithfully servers w := by
  obtain ⟨d, hd, hpath, hoffset, hbytes⟩ := h
  refine ⟨d, hdownloads hd, hpath, hoffset, fun i hi => ?_⟩
  obtain ⟨hbyte, transfer, htransfer, hrest⟩ := hbytes i hi
  exact ⟨hbyte, transfer, htransfers htransfer, hrest⟩

theorem RangeWritten.mono {block : BlockEntity} (h : c.RangeWritten block)
    (hdownloads : c.downloads ⊆ c'.downloads) (hwritten : c.written ⊆ c'.written) : c'.RangeWritten block := by
  obtain ⟨d, hd, htask, hcovers⟩ := h
  refine ⟨d, hdownloads hd, htask, fun position hlow hhigh => ?_⟩
  obtain ⟨w, hw, hcovered⟩ := hcovers position hlow hhigh
  exact ⟨w, hwritten hw, hcovered⟩

theorem Faithful.keyedBlocks (h : c.Faithful servers) : c.KeyedBlocks := by
  have hids := h.blockIds
  rw [transfers, List.map_map] at hids
  exact hids

theorem Faithful.keyedTasks (h : c.Faithful servers) : (c.tasks.map (·.taskId)).Nodup := by
  have hids := h.taskIds
  rw [downloads, List.map_map] at hids
  exact hids

/-- The row of a transfer. -/
theorem exists_row {transfer : BlockRequestTransfer} (h : transfer ∈ c.transfers) :
    ∃ block ∈ c.blocks, .ofBlock block = transfer := List.mem_map.1 h

/-- Tables that grow, beside the same schedule, stay faithful. -/
theorem Faithful.grow (h : c.Faithful servers) (hqueue : c'.queue = c.queue) (hpending : c'.pending = c.pending)
    (hwritten : c'.written = c.written) (hdownloads : c.downloads ⊆ c'.downloads)
    (htaskIds : (c'.downloads.map Download.taskId).Nodup) (htransfers : c.transfers ⊆ c'.transfers)
    (hblockIds : (c'.transfers.map (·.blockId)).Nodup)
    (hnew : ∀ transfer ∈ c'.transfers, transfer ∈ c.transfers ∨ InOffer servers c'.downloads transfer)
    (hcompleted : ∀ block ∈ c'.blocks, block.state = .completed → block ∈ c.blocks) : c'.Faithful servers where
  taskIds := htaskIds
  blockIds := hblockIds
  blocks := by
    intro transfer htransfer
    -- an old block is in its offer, and a new one is by assumption
    rcases hnew transfer htransfer with hold | hin
    · exact (h.blocks transfer hold).mono hdownloads
    · exact hin
  pending := by
    intro taskId task htask
    rw [hpending] at htask
    obtain ⟨hid, hpath, hmem, hendpoint⟩ := h.pending taskId task htask
    exact ⟨hid, hpath, hdownloads hmem, hendpoint⟩
  queue := by
    intro transfer htransfer
    rw [hqueue] at htransfer
    exact htransfers (h.queue transfer htransfer)
  written := by
    intro w hw
    rw [hwritten] at hw
    exact (h.written w hw).mono hdownloads htransfers
  completed := by
    intro block hblock hstate
    exact (h.completed block (hcompleted block hblock hstate) hstate).mono hdownloads
      (hwritten ▸ List.Subset.refl _)
  long := fun block hblock hstate => h.long block (hcompleted block hblock hstate) hstate

/-! ## Slots -/

theorem Faithful.onTaskEnqueue (h : c.Faithful servers) (eventSource : EventContext) {endpoint : NetworkEndpoint}
    {task : TaskEntity} (htask : task.download ∈ c.downloads)
    (hendpoint : task.download.endpoint = some endpoint) :
    (c.onTaskEnqueue eventSource endpoint task).Faithful servers where
  taskIds := h.taskIds
  blockIds := h.blockIds
  blocks := h.blocks
  pending := by
    intro taskId pending hpending
    rcases update_eq_some hpending with ⟨rfl, hnew⟩ | ⟨-, hold⟩
    · obtain rfl := Option.some.inj hnew
      exact ⟨rfl, rfl, htask, hendpoint⟩
    · exact h.pending taskId pending hold
  queue := by
    intro transfer htransfer
    rcases List.mem_append.1 htransfer with hold | hnew
    · exact h.queue transfer hold
    · obtain ⟨block, hblock, rfl⟩ := List.mem_map.1 hnew
      exact List.mem_map_of_mem (BlockRepository.mem_getByTaskId.1 hblock).1
  written := fun w hw => (h.written w hw).mono (List.Subset.refl _) (List.Subset.refl _)
  completed := fun block hblock hstate =>
    (h.completed block hblock hstate).mono (List.Subset.refl _) (List.Subset.refl _)
  long := h.long

/-- What a tick leaves. -/
theorem onBlockRequest_rest (c : BlockScheduleController) :
    c.onBlockRequest.1.blocks = c.blocks ∧ c.onBlockRequest.1.tasks = c.tasks ∧
      c.onBlockRequest.1.written = c.written ∧ ∀ transfer ∈ c.onBlockRequest.1.queue, transfer ∈ c.queue := by
  unfold onBlockRequest
  split
  · exact ⟨rfl, rfl, rfl, fun _ h => h⟩
  · rename_i transfer queue hqueue
    rw [hqueue]
    split
    · exact ⟨rfl, rfl, rfl, fun _ h => List.mem_cons_of_mem _ h⟩
    · split
      · refine ⟨rfl, rfl, rfl, fun t h => ?_⟩
        rcases List.mem_append.1 h with hold | hnew
        · exact List.mem_cons_of_mem _ hold
        · exact List.mem_singleton.1 hnew ▸ List.mem_cons_self
      · exact ⟨rfl, rfl, rfl, fun _ h => List.mem_cons_of_mem _ h⟩

theorem Faithful.onBlockRequest (h : c.Faithful servers) : c.onBlockRequest.1.Faithful servers := by
  obtain ⟨hblocks, htasks, hwritten, hqueue⟩ := c.onBlockRequest_rest
  have hdownloads : c.onBlockRequest.1.downloads = c.downloads := by rw [downloads, htasks, downloads]
  have htransfers : c.onBlockRequest.1.transfers = c.transfers := by rw [transfers, hblocks, transfers]
  refine ⟨hdownloads ▸ h.taskIds, htransfers ▸ h.blockIds, ?_, ?_, ?_, ?_, ?_, ?_⟩
  · rw [htransfers, hdownloads]
    exact h.blocks
  · rw [onBlockRequest_pending, hdownloads]
    exact h.pending
  · rw [htransfers]
    exact fun transfer htransfer => h.queue transfer (hqueue transfer htransfer)
  · rw [hwritten]
    exact fun w hw => (h.written w hw).mono (hdownloads ▸ List.Subset.refl _) (htransfers ▸ List.Subset.refl _)
  · rw [hblocks]
    exact fun block hblock hstate => (h.completed block hblock hstate).mono (hdownloads ▸ List.Subset.refl _)
      (hwritten ▸ List.Subset.refl _)
  · rw [hblocks]
    exact h.long

/-- **What a tick requests** is a block of the table, at the server of its task. -/
theorem Faithful.requested (h : c.Faithful servers) {signal : ScheduleSignal}
    (hsignal : signal ∈ c.onBlockRequest.2) :
    ∃ eventSource endpoint transfer, signal = .blockRequest eventSource endpoint transfer ∧
      c.Wanted endpoint transfer := by
  unfold BlockScheduleController.onBlockRequest at hsignal
  split at hsignal
  · exact absurd hsignal List.not_mem_nil
  · rename_i transfer queue hqueue
    split at hsignal
    · exact absurd hsignal List.not_mem_nil
    · rename_i task htask
      split at hsignal
      · exact absurd hsignal List.not_mem_nil
      · obtain ⟨hid, -, hmem, hendpoint⟩ := h.pending _ task htask
        rw [List.mem_singleton] at hsignal
        refine ⟨task.eventSource, task.endpoint, transfer, hsignal,
          h.queue transfer (hqueue ▸ List.mem_cons_self), ?_⟩
        exact ⟨_, hmem, hid, hendpoint⟩

/-! ## Responses -/

/-- What the loop writes are pieces of the data, at their places. -/
theorem writeLoop_writes {path : Bytes} {response : BlockResponseTransfer} {rest hasWrite : ℤ}
    {results : List Int64}
    (hwrite : 0 ≤ hasWrite) {w : FileWrite} (hw : w ∈ (writeLoop path response rest hasWrite results).1) :
    w.path = path ∧ ∃ k : ℕ, w.offset = response.offset.toInt + k ∧ w.data <+: response.data.drop k := by
  induction results generalizing rest hasWrite with
  | nil =>
    rw [writeLoop] at hw
    split at hw <;> exact absurd hw List.not_mem_nil
  | cons n results ih =>
    rw [writeLoop] at hw
    split at hw
    · exact absurd hw List.not_mem_nil
    · split at hw
      · exact absurd hw List.not_mem_nil
      · rename_i hn
        rw [Int64.lt_iff_toInt_lt, Int64.toInt_zero] at hn
        rcases List.mem_cons.1 hw with rfl | hrest
        · refine ⟨rfl, hasWrite.toNat, ?_, List.take_prefix _ _⟩
          dsimp only
          omega
        · exact ih (by omega) hrest

theorem responseData_writes {outcome : FileOutcome} {task : TaskPending} {response : BlockResponseTransfer}
    {w : FileWrite} (hw : w ∈ (responseData outcome task response).1) :
    w.path = task.destPath ∧ ∃ k : ℕ, w.offset = response.offset.toInt + k ∧ w.data <+: response.data.drop k := by
  unfold responseData at hw
  split at hw
  · unfold writeData at hw
    split at hw
    · exact absurd hw List.not_mem_nil
    · split at hw
      · exact absurd hw List.not_mem_nil
      · rw [responseFile_path] at hw
        exact writeLoop_writes le_rfl hw
  · exact absurd hw List.not_mem_nil

/-- Downloads are known by their ids. -/
theorem Faithful.download_eq (h : c.Faithful servers) {d d' : Download} (hd : d ∈ c.downloads)
    (hd' : d' ∈ c.downloads)
    (hid : d.taskId = d'.taskId) : d = d' := List.inj_on_of_nodup_map h.taskIds hd hd' hid

/-- The bytes of an answer are those of the file. -/
theorem Answered.byte (h : c.Faithful servers) {response : BlockResponseTransfer}
    (hanswered : c.Answered servers response)
    {d : Download} (hd : d ∈ c.downloads) (hid : d.taskId = response.taskId) :
    0 ≤ response.offset.toInt ∧ ∀ j (hj : j < response.data.length),
      response.data[j] = d.byteAt servers (response.offset.toInt + j) ∧
        c.InBlock d.taskId (response.offset.toInt + j) := by
  obtain ⟨endpoint, transfer, ⟨hrow, d', hd', hid', hendpoint⟩, hfetched⟩ := hanswered
  obtain ⟨hoffset, -, hpositive, d'', hd'', hid'', hfile, -⟩ := h.blocks transfer hrow
  obtain ⟨content, data, hcontent, rfl, hdata⟩ := fetched_cases hpositive hfetched
  obtain rfl := h.download_eq hd hd' (hid.trans hid'.symm)
  obtain rfl := h.download_eq hd hd'' (hid.trans hid''.symm)
  refine ⟨hoffset, fun j hj => ?_⟩
  rcases hdata with ⟨-, rfl⟩ | ⟨hmore, rfl⟩
  · exact absurd hj (Nat.not_lt_zero j)
  · -- the file of the task is the one that was read
    have hbytes : d.content servers = content := by
      unfold Download.content
      rw [hendpoint, Option.bind_some, ← hfile, hcontent, Option.getD_some]
    dsimp only at hj hoffset ⊢
    rw [BusinessRuntime.readInto_length, List.length_replicate] at hj
    have hread : (BusinessRuntime.readInto content _ (List.replicate _ 0))[j]? = some _ :=
      readInto_getElem? hoffset hj
    obtain ⟨_, hread⟩ := List.getElem?_eq_some_iff.1 hread
    refine ⟨?_, transfer, hrow, hid.symm, hmore, by omega, by omega⟩
    rw [hread, Download.byteAt, hbytes]
    congr 1
    omega

/-- **What a response writes** is in the file of its task. -/
theorem Faithful.responseData (h : c.Faithful servers) {response : BlockResponseTransfer}
    (hanswered : c.Answered servers response) {task : TaskPending} (htask : c.pending response.taskId = some task)
    (outcome : FileOutcome) : ∀ w ∈ (responseData outcome task response).1, c.Faithfully servers w := by
  intro w hw
  obtain ⟨hid, hpath, hmem, -⟩ := h.pending _ task htask
  obtain ⟨hwpath, k, hoffset, hprefix⟩ := responseData_writes hw
  obtain ⟨hlow, hbytes⟩ := hanswered.byte h hmem hid
  refine ⟨_, hmem, hwpath.trans hpath, by omega, fun i hi => ?_⟩
  have hlength := hprefix.length_le
  rw [List.length_drop] at hlength
  have hposition : w.offset + i = response.offset.toInt + (k + i : ℕ) := by
    push_cast
    omega
  rw [List.IsPrefix.getElem hprefix hi, List.getElem_drop, hposition]
  exact hbytes (k + i) (by omega)

/-- The row that a response names has its range. -/
theorem Faithful.row (h : c.Faithful servers) {response : BlockResponseTransfer}
    (hanswered : c.Answered servers response)
    {block : BlockEntity} (hblock : BlockRepository.getByBlockId c.blocks response.blockId = some block) :
    block.taskId = response.taskId ∧ block.offset = response.offset ∧ block.blockSize = response.blockSize := by
  obtain ⟨endpoint, transfer, ⟨hrow, -⟩, hfetched⟩ := hanswered
  obtain ⟨content, data, -, rfl, -⟩ := fetched_cases (h.blocks transfer hrow).positive hfetched
  obtain ⟨hmem, hid⟩ := BlockRepository.getByBlockId_some hblock
  obtain ⟨block', hblock', rfl⟩ := exists_row hrow
  obtain rfl := List.inj_on_of_nodup_map h.keyedBlocks hmem hblock' hid
  exact ⟨rfl, rfl, rfl⟩

/-- A single byte comes without its data. -/
theorem Faithful.lone (h : c.Faithful servers) {response : BlockResponseTransfer}
    (hanswered : c.Answered servers response)
    (hlone : response.blockSize.toInt = 1) {outcome : FileOutcome} {task : TaskPending} :
    ¬outcome.Accepts task response := by
  obtain ⟨endpoint, transfer, ⟨hrow, -⟩, hfetched⟩ := hanswered
  intro haccepts
  have henough := haccepts.enough
  have hone : response.blockSize.toUInt64.toNat = 1 := by
    rw [Int64.toInt_inj.1 (hlone.trans (by rfl : 1 = (1 : Int64).toInt))]
    rfl
  have hshort : response.data.length = 0 := by
    obtain ⟨content, data, hcontent, rfl, -⟩ := fetched_cases (h.blocks transfer hrow).positive hfetched
    rw [fetched_single hcontent hlone] at hfetched
    rw [← Option.some.inj hfetched]
    rfl
  omega

/-- The rows that the requests were made of are still there after a response. -/
theorem afterWrite_transfers (h : c.Faithful servers) {outcome : FileOutcome} {task : TaskPending}
    {response : BlockResponseTransfer} {block block' : BlockEntity}
    (hblock : BlockRepository.getByBlockId c.blocks response.blockId = some block)
    (hsame : BlockRequestTransfer.ofBlock block' = .ofBlock block) :
    ({ c.afterWrite outcome task response with blocks := BlockRepository.update c.blocks block' }
      : BlockScheduleController).transfers = c.transfers :=
  BlockRepository.update_transfers h.keyedBlocks (BlockRepository.getByBlockId_some hblock).1 hsame

/-- A response whose data is written, before the task is looked at. -/
theorem Faithful.afterWrite (h : c.Faithful servers) {response : BlockResponseTransfer}
    (hanswered : c.Answered servers response) (outcome : FileOutcome) {task : TaskPending}
    (htask : c.pending response.taskId = some task) {block block' : BlockEntity}
    (hblock : BlockRepository.getByBlockId c.blocks response.blockId = some block)
    (hsame : BlockRequestTransfer.ofBlock block' = .ofBlock block)
    (hcompleted : block'.state = .completed →
      (BlockScheduleController.responseData outcome task response).2 = true) :
    ({ c.afterWrite outcome task response with blocks := BlockRepository.update c.blocks block' }
      : BlockScheduleController).Faithful servers := by
  set after : BlockScheduleController :=
    { c.afterWrite outcome task response with blocks := BlockRepository.update c.blocks block' } with hafter
  have htransfers : after.transfers = c.transfers := afterWrite_transfers h hblock hsame
  have hdownloads : after.downloads = c.downloads := rfl
  have hwritten :
      after.written = c.written ++ (BlockScheduleController.responseData outcome task response).1 := rfl
  obtain ⟨hid, hpath, hmem, hendpoint⟩ := h.pending _ task htask
  refine ⟨h.taskIds, htransfers ▸ h.blockIds, htransfers ▸ h.blocks, ?_, htransfers ▸ h.queue, ?_, ?_, ?_⟩
  · intro taskId pending hpending
    rcases update_eq_some hpending with ⟨rfl, hnew⟩ | ⟨-, hold⟩
    · obtain rfl := Option.some.inj hnew
      exact ⟨hid, (responseFile_path outcome task).trans hpath, hmem, hendpoint⟩
    · exact h.pending taskId pending hold
  · intro w hw
    rw [hwritten] at hw
    -- what was written before is faithful, and so is the data of the response
    have hfaithfully : c.Faithfully servers w := by
      rcases List.mem_append.1 hw with hold | hnew
      · exact h.written w hold
      · exact h.responseData hanswered htask outcome w hnew
    exact hfaithfully.mono (List.Subset.refl _) (htransfers ▸ List.Subset.refl _)
  · intro row hrow hstate
    rcases BlockRepository.mem_update hrow with rfl | ⟨hold, -⟩
    · -- the row of the response is covered by what was just written
      obtain ⟨htaskId, hoffset, hsize⟩ := h.row hanswered hblock
      have haccepts := responseData_done_iff.1 (hcompleted hstate)
      have hrowTask : row.taskId = block.taskId := congrArg BlockRequestTransfer.taskId hsame
      have hrowOffset : row.offset = block.offset := congrArg BlockRequestTransfer.offset hsame
      have hrowSize : row.blockSize = block.blockSize := congrArg BlockRequestTransfer.blockSize hsame
      refine ⟨_, hmem, hid.trans (htaskId.symm.trans hrowTask.symm), fun position hlow hhigh => ?_⟩
      rw [hrowOffset, hoffset] at hlow hhigh
      rw [hrowSize, hsize] at hhigh
      obtain ⟨w, hw, hwpath, i, -, hi, -, hlength, -⟩ := responseData_covers haccepts hlow hhigh
      refine ⟨w, hwritten ▸ List.mem_append_right _ hw, hwpath.trans hpath, ?_, ?_⟩
      · omega
      · omega
    · exact (h.completed row hold hstate).mono (List.Subset.refl _) (hwritten ▸ List.subset_append_left _ _)
  · intro row hrow hstate
    rcases BlockRepository.mem_update hrow with rfl | ⟨hold, -⟩
    · intro hlone
      -- a block of one byte is never accepted, so its row is not completed here
      obtain ⟨-, -, hsize⟩ := h.row hanswered hblock
      have hrowSize : row.blockSize = block.blockSize := congrArg BlockRequestTransfer.blockSize hsame
      rw [hrowSize, hsize] at hlone
      exact h.lone hanswered hlone (responseData_done_iff.1 (hcompleted hstate))
    · exact h.long row hold hstate

/-- Marking a task as completed changes no download. -/
theorem completeTask_downloads (hids : (c.tasks.map (·.taskId)).Nodup) (outcome : FileOutcome) (taskId : Int64) :
    (c.completeTask outcome taskId).1.downloads = c.downloads := by
  unfold completeTask
  split
  · dsimp only [downloads]
    split
    · rename_i task htask
      exact TaskRepository.update_downloads hids (TaskRepository.getByTaskId_some htask).1 rfl
    · rfl
  · rfl

theorem Faithful.completeTask (h : c.Faithful servers) (outcome : FileOutcome) (taskId : Int64) :
    (c.completeTask outcome taskId).1.Faithful servers := by
  have hdownloads := completeTask_downloads h.keyedTasks outcome taskId
  have htransfers : (c.completeTask outcome taskId).1.transfers = c.transfers := by
    rw [transfers, completeTask_blocks, transfers]
  refine h.grow (completeTask_queue outcome taskId) (completeTask_pending outcome taskId)
    (completeTask_written outcome taskId) ?_ ?_ ?_ ?_ (fun transfer htransfer => .inl ?_) fun block hblock _ => ?_
  · exact hdownloads ▸ List.Subset.refl _
  · exact hdownloads ▸ h.taskIds
  · exact htransfers ▸ List.Subset.refl _
  · exact htransfers ▸ h.blockIds
  · exact htransfers ▸ htransfer
  · rwa [completeTask_blocks] at hblock

/-- **A response** keeps what is written faithful. -/
theorem Faithful.onBlockResponse (h : c.Faithful servers) {response : BlockResponseTransfer}
    (hanswered : c.Answered servers response) (outcome : FileOutcome) :
    (c.onBlockResponse outcome response).1.Faithful servers ∧
      (c.onBlockResponse outcome response).1.downloads = c.downloads ∧
      (c.onBlockResponse outcome response).1.transfers = c.transfers := by
  obtain hr | ⟨task, block, htask, hblock, hr | ⟨⟨task', block', htask', hblock', hdone⟩, hr⟩⟩ :=
    c.onBlockResponse_cases outcome response
  · rw [hr]
    exact ⟨h, rfl, rfl⟩
  · rw [hr]
    exact ⟨h.afterWrite hanswered outcome htask hblock rfl fun hstate => (by cases hstate), rfl,
      afterWrite_transfers h hblock rfl⟩
  · obtain rfl := Option.some.inj (htask.symm.trans htask')
    have hsame : BlockRequestTransfer.ofBlock { block with state := .completed, endTime := outcome.blockEnd } =
        .ofBlock block := rfl
    have hafter := h.afterWrite hanswered outcome htask hblock hsame fun _ => hdone
    rw [hr]
    refine ⟨hafter.completeTask outcome _, completeTask_downloads hafter.keyedTasks outcome _, ?_⟩
    rw [transfers, completeTask_blocks]
    exact afterWrite_transfers h hblock rfl

/-- **Completed blocks are in the file**: where the tasks that are saved to one path load the same bytes, the
range of a completed block holds them. -/
theorem Faithful.bytes (h : c.Faithful servers) {block : BlockEntity} (hblock : block ∈ c.blocks)
    (hstate : block.state = .completed) {d : Download} (hd : d ∈ c.downloads) (hid : d.taskId = block.taskId)
    (hshared : ∀ d' ∈ c.downloads, d'.savedPath = d.savedPath → d'.byteAt servers = d.byteAt servers)
    {position : ℤ}
    (hlow : block.offset.toInt ≤ position) (hhigh : position < block.offset.toInt + block.blockSize.toInt) :
    byteWritten c.written d.savedPath position = some (d.byteAt servers position) := by
  obtain ⟨d', hd', hid', hcovers⟩ := h.completed block hblock hstate
  obtain rfl := h.download_eq hd hd' (hid.trans hid'.symm)
  refine byteWritten_eq (hcovers position hlow hhigh) fun w hw hcovered => ?_
  obtain ⟨hpath, hstart, hend⟩ := hcovered
  obtain ⟨d', hd', hwpath, -, hbytes⟩ := h.written w hw
  have hi : (position - w.offset).toNat < w.data.length := by omega
  obtain ⟨hbyte, -⟩ := hbytes _ hi
  have hposition : w.offset + ((position - w.offset).toNat : ℤ) = position := by omega
  rw [hshared d' hd' (hwpath.symm.trans hpath), hposition] at hbyte
  rw [FileWrite.byteAt, if_pos hstart, List.getElem?_eq_getElem hi, hbyte]

end BlockScheduleController

end ProjectTrans
