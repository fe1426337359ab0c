import ProjectTrans.Model.Network.PosixEpollEventLoop
import ProjectTrans.Model.Protocol.ServerMessageCodec

/-!
# The server (`server/source/runtime/business_runtime`)

Business threads take requests out of the mailbox and push responses into it, while the
event loop goes on. What the file service and the file system answer is input.
-/

namespace ProjectTrans

open Wire

/-- `ServerFileInfo`. -/
structure ServerFileInfo where
  fileId : Int32
  fileName : Bytes
  resourcePath : Bytes
  fileSize : UInt32
  md5Code : Bytes
  deriving DecidableEq, Repr

/-- The file service, and the contents of the files that can be opened. -/
structure FileService where
  getById : Int32 → Option ServerFileInfo
  openFile : Bytes → Option Bytes

namespace BusinessRuntime

variable (host : Endian) (files : FileService)

/-- `handle_download_request`: the response it pushes. -/
def handleDownloadRequest (downloadRequest : DownloadRequestTransfer) (requestId : Int64) (connectId : UInt64) :
    Checked PosixFrame := do
  match files.getById downloadRequest.fileId.toInt32 with
  | none =>
    let response : DownloadResponseTransfer :=
      { fileId := downloadRequest.fileId, taskId := downloadRequest.taskId, fileName := [], fileSize := 0,
        md5Code := [] }
    let data ← ServerMessageCodec.buildDownloadResponseByteArray host response requestId
    return ⟨connectId, data⟩
  | some fileEntity =>
    let response : DownloadResponseTransfer :=
      { fileId := fileEntity.fileId.toInt64
        taskId := downloadRequest.taskId
        fileName := fileEntity.fileName
        fileSize := fileEntity.fileSize.toUInt64.toInt64
        md5Code := fileEntity.md5Code }
    let data ← ServerMessageCodec.buildDownloadResponseByteArray host response requestId
    return ⟨connectId, data⟩

/-- `handle_test_request`. -/
def handleTestRequest (testRequest : TestRequestTransfer) (requestId : Int64) (connectId : UInt64) :
    Checked PosixFrame := do
  let response : TestResponseTransfer := { message := ascii "Echo: " ++ testRequest.message }
  let data ← ServerMessageCodec.buildTestResponseByteArray host response requestId
  return ⟨connectId, data⟩

/-- A vector of so many zeros, unless it would be longer than a vector can be. -/
def zeros (size : Int64) : Checked Bytes :=
  if size < 0 then .error (.lengthError size.toUInt64.toNat) else .ok (List.replicate size.toInt.toNat 0)

/-- `seekg` and `read` into a vector: what the file does not have stays as it was. -/
def readInto (content : Bytes) (offset : Int64) (data : Bytes) : Bytes :=
  if offset < 0 then data
  else
    let got := (content.drop offset.toInt.toNat).take data.length
    got ++ data.drop got.length

/-- `handle_block_request`. -/
def handleBlockRequest (blockRequest : BlockRequestTransfer) (requestId : Int64) (connectId : UInt64) :
    Checked PosixFrame := do
  let response : BlockResponseTransfer :=
    { blockId := blockRequest.blockId
      fileId := blockRequest.fileId
      taskId := blockRequest.taskId
      offset := blockRequest.offset
      blockSize := 0
      data := [] }
  match files.getById blockRequest.fileId.toInt32 with
  | none =>
    let data ← ServerMessageCodec.buildBlockResponseByteArray host response requestId
    return ⟨connectId, data⟩
  | some fileEntity =>
    let buffer ← zeros blockRequest.blockSize
    match files.openFile fileEntity.resourcePath with
    | none =>
      let data ← ServerMessageCodec.buildBlockResponseByteArray host response requestId
      return ⟨connectId, data⟩
    | some content =>
      let response : BlockResponseTransfer :=
        { response with
          blockSize := blockRequest.blockSize, data := readInto content blockRequest.offset buffer }
      let data ← ServerMessageCodec.buildBlockResponseByteArray host response requestId
      return ⟨connectId, data⟩

/-- `handle_request`: the response it pushes, if any. -/
def handleRequest (text : SerializeField → Bytes) (fresh : EnvelopeRequestTransfer) (frameData : Bytes)
    (connectId : UInt64) : Checked (Option PosixFrame) := do
  match ← (ServerMessageCodec.tryParseByteArrayRequest host text fresh frameData).run with
  | none => return none
  | some requestTransfer =>
    let requestId := requestTransfer.requestId.toInt64
    match ServerMessageCodec.route requestTransfer.path with
    | some .download =>
      match ← (ServerMessageCodec.tryParseByteArrayDownloadRequest host requestTransfer.body).run with
      | none => return none
      | some downloadRequest =>
        return some (← handleDownloadRequest host files downloadRequest requestId connectId)
    | some .test =>
      match ← (ServerMessageCodec.tryParseByteArrayTestRequest host text requestTransfer.body).run with
      | none => return none
      | some testRequest => return some (← handleTestRequest host testRequest requestId connectId)
    | some .block =>
      match ← (ServerMessageCodec.tryParseByteArrayBlockRequest host requestTransfer.body).run with
      | none => return none
      | some blockRequest => return some (← handleBlockRequest host files blockRequest requestId connectId)
    | none => return none

end BusinessRuntime

/-- The event loop and the requests that business threads have taken; and the responses
pushed, each with the socket its request came from. -/
structure Server where
  loop : EventLoop
  serving : List Received := []
  responses : List (ℕ × PosixFrame) := []

/-- The loop, or a peer, or a pusher at the eventfd goes on; a business thread takes a request
or serves one it has taken. -/
inductive ServerAction
  | loop (action : LoopAction)
  | take
  | handleRequest (received : Received) (files : FileService) (fresh : EnvelopeRequestTransfer)

namespace Server

/-- Before the first connection. -/
def init : Server := { loop := .init }

variable (serverFd eventFd : ℕ) (host : Endian) (text : SerializeField → Bytes)

/-- One step. What is not possible changes nothing; neither does what faults. -/
def step (s : Server) : ServerAction → Server
  | .loop .take => s
  | .loop (.push _) => s
  | .loop action => { s with loop := s.loop.step serverFd eventFd host action }
  | .take =>
    match s.loop.mailBox.popFromToServerFrame with
    | none => s
    | some (received, _) =>
      { s with loop := s.loop.step serverFd eventFd host .take, serving := s.serving ++ [received] }
  | .handleRequest received files fresh =>
    if received ∈ s.serving then
      match BusinessRuntime.handleRequest host files text fresh received.frame.data received.frame.connectId with
      | .error _ => s
      | .ok none => { s with serving := s.serving.erase received }
      | .ok (some frame) =>
        { loop := s.loop.step serverFd eventFd host (.push frame)
          serving := s.serving.erase received
          responses := s.responses ++ [(received.origin, frame)] }
    else s

end Server

end ProjectTrans
