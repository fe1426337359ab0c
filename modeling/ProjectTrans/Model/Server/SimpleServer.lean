import Mathlib.Data.List.Sort
import Mathlib.Data.UInt
import ProjectTrans.Model.Codec.FrameAssembler
import ProjectTrans.Model.Protocol.ServerMessageCodec

/-!
# The simple server (`simple_server/source/main.cpp`)

The other server of the repository: one thread for each client, which reads, takes off
frames, and answers each with blocking sends before it takes off the next. The threads
share the list that file ids stand for. What the sockets and the file system do is input.
-/

namespace ProjectTrans

open Wire

/-- What the handler puts into its response. -/
structure BlockRead where
  offset : Int64
  blockSize : Int64
  data : Bytes
  deriving DecidableEq, Repr

namespace SimpleServer

/-- The handler of `/block`, once the path of the file is resolved. -/
def readBlock (fileSize : Option Int64) (content : Option Bytes) (offset blockSize : Int64) : BlockRead :=
  let blockSize := if blockSize < 0 then 0 else blockSize
  let fileSize := fileSize.getD 0
  let offset := if offset < 0 then 0 else offset
  let offset := if offset > fileSize then fileSize else offset
  let canRead := fileSize - offset
  let canRead := if canRead < 0 then 0 else canRead
  let blockSize := if blockSize > canRead then canRead else blockSize
  match content with
  | none => ⟨offset, 0, []⟩
  | some content =>
    -- the vector is cut to what `gcount` says was read
    let data := (content.drop offset.toInt.toNat).take blockSize.toInt.toNat
    ⟨offset, .ofNat data.length, data⟩

/-! ## Files -/

/-- The path of a fixture, and `resource_file_dir`. -/
structure ServerConfig where
  fixtureFilePath : Bytes := []
  resourceFileDir : Bytes := []
  deriving DecidableEq, Repr

/-- What is found in the file system while one frame is handled: the regular files of a
directory in the order of its entries, sizes, and what can be opened. -/
structure FileSystem where
  regularFiles : Bytes → List Bytes
  fileSize : Bytes → Option Int64
  openFile : Bytes → Option Bytes

/-- `path::filename`: what stands behind the last slash. -/
def filename (path : Bytes) : Bytes := (path.reverse.takeWhile fun c => c ≠ 0x2f).reverse

/-- `list_resource_files_sorted`. -/
def listResourceFilesSorted (config : ServerConfig) (fs : FileSystem) : List Bytes :=
  if config.resourceFileDir = [] then []
  else (fs.regularFiles config.resourceFileDir).insertionSort fun a b => filename a ≤ filename b

/-- `resolve_file_path_for_file_id`, with its static list: made by the first call that needs it. -/
def resolveFilePathForFileId (config : ServerConfig) (fs : FileSystem) (kFiles : Option (List Bytes))
    (fileId : Int64) : Option Bytes × Option (List Bytes) :=
  if fileId ≤ 0 then (none, kFiles)
  else
    let files := kFiles.getD (listResourceFilesSorted config fs)
    (files[(fileId - 1).toUInt64.toNat]?, some files)

/-- The path of a file id: the fixture, if there is one. -/
def resolvedPath (config : ServerConfig) (fs : FileSystem) (kFiles : Option (List Bytes)) (fileId : Int64) :
    Option Bytes × Option (List Bytes) :=
  if config.fixtureFilePath ≠ [] then (some config.fixtureFilePath, kFiles)
  else resolveFilePathForFileId config fs kFiles fileId

/-! ## Requests and responses -/

variable (host : Endian)

/-- `try_parse_envelope_request`: every field has to be there. -/
def tryParseEnvelopeRequest (text : SerializeField → Bytes) (frame : Bytes) : Parse EnvelopeRequestTransfer := do
  let serializer ← (SerializeCodec.new .default).deserialize host frame
  let versionField ← Parse.ofOption (serializer.getParsedField (ascii "version"))
  let requestIdField ← Parse.ofOption (serializer.getParsedField (ascii "request_id"))
  let requestTypeField ← Parse.ofOption (serializer.getParsedField (ascii "request_type"))
  let pathField ← Parse.ofOption (serializer.getParsedField (ascii "path"))
  let contentTypeField ← Parse.ofOption (serializer.getParsedField (ascii "content_type"))
  let bodyField ← Parse.ofOption (serializer.getParsedField (ascii "body"))
  let version ← Parse.ofOption (SerializeCodec.toValue UInt16 host versionField)
  let requestId ← Parse.ofOption (SerializeCodec.toValue UInt64 host requestIdField)
  let requestType ← Parse.ofOption (SerializeCodec.toValue UInt8 host requestTypeField)
  let contentType ← Parse.ofOption (SerializeCodec.toValue UInt8 host contentTypeField)
  let body ← toArray UInt8 host bodyField
  return ⟨version, requestId, requestType, fieldToString text pathField, ⟨contentType⟩, body⟩

/-- `build_envelope_response`. -/
def buildEnvelopeResponse (info : EnvelopeResponseTransfer) : Checked Bytes := do
  let serializer ← (SerializeCodec.new .default).serializeValue host info.version (ascii "version")
  let serializer ← serializer.serializeValue host info.requestId (ascii "request_id")
  let serializer ← serializer.serializeValue host info.status.code (ascii "status")
  let serializer ← serializer.serializeValue host info.contentType.code (ascii "content_type")
  let serializer ← serializer.serializeVector host info.body (ascii "body")
  let (bytes, _) ← serializer.getSerializedDataVectorBuild host
  return bytes

/-- `build_test_response_body`. -/
def buildTestResponseBody (message : Bytes) : Checked Bytes := do
  let serializer ← (SerializeCodec.new .default).serializeString host message (ascii "message")
  let (bytes, _) ← serializer.getSerializedDataVectorBuild host
  return bytes

/-- `build_download_response_body`. -/
def buildDownloadResponseBody (taskId fileId : Int64) (fileName : Bytes) (fileSize : Int64) (md5Code : Bytes) :
    Checked Bytes := do
  let serializer ← (SerializeCodec.new .default).serializeValue host taskId (ascii "task_id")
  let serializer ← serializer.serializeValue host fileId (ascii "file_id")
  let serializer ← serializer.serializeString host fileName (ascii "file_name")
  let serializer ← serializer.serializeValue host fileSize (ascii "file_size")
  let serializer ← serializer.serializeString host md5Code (ascii "md5_code")
  let (bytes, _) ← serializer.getSerializedDataVectorBuild host
  return bytes

/-- `build_block_response_body`. -/
def buildBlockResponseBody (blockId fileId taskId offset blockSize : Int64) (data : Bytes) : Checked Bytes := do
  let serializer ← (SerializeCodec.new .default).serializeValue host blockId (ascii "block_id")
  let serializer ← serializer.serializeValue host fileId (ascii "file_id")
  let serializer ← serializer.serializeValue host taskId (ascii "task_id")
  let serializer ← serializer.serializeValue host offset (ascii "offset")
  let serializer ← serializer.serializeValue host blockSize (ascii "block_size")
  let serializer ← serializer.serializeVector host data (ascii "data")
  let (bytes, _) ← serializer.getSerializedDataVectorBuild host
  return bytes

/-- The envelope around every response to a request. -/
def responseTo (req : EnvelopeRequestTransfer) (status : ResponseStatus) (body : Bytes) :
    EnvelopeResponseTransfer :=
  ⟨req.version, req.requestId, status, .daneJoe, body⟩

/-- What `/test` answers to the parsed body. -/
def testResponse (text : SerializeField → Bytes) (req : EnvelopeRequestTransfer)
    (bodySerializer : SerializeCodec) : Checked EnvelopeResponseTransfer := do
  let msgField := bodySerializer.getParsedField (ascii "message")
  let body ← buildTestResponseBody host
    (ascii "echo: " ++ (msgField.map (fieldToString text)).getD (ascii "<empty>"))
  return responseTo req .ok body

/-- What `/download` answers, once the path is resolved. -/
def downloadResponse (fs : FileSystem) (req : EnvelopeRequestTransfer) (taskId fileId : Int64) :
    Option Bytes → Checked EnvelopeResponseTransfer
  | some path => do
    let body ← buildDownloadResponseBody host taskId fileId (filename path) ((fs.fileSize path).getD 0) []
    return responseTo req .ok body
  | none => do
    let body ← buildTestResponseBody host (ascii "file_id not found")
    return responseTo req .notFound body

/-- What `/block` answers, once the path is resolved. -/
def blockResponse (fs : FileSystem) (req : EnvelopeRequestTransfer)
    (blockId fileId taskId offset blockSize : Int64) : Option Bytes → Checked EnvelopeResponseTransfer
  | some path => do
    let read := readBlock (fs.fileSize path) (fs.openFile path) offset blockSize
    let body ← buildBlockResponseBody host blockId fileId taskId read.offset read.blockSize read.data
    return responseTo req .ok body
  | none => do
    let body ← buildTestResponseBody host (ascii "file_id not found")
    return responseTo req .notFound body

/-- `dispatch_request`. Members that are missing or of another type have defaults here. -/
def dispatchRequest (text : SerializeField → Bytes) (config : ServerConfig) (fs : FileSystem)
    (kFiles : Option (List Bytes)) (req : EnvelopeRequestTransfer) :
    Checked (EnvelopeResponseTransfer × Option (List Bytes)) := do
  if req.path = ascii "/test" then
    let bodySerializer ← (SerializeCodec.new .default).deserialize host req.body
    let resp ← testResponse host text req bodySerializer
    return (resp, kFiles)
  else if req.path = ascii "/download" then
    let bodySerializer ← (SerializeCodec.new .default).deserialize host req.body
    let taskId : Int64 := lenient host (bodySerializer.getParsedField (ascii "task_id")) (-1)
    let fileId : Int64 := lenient host (bodySerializer.getParsedField (ascii "file_id")) 1
    let resolved := resolvedPath config fs kFiles fileId
    let resp ← downloadResponse host fs req taskId fileId resolved.1
    return (resp, resolved.2)
  else if req.path = ascii "/block" then
    let bodySerializer ← (SerializeCodec.new .default).deserialize host req.body
    let blockId : Int64 := lenient host (bodySerializer.getParsedField (ascii "block_id")) 1
    let fileId : Int64 := lenient host (bodySerializer.getParsedField (ascii "file_id")) 1
    let taskId : Int64 := lenient host (bodySerializer.getParsedField (ascii "task_id")) (-1)
    let offset : Int64 := lenient host (bodySerializer.getParsedField (ascii "offset")) 0
    let blockSize : Int64 := lenient host (bodySerializer.getParsedField (ascii "block_size")) 1024
    let resolved := resolvedPath config fs kFiles fileId
    let resp ← blockResponse host fs req blockId fileId taskId offset blockSize resolved.1
    return (resp, resolved.2)
  else
    let body ← buildTestResponseBody host (ascii "path not found")
    return (responseTo req .notFound body, kFiles)

/-- What `handle_client` sends for a frame. -/
def respond (text : SerializeField → Bytes) (config : ServerConfig) (fs : FileSystem)
    (kFiles : Option (List Bytes)) (frame : Bytes) : Checked (Bytes × Option (List Bytes)) := do
  match ← (tryParseEnvelopeRequest host text frame).run with
  | none =>
    let body ← buildTestResponseBody host (ascii "bad request")
    let respFrame ← buildEnvelopeResponse host ⟨1, 0, .badRequest, .daneJoe, body⟩
    return (respFrame, kFiles)
  | some req =>
    let (resp, kFiles) ← dispatchRequest host text config fs kFiles req
    let respFrame ← buildEnvelopeResponse host resp
    return (respFrame, kFiles)

/-! ## Threads -/

/-- Where `handle_client` is: in `recv`, before `pop_frame`, in `send_all` with these bytes
left, or behind `close`. -/
inductive Phase
  | receiving
  | popping
  | sending (rest : Bytes)
  | closed
  deriving DecidableEq, Repr

/-- A thread in `handle_client`: its variables, and what has gone through its socket. -/
structure ClientThread where
  assembler : FrameAssembler
  phase : Phase := .receiving
  received : Bytes := []
  /-- The frames taken off, each with its response. -/
  answered : List (Bytes × Bytes) := []
  sent : Bytes := []
  deriving DecidableEq, Repr

namespace ClientThread

/-- `send_all`, before its first `send`. -/
def sendAll (data : Bytes) : Phase := if data = [] then .popping else .sending data

/-- `recv` returns so many bytes, none at the end of the stream, or fails. -/
def recv (c : ClientThread) : Option Bytes → ClientThread
  | none => { c with phase := .closed }
  | some [] => { c with phase := .closed }
  | some chunk =>
    { c with assembler := c.assembler.pushData chunk, phase := .popping, received := c.received ++ chunk }

/-- `send` returns. It takes no more than it is given. -/
def send (c : ClientThread) (rest : Bytes) (n : ℤ) : ClientThread :=
  if n ≤ 0 then { c with phase := .closed }
  else { c with phase := sendAll (rest.drop n.toNat), sent := c.sent ++ rest.take n.toNat }

end ClientThread

end SimpleServer

/-- The threads of the simple server, in the order their clients were accepted, and the
static list of `resolve_file_path_for_file_id`. -/
structure SimpleServer where
  clients : List SimpleServer.ClientThread := []
  kFiles : Option (List Bytes) := none

/-- A client is accepted, or a thread goes on. -/
inductive SimpleServerAction
  | accept (freshHeader : SerializeHeader)
  | recv (client : ℕ) (received : Option Bytes)
  | popFrame (client : ℕ) (fs : SimpleServer.FileSystem)
  | send (client : ℕ) (n : ℤ)

namespace SimpleServer

variable (host : Endian) (text : SerializeField → Bytes) (config : ServerConfig)

/-- A frame is taken off and answered, or none is there. -/
def popFrame (s : SimpleServer) (fs : FileSystem) (c : ClientThread) :
    Checked (ClientThread × Option (List Bytes)) := do
  let (frame, assembler) ← c.assembler.popFrame host
  match frame with
  | none => return ({ c with assembler := assembler, phase := .receiving }, s.kFiles)
  | some frame =>
    let (respFrame, kFiles) ← respond host text config fs s.kFiles frame
    return ({ c with
      assembler := assembler
      phase := ClientThread.sendAll respFrame
      answered := c.answered ++ [(frame, respFrame)] }, kFiles)

/-- One step. What is not possible changes nothing; neither does what faults. -/
def step (s : SimpleServer) : SimpleServerAction → SimpleServer
  | .accept freshHeader => { s with clients := s.clients ++ [{ assembler := .new freshHeader }] }
  | .recv client received =>
    match s.clients[client]? with
    | some c => if c.phase = .receiving then { s with clients := s.clients.set client (c.recv received) } else s
    | none => s
  | .popFrame client fs =>
    match s.clients[client]? with
    | some c =>
      if c.phase = .popping then
        match s.popFrame host text config fs c with
        | .ok (c, kFiles) => { clients := s.clients.set client c, kFiles := kFiles }
        | .error _ => s
      else s
    | none => s
  | .send client n =>
    match s.clients[client]? with
    | some c =>
      match c.phase with
      | .sending rest => { s with clients := s.clients.set client (c.send rest n) }
      | _ => s
    | none => s

end SimpleServer

end ProjectTrans
