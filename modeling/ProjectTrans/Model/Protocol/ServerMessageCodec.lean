import ProjectTrans.Model.Protocol.Transfer

/-!
# The server's codec (`server/source/protocol/server_message_codec`)

Requests are parsed, responses are built. As on the client, a parsed envelope
starts from whatever stands in a fresh one.
-/

namespace ProjectTrans.ServerMessageCodec

open Wire SerializeCodec

variable (host : Endian)

/-- The path member: stays empty without its field, and refuses an empty one. -/
def parsePath (text : SerializeField → Bytes) (field : Option SerializeField) : Parse Bytes :=
  match field with
  | none => pure []
  | some field =>
    let path := fieldToString text field
    if path ≠ [] then pure path else failure

/-- `try_parse_byte_array_request`. -/
def tryParseByteArrayRequest (text : SerializeField → Bytes) (fresh : EnvelopeRequestTransfer) (data : Bytes) :
    Parse EnvelopeRequestTransfer := do
  let serializer ← (SerializeCodec.new .default).deserialize host data
  let version ← Parse.optional host (serializer.getParsedField (ascii "version")) fresh.version
  let requestId ← Parse.optional host (serializer.getParsedField (ascii "request_id")) fresh.requestId
  let requestType ← Parse.optional host (serializer.getParsedField (ascii "request_type")) fresh.requestType
  let path ← parsePath text (serializer.getParsedField (ascii "path"))
  let contentType ←
    Parse.optional host (serializer.getParsedField (ascii "content_type")) fresh.contentType.code
  let body ← parseBody host (serializer.getParsedField (ascii "body"))
  return ⟨version, requestId, requestType, path, ⟨contentType⟩, body⟩

/-- `try_parse_byte_array_block_request`. -/
def tryParseByteArrayBlockRequest (data : Bytes) : Parse BlockRequestTransfer := do
  let info : BlockRequestTransfer := {}
  let serializer ← (SerializeCodec.new .default).deserialize host data
  let blockId ← Parse.required Int64 host (serializer.getParsedField (ascii "block_id"))
  let fileId ← Parse.required Int64 host (serializer.getParsedField (ascii "file_id"))
  let taskId := lenient host (serializer.getParsedField (ascii "task_id")) info.taskId
  let offset ← Parse.required Int64 host (serializer.getParsedField (ascii "offset"))
  let blockSize ← Parse.required Int64 host (serializer.getParsedField (ascii "block_size"))
  return ⟨blockId, fileId, taskId, offset, blockSize⟩

/-- `try_parse_byte_array_download_request`. -/
def tryParseByteArrayDownloadRequest (data : Bytes) : Parse DownloadRequestTransfer := do
  let info : DownloadRequestTransfer := {}
  let serializer ← (SerializeCodec.new .default).deserialize host data
  let fileId ← Parse.required Int64 host (serializer.getParsedField (ascii "file_id"))
  let taskId := lenient host (serializer.getParsedField (ascii "task_id")) info.taskId
  return ⟨fileId, taskId⟩

/-- `try_parse_byte_array_test_request`. -/
def tryParseByteArrayTestRequest (text : SerializeField → Bytes) (data : Bytes) : Parse TestRequestTransfer := do
  let serializer ← (SerializeCodec.new .default).deserialize host data
  let messageField ← Parse.ofOption (serializer.getParsedField (ascii "message"))
  return ⟨fieldToString text messageField⟩

/-- `build_response_byte_array`. -/
def buildResponseByteArray (response : EnvelopeResponseTransfer) : Checked Bytes := do
  let serializer ← (SerializeCodec.new .default).serializeValue host response.version (ascii "version")
  let serializer ← serializer.serializeValue host response.requestId (ascii "request_id")
  let serializer ← serializer.serializeValue host response.status.code (ascii "status")
  let serializer ← serializer.serializeValue host response.contentType.code (ascii "content_type")
  let serializer ← serializer.serializeVector host response.body (ascii "body")
  let (bytes, _) ← serializer.getSerializedDataVectorBuild host
  return bytes

/-- The envelope around the body of every response the server builds. -/
def okEnvelope (requestId : Int64) (body : Bytes) : EnvelopeResponseTransfer where
  version := 1
  requestId := requestId.toUInt64
  status := .ok
  contentType := .daneJoe
  body := body

/-- `build_block_response_byte_array`. -/
def buildBlockResponseByteArray (blockResponse : BlockResponseTransfer) (requestId : Int64) :
    Checked Bytes := do
  let bodySerializer ← (SerializeCodec.new .default).serializeValue host blockResponse.blockId (ascii "block_id")
  let bodySerializer ← bodySerializer.serializeValue host blockResponse.fileId (ascii "file_id")
  let bodySerializer ← bodySerializer.serializeValue host blockResponse.taskId (ascii "task_id")
  let bodySerializer ← bodySerializer.serializeValue host blockResponse.offset (ascii "offset")
  let bodySerializer ← bodySerializer.serializeValue host blockResponse.blockSize (ascii "block_size")
  let bodySerializer ← bodySerializer.serializeVector host blockResponse.data (ascii "data")
  let (body, _) ← bodySerializer.getSerializedDataVectorBuild host
  buildResponseByteArray host (okEnvelope requestId body)

/-- `build_download_response_byte_array`. -/
def buildDownloadResponseByteArray (downloadResponse : DownloadResponseTransfer) (requestId : Int64) :
    Checked Bytes := do
  let bodySerializer ← (SerializeCodec.new .default).serializeValue host downloadResponse.taskId (ascii "task_id")
  let bodySerializer ← bodySerializer.serializeValue host downloadResponse.fileId (ascii "file_id")
  let bodySerializer ← bodySerializer.serializeString host downloadResponse.fileName (ascii "file_name")
  let bodySerializer ← bodySerializer.serializeValue host downloadResponse.fileSize (ascii "file_size")
  let bodySerializer ← bodySerializer.serializeString host downloadResponse.md5Code (ascii "md5_code")
  let (body, _) ← bodySerializer.getSerializedDataVectorBuild host
  buildResponseByteArray host (okEnvelope requestId body)

/-- `build_test_response_byte_array`. -/
def buildTestResponseByteArray (testResponse : TestResponseTransfer) (requestId : Int64) : Checked Bytes := do
  let bodySerializer ← (SerializeCodec.new .default).serializeString host testResponse.message (ascii "message")
  let (body, _) ← bodySerializer.getSerializedDataVectorBuild host
  buildResponseByteArray host (okEnvelope requestId body)

/-- The exchanges `BusinessRuntime::handle_request` answers. -/
inductive Route
  | download
  | test
  | block
  deriving DecidableEq, Repr

/-- The dispatch of `BusinessRuntime::handle_request` on the path of a request. -/
def route (path : Bytes) : Option Route :=
  if path = ascii "/download" then some .download
  else if path = ascii "/test" then some .test
  else if path = ascii "/block" then some .block
  else none

end ProjectTrans.ServerMessageCodec
