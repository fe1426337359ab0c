import ProjectTrans.Model.Protocol.Transfer

/-!
# The client's codec (`client/source/protocol/client_message_codec`)

Requests are built, responses are parsed. The members of an envelope have no
default: a parse starts from whatever stands in a fresh one (`fresh`).
-/

namespace ProjectTrans.ClientMessageCodec

open Wire SerializeCodec

variable (host : Endian)

/-- `try_parse_byte_array_response`. -/
def tryParseByteArrayResponse (fresh : EnvelopeResponseTransfer) (data : Bytes) :
    Parse EnvelopeResponseTransfer := do
  let serializer ← (SerializeCodec.new .default).deserialize host data
  let version ← Parse.optional host (serializer.getParsedField (ascii "version")) fresh.version
  let requestId ← Parse.optional host (serializer.getParsedField (ascii "request_id")) fresh.requestId
  let status ← Parse.optional host (serializer.getParsedField (ascii "status")) fresh.status.code
  let contentType ←
    Parse.optional host (serializer.getParsedField (ascii "content_type")) fresh.contentType.code
  let body ← parseBody host (serializer.getParsedField (ascii "body"))
  return ⟨version, requestId, ⟨status⟩, ⟨contentType⟩, body⟩

/-- `try_parse_byte_array_download_response`. -/
def tryParseByteArrayDownloadResponse (text : SerializeField → Bytes) (body : Bytes) :
    Parse DownloadResponseTransfer := do
  let info : DownloadResponseTransfer := {}
  let serializer ← (SerializeCodec.new .default).deserialize host body
  let taskId := lenient host (serializer.getParsedField (ascii "task_id")) info.taskId
  let fileId ← Parse.optional host (serializer.getParsedField (ascii "file_id")) info.fileId
  let fileName :=
    ((serializer.getParsedField (ascii "file_name")).map (fieldToString text)).getD info.fileName
  let fileSize ← Parse.optional host (serializer.getParsedField (ascii "file_size")) info.fileSize
  let md5Code :=
    ((serializer.getParsedField (ascii "md5_code")).map (fieldToString text)).getD info.md5Code
  return ⟨fileId, taskId, fileName, fileSize, md5Code⟩

/-- `try_parse_byte_array_block_response`. -/
def tryParseByteArrayBlockResponse (body : Bytes) : Parse BlockResponseTransfer := do
  let info : BlockResponseTransfer := {}
  let serializer ← (SerializeCodec.new .default).deserialize host body
  let blockId ← Parse.required Int64 host (serializer.getParsedField (ascii "block_id"))
  let fileId ← Parse.required Int64 host (serializer.getParsedField (ascii "file_id"))
  let taskId := lenient host (serializer.getParsedField (ascii "task_id")) info.taskId
  let offset ← Parse.required Int64 host (serializer.getParsedField (ascii "offset"))
  let blockSize ← Parse.required Int64 host (serializer.getParsedField (ascii "block_size"))
  let dataField ← Parse.ofOption (serializer.getParsedField (ascii "data"))
  let data ← toArray UInt8 host dataField
  return ⟨blockId, fileId, taskId, offset, blockSize, data⟩

/-- `try_parse_byte_array_test_response`. -/
def tryParseByteArrayTestResponse (text : SerializeField → Bytes) (body : Bytes) :
    Parse TestResponseTransfer := do
  let serializer ← (SerializeCodec.new .default).deserialize host body
  let messageField ← Parse.ofOption (serializer.getParsedField (ascii "message"))
  return ⟨fieldToString text messageField⟩

/-- `build_request_byte_array`. -/
def buildRequestByteArray (info : EnvelopeRequestTransfer) : Checked Bytes := do
  let serializer ← (SerializeCodec.new .default).serializeValue host info.version (ascii "version")
  let serializer ← serializer.serializeValue host info.requestId (ascii "request_id")
  let serializer ← serializer.serializeValue host info.requestType (ascii "request_type")
  let serializer ← serializer.serializeString host info.path (ascii "path")
  let serializer ← serializer.serializeValue host info.contentType.code (ascii "content_type")
  let serializer ← serializer.serializeVector host info.body (ascii "body")
  let (bytes, _) ← serializer.getSerializedDataVectorBuild host
  return bytes

/-- `build_test_request_byte_array`. -/
def buildTestRequestByteArray (testRequest : TestRequestTransfer) (requestId : Int64) : Checked Bytes := do
  let bodySerializer ← (SerializeCodec.new .default).serializeString host testRequest.message (ascii "message")
  let (body, _) ← bodySerializer.getSerializedDataVectorBuild host
  buildRequestByteArray host
    { version := 1, requestId := requestId.toUInt64, requestType := 1, path := ascii "/test",
      contentType := .daneJoe, body := body }

/-- `build_download_request_byte_array`. -/
def buildDownloadRequestByteArray (downloadRequest : DownloadRequestTransfer) (requestId : Int64) :
    Checked Bytes := do
  let bodySerializer ← (SerializeCodec.new .default).serializeValue host downloadRequest.fileId (ascii "file_id")
  let bodySerializer ← bodySerializer.serializeValue host downloadRequest.taskId (ascii "task_id")
  let (body, _) ← bodySerializer.getSerializedDataVectorBuild host
  buildRequestByteArray host
    { version := 1, requestId := requestId.toUInt64, requestType := 0, path := ascii "/download",
      contentType := .daneJoe, body := body }

/-- `build_block_request_byte_array`. -/
def buildBlockRequestByteArray (blockRequest : BlockRequestTransfer) (requestId : Int64) : Checked Bytes := do
  let bodySerializer ← (SerializeCodec.new .default).serializeValue host blockRequest.blockId (ascii "block_id")
  let bodySerializer ← bodySerializer.serializeValue host blockRequest.fileId (ascii "file_id")
  let bodySerializer ← bodySerializer.serializeValue host blockRequest.taskId (ascii "task_id")
  let bodySerializer ← bodySerializer.serializeValue host blockRequest.offset (ascii "offset")
  let bodySerializer ← bodySerializer.serializeValue host blockRequest.blockSize (ascii "block_size")
  let (body, _) ← bodySerializer.getSerializedDataVectorBuild host
  buildRequestByteArray host
    { version := 1, requestId := requestId.toUInt64, requestType := 0, path := ascii "/block",
      contentType := .daneJoe, body := body }

end ProjectTrans.ClientMessageCodec
