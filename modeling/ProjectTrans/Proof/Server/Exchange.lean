import ProjectTrans.Proof.Codec.FrameAssembler
import ProjectTrans.Proof.Protocol.Responses
import ProjectTrans.Proof.Server.FileLookup

/-!
# Requests and what comes back

A request is built by the client, parsed and handled by the server, and its response is
parsed by the client. `requests_exchanged`: what the client is left with, for each of the
three requests. A block arrives as the server has read it, if it has at least two bytes;
a single byte arrives as no data (`arrivingBlock`), and of a file that is not found or
does not open nothing arrives (`fetched`).
-/

namespace ProjectTrans

open Wire SerializeCodec FrameAssembler

/-- What the client makes of a block response. -/
def arrivingBlock (r : BlockResponseTransfer) : Option BlockResponseTransfer :=
  if r.data.length = 1 then some { r with data := [] }
  else if 2 ≤ r.data.length ∧ r.data.length + 146 ≤ valueLimit then some r
  else none

/-- What the client makes of a download response: one that is too long loses its members. -/
def arrivingDownload (r : DownloadResponseTransfer) : DownloadResponseTransfer :=
  if r.fileName.length + r.md5Code.length + 118 ≤ valueLimit then r else {}

/-- What the client makes of a test response. -/
def arrivingTest (r : TestResponseTransfer) : Option TestResponseTransfer :=
  if r.message.length + 41 ≤ valueLimit then some r else none

section Bodies

variable (host : Endian) {text : SerializeField → Bytes}

/-! ## Frames -/

/-- What the codec builds is a frame of the stream. -/
theorem frame_wireFrame {fs : List SerializeField} (hlt : (frame fs).length < 2 ^ 32) : WireFrame (frame fs) := by
  have hbody : (fs.flatMap SerializeField.wire).length < 2 ^ 32 := by
    rw [frame_length] at hlt
    omega
  exact ⟨hlt, frameHeader fs, fs.flatMap SerializeField.wire, rfl, UInt32.toNat_ofNat_of_lt' hbody⟩

/-- A request is a frame. -/
theorem request_wireFrame {version : UInt16} {requestType : UInt8} {requestId : UInt64} {path body bytes : Bytes}
    (hpath : path.length ≤ valueLimit) (hbody : 2 ≤ body.length) (hlt : 10 + body.length < 2 ^ 32)
    (hbuilt : ClientMessageCodec.buildRequestByteArray host ⟨version, requestId, requestType, path, .daneJoe,
      body⟩ = .ok bytes) : WireFrame bytes := by
  rw [buildRequestByteArray_eq host _ hpath hbody hlt] at hbuilt
  rw [← Except.ok.inj hbuilt]
  exact frame_wireFrame (envelope_frame_lt (requestHead_le host hpath) body)

theorem blockRequest_wireFrame {r : BlockRequestTransfer} {requestId : Int64} {bytes : Bytes}
    (hbuilt : ClientMessageCodec.buildBlockRequestByteArray host r requestId = .ok bytes) : WireFrame bytes := by
  have hlen := blockRequest_frame_length host r
  have hbody := request_built host (fits_blockRequestFields host r) (by rw [hlen]; norm_num)
    fun body => ⟨1, requestId.toUInt64, 0, ascii "/block", .daneJoe, body⟩
  have heq : ClientMessageCodec.buildBlockRequestByteArray host r requestId = _ :=
    Eq.trans
      (by simp [ClientMessageCodec.buildBlockRequestByteArray, blockRequestFields, serializeValue_eq]) hbody
  exact request_wireFrame host (by decide) (by rw [hlen]; norm_num) (by rw [hlen]; norm_num)
    (heq.symm.trans hbuilt)

theorem downloadRequest_wireFrame {r : DownloadRequestTransfer} {requestId : Int64} {bytes : Bytes}
    (hbuilt : ClientMessageCodec.buildDownloadRequestByteArray host r requestId = .ok bytes) :
    WireFrame bytes := by
  have hlen := downloadRequest_frame_length host r
  have hbody := request_built host (fits_downloadRequestFields host r) (by rw [hlen]; norm_num)
    fun body => ⟨1, requestId.toUInt64, 0, ascii "/download", .daneJoe, body⟩
  have heq : ClientMessageCodec.buildDownloadRequestByteArray host r requestId = _ :=
    Eq.trans
      (by simp [ClientMessageCodec.buildDownloadRequestByteArray, downloadRequestFields, serializeValue_eq]) hbody
  exact request_wireFrame host (by decide) (by rw [hlen]; norm_num) (by rw [hlen]; norm_num)
    (heq.symm.trans hbuilt)

theorem testRequest_wireFrame {r : TestRequestTransfer} {requestId : Int64} {bytes : Bytes}
    (hfit : r.message.length ≤ valueLimit)
    (hbuilt : ClientMessageCodec.buildTestRequestByteArray host r requestId = .ok bytes) : WireFrame bytes := by
  have hlen := message_frame_length r.message
  rw [buildTestRequestByteArray_eq host requestId hfit] at hbuilt
  unfold valueLimit at hfit
  exact request_wireFrame host (by decide) (by omega) (by omega) hbuilt

/-- A response is built and arrives, with what arrives of its body. -/
theorem response_arrives (requestId : Int64) (body : Bytes) (hbody : 2 ≤ body.length)
    (hlt : 10 + body.length < 2 ^ 32) :
    ∃ bytes, ServerMessageCodec.buildResponseByteArray host
      (ServerMessageCodec.okEnvelope requestId body) = .ok bytes ∧
      WireFrame bytes ∧ ∀ fresh, (ClientMessageCodec.tryParseByteArrayResponse host fresh bytes).run =
        .ok (some (ServerMessageCodec.okEnvelope requestId (arrivingBody body))) := by
  refine ⟨_, buildResponseByteArray_eq host (ServerMessageCodec.okEnvelope requestId body) hbody hlt, ?_,
      fun fresh =>
    tryParseByteArrayResponse_eq host fresh (ServerMessageCodec.okEnvelope requestId body)⟩
  exact frame_wireFrame (envelope_frame_lt (responseHead_le host _) body)

/-! ## Bodies that arrive -/

/-- **What arrives of the body of a block response.** -/
theorem parse_arrivingBlock {r : BlockResponseTransfer} (h : r.data.length ≤ valueLimit) :
    (ClientMessageCodec.tryParseByteArrayBlockResponse host (arrivingBody (blockResponseBody host r))).run =
      .ok (arrivingBlock r) := by
  have hlt : 10 + r.data.length < 2 ^ 32 := by unfold valueLimit at h; omega
  obtain ⟨hlow, hhigh⟩ := blockResponseBody_bounds host h
  have hframe : (blockResponseBody host r).length < 2 ^ 32 := by unfold valueLimit at hhigh; omega
  unfold arrivingBlock
  rcases Nat.lt_or_ge r.data.length 2 with hshort | hlong
  · -- no field, or the field of a single byte
    have hshortBody : 10 + (blockResponseBody host r).length ≤ valueLimit := by
      unfold blockResponseBody
      rw [kept_vectorFields_short host r.data (by decide) hshort, frame_length, List.flatMap_append,
        List.length_append, blockResponseHead_length host]
      rcases hd : r.data with _ | ⟨x, _ | ⟨y, zs⟩⟩
      · simp [vectorFields, valueLimit]
      · simp [vectorFields, valueLimit, body_names]
      · rw [hd] at hshort
        simp at hshort
    rw [arrivingBody, if_pos hshortBody]
    have hfits : Fits (kept .default (vectorFields host r.data (ascii "data"))) :=
      fits_kept_vectorFields host (by decide) hlt
    unfold blockResponseBody at hframe ⊢
    rw [kept_vectorFields_short host r.data (by decide) hshort] at hfits hframe ⊢
    rcases hd : r.data with _ | ⟨x, _ | ⟨y, zs⟩⟩
    · rw [hd] at hfits hframe
      rw [tryParseByteArrayBlockResponse_eq host r hfits rfl (by simp [vectorFields]) hframe]
      simp [vectorFields]
    · rw [hd] at hfits hframe
      rw [tryParseByteArrayBlockResponse_eq host r hfits rfl (by simp [vectorFields]) hframe, vectorFields,
        List.head?_cons]
      simp [toArray_valueField, Except.map]
    · rw [hd] at hshort
      simp at hshort
  · -- at least two bytes: all of them are in the body, or none
    have hne : r.data.length ≠ 1 := by omega
    rw [if_neg hne]
    by_cases hfit : r.data.length + 146 ≤ valueLimit
    · have hbody := blockResponseBody_length host hlong (show 10 + r.data.length ≤ valueLimit by omega)
      rw [if_pos ⟨hlong, hfit⟩, arrivingBody, if_pos (by omega)]
      exact (tryParseByteArrayBlockResponse_iff host h).2 ⟨hlong, by omega⟩
    · rw [if_neg fun hboth => hfit hboth.2]
      by_cases hdata : 10 + r.data.length ≤ valueLimit
      · -- the data is in the body, which is too long for the envelope
        have hbody := blockResponseBody_length host hlong hdata
        rw [arrivingBody, if_neg (by omega)]
        exact tryParseByteArrayBlockResponse_nil host
      · -- the data is left out of the body
        have hfits : Fits (kept .default (vectorFields host r.data (ascii "data"))) :=
          fits_kept_vectorFields host (by decide) hlt
        unfold arrivingBody blockResponseBody at *
        rw [kept_vectorFields host (by decide) hlong hlt, bytesFields, if_neg hdata] at hfits hframe ⊢
        split
        · rw [tryParseByteArrayBlockResponse_eq host r hfits rfl (by simp) hframe]
          rfl
        · exact tryParseByteArrayBlockResponse_nil host

end Bodies

/-! ## Requests that are handled -/

namespace BusinessRuntime

variable {host : Endian} {text : SerializeField → Bytes} {freshRequest : EnvelopeRequestTransfer}
  {files : FileService} {requestId : Int64} {connectId : UInt64} {bytes : Bytes} {requestType : UInt8}

/-- A block request that is delivered is handled as one. -/
theorem handleRequest_block {r : BlockRequestTransfer} (h : Delivered host text freshRequest (.ok bytes) requestId
      requestType .block (ServerMessageCodec.tryParseByteArrayBlockRequest host) r) :
    handleRequest host files text freshRequest bytes connectId =
      some <$> handleBlockRequest host files r requestId connectId := by
  obtain ⟨bytes', env, hbytes, henv, -, -, hid, hroute, hbody⟩ := h
  obtain rfl := Except.ok.inj hbytes
  unfold handleRequest
  rw [henv]
  simp only [Checked.ok_bind, hroute, hbody, hid, Int64.toInt64_toUInt64]
  rfl

/-- So is a download request. -/
theorem handleRequest_download {r : DownloadRequestTransfer}
    (h : Delivered host text freshRequest (.ok bytes) requestId
      requestType .download (ServerMessageCodec.tryParseByteArrayDownloadRequest host) r) :
    handleRequest host files text freshRequest bytes connectId =
      some <$> handleDownloadRequest host files r requestId connectId := by
  obtain ⟨bytes', env, hbytes, henv, -, -, hid, hroute, hbody⟩ := h
  obtain rfl := Except.ok.inj hbytes
  unfold handleRequest
  rw [henv]
  simp only [Checked.ok_bind, hroute, hbody, hid, Int64.toInt64_toUInt64]
  rfl

/-- And a test request. -/
theorem handleRequest_test {r : TestRequestTransfer} (h : Delivered host text freshRequest (.ok bytes) requestId
      requestType .test (ServerMessageCodec.tryParseByteArrayTestRequest host text) r) :
    handleRequest host files text freshRequest bytes connectId =
      some <$> handleTestRequest host r requestId connectId := by
  obtain ⟨bytes', env, hbytes, henv, -, -, hid, hroute, hbody⟩ := h
  obtain rfl := Except.ok.inj hbytes
  unfold handleRequest
  rw [henv]
  simp only [Checked.ok_bind, hroute, hbody, hid, Int64.toInt64_toUInt64]
  rfl

end BusinessRuntime

/-! ## There and back -/

open BusinessRuntime

/-- The content of the file that the server finds for an id, if it opens. -/
def FileService.content (files : FileService) (fileId : Int64) : Option Bytes :=
  (files.getById fileId.toInt32).bind fun fileEntity => files.openFile fileEntity.resourcePath

/-- The answer to a block request whose size a vector can have. -/
def FileService.answer (files : FileService) (r : BlockRequestTransfer) : BlockResponseTransfer :=
  match files.content r.fileId with
  | none => emptyBlock r
  | some content =>
    { emptyBlock r with
      blockSize := r.blockSize, data := readInto content r.offset (List.replicate r.blockSize.toInt.toNat 0) }

/-- What the client gets for a block request. -/
def fetched (files : FileService) (r : BlockRequestTransfer) : Option BlockResponseTransfer :=
  arrivingBlock (files.answer r)

section Fetched

variable {files : FileService} {r : BlockRequestTransfer} {content : Bytes}

theorem blockAnswer_eq (hsize : 0 ≤ r.blockSize.toInt) :
    blockAnswer files.openFile r (files.getById r.fileId.toInt32) = .ok (files.answer r) := by
  have hzeros : zeros r.blockSize = .ok (List.replicate r.blockSize.toInt.toNat 0) := by
    have hneg : ¬r.blockSize < 0 := by
      rw [Int64.lt_iff_toInt_lt, Int64.toInt_zero]
      omega
    unfold zeros
    rw [if_neg hneg]
  unfold blockAnswer blockResponse FileService.answer FileService.content
  cases files.getById r.fileId.toInt32 with
  | none => rfl
  | some fileEntity =>
    dsimp only [Option.bind_some]
    cases files.openFile fileEntity.resourcePath with
    | none => simp only [hzeros]; rfl
    | some content => simp only [hzeros]; rfl

theorem answer_of_content (h : files.content r.fileId = some content) :
    files.answer r = ⟨r.blockId, r.fileId, r.taskId, r.offset, r.blockSize,
      readInto content r.offset (List.replicate r.blockSize.toInt.toNat 0)⟩ := by
  unfold FileService.answer
  rw [h]
  rfl

/-- An answer has no more data than was asked for. -/
theorem answer_data_le (files : FileService) (r : BlockRequestTransfer) :
    (files.answer r).data.length ≤ r.blockSize.toInt.toNat := by
  cases h : files.content r.fileId with
  | none =>
    unfold FileService.answer
    rw [h]
    exact Nat.zero_le _
  | some content =>
    rw [answer_of_content h]
    dsimp only
    rw [readInto_length, List.length_replicate]

/-- Nothing is fetched of a file that is not found or does not open. -/
theorem fetched_of_none (h : files.content r.fileId = none) : fetched files r = none := by
  unfold fetched FileService.answer
  rw [h]
  rfl

/-- A single byte is fetched without its data. -/
theorem fetched_single (h : files.content r.fileId = some content) (hsize : r.blockSize.toInt = 1) :
    fetched files r = some ⟨r.blockId, r.fileId, r.taskId, r.offset, r.blockSize, []⟩ := by
  have hlength : (readInto content r.offset (List.replicate r.blockSize.toInt.toNat 0)).length = 1 := by
    rw [readInto_length, List.length_replicate, hsize]
    rfl
  unfold fetched arrivingBlock
  rw [answer_of_content h, if_pos hlength]

/-- **A block that is in the file** is fetched as it is there. -/
theorem fetched_exact (h : files.content r.fileId = some content) (hin : InFile content r.offset r.blockSize)
    (hlow : 2 ≤ r.blockSize.toInt) (hhigh : r.blockSize.toInt + 146 ≤ valueLimit) :
    fetched files r = some ⟨r.blockId, r.fileId, r.taskId, r.offset, r.blockSize,
      fileBytes content r.offset r.blockSize⟩ := by
  have hread := readInto_eq_fileBytes hin
    (List.length_replicate (n := r.blockSize.toInt.toNat) (a := (0 : UInt8)))
  have hlength : (fileBytes content r.offset r.blockSize).length = r.blockSize.toInt.toNat := by
    rw [← hread, readInto_length, List.length_replicate]
  unfold fetched arrivingBlock
  rw [answer_of_content h, hread, if_neg (by dsimp only; omega), if_pos (by dsimp only; omega)]

end Fetched

/-- A request that the client builds is one frame. It is answered by one frame, on its
connection and under its id, and this is what the client makes of the response. -/
def Exchanged {α : Type} (host : Endian) (text : SerializeField → Bytes) (files : FileService)
    (freshRequest : EnvelopeRequestTransfer) (connectId : UInt64) (built : Checked Bytes) (requestId : Int64)
    (parse : Bytes → Parse α) (outcome : Option α) : Prop :=
  ∃ bytes frame body, built = .ok bytes ∧ WireFrame bytes ∧
    handleRequest host files text freshRequest bytes connectId = .ok (some frame) ∧ frame.connectId = connectId ∧
    WireFrame frame.data ∧
    (∀ freshResponse, (ClientMessageCodec.tryParseByteArrayResponse host freshResponse frame.data).run =
      .ok (some (ServerMessageCodec.okEnvelope requestId body))) ∧
    (parse body).run = .ok outcome

section Exchange

variable (host : Endian) (text : SerializeField → Bytes) (files : FileService)
  (freshRequest : EnvelopeRequestTransfer) (connectId : UInt64) (requestId : Int64)

/-- **A block request and its response.** -/
theorem block_exchanged {r : BlockRequestTransfer} (hlow : 0 ≤ r.blockSize.toInt)
    (hhigh : r.blockSize.toInt ≤ valueLimit) : Exchanged host text files freshRequest connectId
      (ClientMessageCodec.buildBlockRequestByteArray host r requestId) requestId
      (ClientMessageCodec.tryParseByteArrayBlockResponse host) (fetched files r) := by
  have hdelivered : Delivered host text freshRequest _ requestId _ _ _ r :=
    blockRequest_delivered host r requestId
  have ⟨bytes, _, hbuilt, _⟩ := hdelivered
  rw [hbuilt] at hdelivered
  have hdata : (files.answer r).data.length ≤ valueLimit := by
    have hle := answer_data_le files r
    omega
  obtain ⟨hshort, hlong⟩ := blockResponseBody_bounds host hdata
  obtain ⟨response, hresponse, hframe, hparsed⟩ := response_arrives host requestId
    (blockResponseBody host (files.answer r)) (by omega) (by unfold valueLimit at hlong; omega)
  have hhandled : handleBlockRequest host files r requestId connectId = .ok ⟨connectId, response⟩ := by
    rw [handleBlockRequest_answer, blockAnswer_eq hlow, Checked.ok_bind, blockFrame,
      buildBlockResponseByteArray_eq host requestId hdata, hresponse]
    rfl
  refine ⟨bytes, ⟨connectId, response⟩, _, hbuilt, blockRequest_wireFrame host hbuilt, ?_, rfl, hframe, hparsed,
    parse_arrivingBlock host hdata⟩
  rw [handleRequest_block hdelivered, hhandled]
  rfl

/-- The answer to a download request. -/
def FileService.downloadAnswer (files : FileService) (r : DownloadRequestTransfer) : DownloadResponseTransfer :=
  BusinessRuntime.downloadAnswer r (files.getById r.fileId.toInt32)

/-- **A download request and its response.** -/
theorem download_exchanged (r : DownloadRequestTransfer)
    (hname : (files.downloadAnswer r).fileName.length ≤ valueLimit)
    (hmd5 : (files.downloadAnswer r).md5Code.length ≤ valueLimit) :
    Exchanged host text files freshRequest connectId
      (ClientMessageCodec.buildDownloadRequestByteArray host r requestId) requestId
      (ClientMessageCodec.tryParseByteArrayDownloadResponse host text)
      (some (arrivingDownload (files.downloadAnswer r))) := by
  have hdelivered : Delivered host text freshRequest _ requestId _ _ _ r :=
    downloadRequest_delivered host r requestId
  have ⟨bytes, _, hbuilt, _⟩ := hdelivered
  rw [hbuilt] at hdelivered
  set answer := files.downloadAnswer r with hanswer
  have hlen := downloadResponse_frame_length host answer
  have hlt : (frame (downloadResponseFields host answer)).length + 10 < 2 ^ 32 := by
    unfold valueLimit at hname hmd5
    omega
  have hfields : ServerMessageCodec.buildDownloadResponseByteArray host answer requestId =
      ServerMessageCodec.buildResponseByteArray host
        (ServerMessageCodec.okEnvelope requestId (frame (downloadResponseFields host answer))) := by
    rw [← Checked.ok_bind (frame (downloadResponseFields host answer)) (fun body =>
      ServerMessageCodec.buildResponseByteArray host (ServerMessageCodec.okEnvelope requestId body)),
      ← build_fits host (fits_downloadResponseFields host hname hmd5) (by omega)]
    unfold ServerMessageCodec.buildDownloadResponseByteArray
    simp [downloadResponseFields, serializeValue_eq, serializeString_eq]
  obtain ⟨response, hresponse, hframe, hparsed⟩ := response_arrives host requestId
    (frame (downloadResponseFields host answer)) (by omega) (by omega)
  have hhandled : handleDownloadRequest host files r requestId connectId = .ok ⟨connectId, response⟩ := by
    rw [handleDownloadRequest_eq, downloadFrame]
    show (ServerMessageCodec.buildDownloadResponseByteArray host answer requestId >>= _) = _
    rw [hfields, hresponse]
    rfl
  refine ⟨bytes, ⟨connectId, response⟩, _, hbuilt, downloadRequest_wireFrame host hbuilt, ?_, rfl, hframe,
    hparsed, ?_⟩
  · rw [handleRequest_download hdelivered, hhandled]
    rfl
  · unfold arrivingBody arrivingDownload
    -- an answer longer than the value limit loses its body
    by_cases hfit : answer.fileName.length + answer.md5Code.length + 118 ≤ valueLimit
    · rw [if_pos hfit, if_pos (by omega)]
      exact tryParseByteArrayDownloadResponse_eq host hname hmd5
    · rw [if_neg hfit, if_neg (by omega)]
      exact tryParseByteArrayDownloadResponse_nil host

/-- **A test request and its response.** -/
theorem test_exchanged {r : TestRequestTransfer} (h : r.message.length + 41 ≤ valueLimit) :
    Exchanged host text files freshRequest connectId
      (ClientMessageCodec.buildTestRequestByteArray host r requestId) requestId
      (ClientMessageCodec.tryParseByteArrayTestResponse host text)
      (arrivingTest ⟨ascii "Echo: " ++ r.message⟩) := by
  have hdelivered : Delivered host text freshRequest _ requestId _ _ _ r := testRequest_delivered host requestId h
  have ⟨bytes, _, hbuilt, _⟩ := hdelivered
  rw [hbuilt] at hdelivered
  set message := ascii "Echo: " ++ r.message with hmessage
  have hecho : message.length = 6 + r.message.length := by rw [hmessage, List.length_append]; rfl
  have hfit : message.length ≤ valueLimit := by omega
  have hlen := message_frame_length message
  have hlt : (frame (messageFields message)).length + 10 < 2 ^ 32 := by
    unfold valueLimit at hfit
    omega
  have hfields : ServerMessageCodec.buildTestResponseByteArray host ⟨message⟩ requestId =
      ServerMessageCodec.buildResponseByteArray host
        (ServerMessageCodec.okEnvelope requestId (frame (messageFields message))) := by
    rw [← Checked.ok_bind (frame (messageFields message)) (fun body =>
      ServerMessageCodec.buildResponseByteArray host (ServerMessageCodec.okEnvelope requestId body)),
      ← build_fits host (fits_messageFields hfit) (by omega)]
    unfold ServerMessageCodec.buildTestResponseByteArray
    simp [messageFields, serializeString_eq]
  obtain ⟨response, hresponse, hframe, hparsed⟩ := response_arrives host requestId
    (frame (messageFields message)) (by omega) (by omega)
  have hhandled : handleTestRequest host r requestId connectId = .ok ⟨connectId, response⟩ := by
    unfold handleTestRequest
    show (ServerMessageCodec.buildTestResponseByteArray host ⟨message⟩ requestId >>= _) = _
    rw [hfields, hresponse]
    rfl
  refine ⟨bytes, ⟨connectId, response⟩, _, hbuilt, testRequest_wireFrame host (by omega) hbuilt, ?_, rfl, hframe,
    hparsed, ?_⟩
  · rw [handleRequest_test hdelivered, hhandled]
    rfl
  · unfold arrivingBody arrivingTest
    dsimp only
    -- the echo is six bytes longer than the request, and may be too long for it
    by_cases hshort : message.length + 41 ≤ valueLimit
    · rw [if_pos hshort, if_pos (by omega)]
      exact tryParseByteArrayTestResponse_eq host hfit
    · rw [if_neg hshort, if_neg (by omega)]
      exact tryParseByteArrayTestResponse_nil host

/-- **Requests and what comes back**: every request that the client builds is answered on its
connection and under its id. Of a block in the file the client gets exactly the bytes that
are there, if there are at least two; a single byte comes without its data; and nothing
comes of a file that is not found or does not open. A download request brings what the
server's row says, and a test request its message. -/
theorem requests_exchanged :
    (∀ r : BlockRequestTransfer, 0 ≤ r.blockSize.toInt → r.blockSize.toInt + 146 ≤ valueLimit →
      Exchanged host text files freshRequest connectId
        (ClientMessageCodec.buildBlockRequestByteArray host r requestId) requestId
        (ClientMessageCodec.tryParseByteArrayBlockResponse host) (fetched files r) ∧
      (files.content r.fileId = none → fetched files r = none) ∧
      ∀ content, files.content r.fileId = some content →
        (r.blockSize.toInt = 1 →
          fetched files r = some ⟨r.blockId, r.fileId, r.taskId, r.offset, r.blockSize, []⟩) ∧
        (2 ≤ r.blockSize.toInt → InFile content r.offset r.blockSize →
          fetched files r = some ⟨r.blockId, r.fileId, r.taskId, r.offset, r.blockSize,
            fileBytes content r.offset r.blockSize⟩)) ∧
    (∀ r : DownloadRequestTransfer, (files.downloadAnswer r).fileName.length ≤ valueLimit →
      (files.downloadAnswer r).md5Code.length ≤ valueLimit →
        Exchanged host text files freshRequest connectId
          (ClientMessageCodec.buildDownloadRequestByteArray host r requestId) requestId
          (ClientMessageCodec.tryParseByteArrayDownloadResponse host text)
          (some (arrivingDownload (files.downloadAnswer r)))) ∧
    ∀ r : TestRequestTransfer, r.message.length + 41 ≤ valueLimit →
      Exchanged host text files freshRequest connectId
        (ClientMessageCodec.buildTestRequestByteArray host r requestId) requestId
        (ClientMessageCodec.tryParseByteArrayTestResponse host text)
        (arrivingTest ⟨ascii "Echo: " ++ r.message⟩) := by
  refine ⟨fun r hlow hhigh => ⟨?_, fetched_of_none, fun content hcontent => ⟨?_, ?_⟩⟩, ?_, ?_⟩
  · exact block_exchanged host text files freshRequest connectId requestId hlow (by omega)
  · exact fetched_single hcontent
  · exact fun hsize hin => fetched_exact hcontent hin hsize hhigh
  · exact fun r => download_exchanged host text files freshRequest connectId requestId r
  · exact fun r => test_exchanged host text files freshRequest connectId requestId

end Exchange

/-- A file of three bytes under the id 1. -/
def threeByteFile : FileService where
  getById fileId := if fileId = 1 then some ⟨1, ascii "f", ascii "f", 3, []⟩ else none
  openFile path := if path = ascii "f" then some [0x41, 0x42, 0x43] else none

theorem requests_exchanged_block :
    Exchanged .little (fun _ => []) threeByteFile ⟨0, 0, 0, [], .json, []⟩ 9
        (ClientMessageCodec.buildBlockRequestByteArray .little ⟨3, 1, 2, 1, 2⟩ 7) 7
        (ClientMessageCodec.tryParseByteArrayBlockResponse .little) (fetched threeByteFile ⟨3, 1, 2, 1, 2⟩) ∧
      fetched threeByteFile ⟨3, 1, 2, 1, 2⟩ = some ⟨3, 1, 2, 1, 2, [0x42, 0x43]⟩ := by
  obtain ⟨hexchanged, -, hfetched⟩ :=
    (requests_exchanged .little (fun _ => []) threeByteFile ⟨0, 0, 0, [], .json, []⟩
    9 7).1 ⟨3, 1, 2, 1, 2⟩ (by decide) (by decide)
  exact ⟨hexchanged, (hfetched [0x41, 0x42, 0x43] (by decide)).2 (by decide) (by decide)⟩

end ProjectTrans
