import ProjectTrans.Proof.Server.BlockRead
import ProjectTrans.Proof.Server.Exchange

/-!
# Requests to the simple server

The client can be connected to either server. `requests_exchanged`: what the simple server
leaves the client with. It moves a block request into its file, so it answers where the
other server faults or pads; for a block of at least two bytes that is in the file, the
client cannot tell the two servers apart.
-/

namespace ProjectTrans

open Wire SerializeCodec FrameAssembler

namespace SimpleServer

variable (host : Endian) (text : SerializeField → Bytes) (config : ServerConfig) (fs : FileSystem)
  (kFiles : Option (List Bytes))

/-! ## Envelopes -/

/-- The builder of envelopes is the one of the other server. -/
theorem buildEnvelopeResponse_eq (info : EnvelopeResponseTransfer) :
    buildEnvelopeResponse host info = ServerMessageCodec.buildResponseByteArray host info := rfl

/-- **A request envelope that has its body** is taken apart. -/
theorem tryParseEnvelopeRequest_eq (env : EnvelopeRequestTransfer) (hpath : env.path.length ≤ valueLimit)
    (hfit : 10 + env.body.length ≤ valueLimit) :
    (tryParseEnvelopeRequest host text
      (frame (requestHead host env ++ bytesFields env.body (ascii "body")))).run = .ok (some env) := by
  obtain ⟨c, hc, hget⟩ := deserialize_new host
    ((fits_requestHead host hpath).append
      (fits_bytesFields env.body (show (ascii "body").length ≤ 128 by decide)))
    (by unfold bytesFields; split <;> simp [requestHead]) (envelope_frame_lt (requestHead_le host hpath) env.body)
  have hbody : c.getParsedField (ascii "body") = some (arrayField env.body (ascii "body")) := by
    rw [hget, bytesFields, if_pos hfit]
    rfl
  have hlt : 10 + Scalar.width UInt8 * env.body.length < 2 ^ 32 := by
    rw [Scalar.width_uInt8]
    unfold valueLimit at hfit
    omega
  have harray := toArray_arrayField host (ascii "body") hlt
  unfold tryParseEnvelopeRequest
  rw [hc]
  simp only [Parse.lift_ok_bind]
  rw [hbody]
  simp +decide [hget, requestHead, fieldToString, harray]

/-- A response to a request whose body is built. -/
theorem response_built (env : EnvelopeResponseTransfer) (hbody : 2 ≤ env.body.length)
    (hlt : 10 + env.body.length < 2 ^ 32) :
    ∃ respFrame, buildEnvelopeResponse host env = .ok respFrame ∧ WireFrame respFrame ∧
      ∀ fresh, (ClientMessageCodec.tryParseByteArrayResponse host fresh respFrame).run =
        .ok (some { env with body := arrivingBody env.body }) := by
  have hbuilt := (buildEnvelopeResponse_eq host env).trans (buildResponseByteArray_eq host env hbody hlt)
  refine ⟨_, hbuilt, ?_, fun fresh => tryParseByteArrayResponse_eq host fresh env⟩
  exact frame_wireFrame (envelope_frame_lt (responseHead_le host env) env.body)

/-! ## Bodies -/

theorem buildTestResponseBody_eq {message : Bytes} (h : message.length ≤ valueLimit) :
    buildTestResponseBody host message = .ok (frame (messageFields message)) := by
  have hlen := message_frame_length message
  rw [← build_fits host (fits_messageFields h) (by unfold valueLimit at h; omega)]
  unfold buildTestResponseBody
  simp [messageFields, serializeString_eq]

theorem buildDownloadResponseBody_eq {r : DownloadResponseTransfer} (hname : r.fileName.length ≤ valueLimit)
    (hmd5 : r.md5Code.length ≤ valueLimit) :
    buildDownloadResponseBody host r.taskId r.fileId r.fileName r.fileSize r.md5Code =
      .ok (frame (downloadResponseFields host r)) := by
  have hlen := downloadResponse_frame_length host r
  rw [← build_fits host (fits_downloadResponseFields host hname hmd5) (by unfold valueLimit at hname hmd5; omega)]
  unfold buildDownloadResponseBody
  simp [downloadResponseFields, serializeValue_eq, serializeString_eq]

theorem buildBlockResponseBody_eq {r : BlockResponseTransfer} (h : r.data.length ≤ valueLimit) :
    buildBlockResponseBody host r.blockId r.fileId r.taskId r.offset r.blockSize r.data =
      .ok (blockResponseBody host r) := by
  have hlt : 10 + r.data.length < 2 ^ 32 := by unfold valueLimit at h; omega
  rw [blockResponseBody, ← build_vector host (fits_blockResponseHead host r)
    (by rw [blockResponseHead_length host]; norm_num) (by decide) hlt]
  unfold buildBlockResponseBody
  simp [blockResponseHead, serializeValue_eq,
    serializeVector_eq _ _ _ (show 10 + Scalar.width UInt8 * r.data.length < 2 ^ 32 by simpa using hlt)]

/-- A message is no block response. -/
theorem parse_block_message {message : Bytes} (h : message.length ≤ valueLimit) :
    (ClientMessageCodec.tryParseByteArrayBlockResponse host (frame (messageFields message))).run = .ok none := by
  have hlen := message_frame_length message
  obtain ⟨c, hc, hget⟩ := deserialize_new host (fits_messageFields h) (by simp [messageFields])
    (by unfold valueLimit at h; omega)
  unfold ClientMessageCodec.tryParseByteArrayBlockResponse
  rw [hc]
  simp +decide [hget, messageFields, Parse.required]

/-- For a download response it is taken, with no member of its own. -/
theorem parse_download_message {message : Bytes} (h : message.length ≤ valueLimit) :
    (ClientMessageCodec.tryParseByteArrayDownloadResponse host text (frame (messageFields message))).run =
      .ok (some {}) := by
  have hlen := message_frame_length message
  obtain ⟨c, hc, hget⟩ := deserialize_new host (fits_messageFields h) (by simp [messageFields])
    (by unfold valueLimit at h; omega)
  unfold ClientMessageCodec.tryParseByteArrayDownloadResponse
  rw [hc]
  simp +decide [hget, messageFields, Parse.optional, lenient]

/-! ## There and back -/

/-- A request that the client builds is one frame. It is answered by one frame, under its id
and with this status, and this is what the client makes of the response. -/
def Exchanged {α : Type} (host : Endian) (text : SerializeField → Bytes) (config : ServerConfig) (fs : FileSystem)
    (kFiles : Option (List Bytes)) (built : Checked Bytes) (requestId : Int64) (status : ResponseStatus)
    (parse : Bytes → Parse α) (outcome : Option α) : Prop :=
  ∃ bytes respFrame kFiles' body, built = .ok bytes ∧ WireFrame bytes ∧
    respond host text config fs kFiles bytes = .ok (respFrame, kFiles') ∧ WireFrame respFrame ∧
    (∀ fresh, (ClientMessageCodec.tryParseByteArrayResponse host fresh respFrame).run =
      .ok (some ⟨1, requestId.toUInt64, status, .daneJoe, body⟩)) ∧
    (parse body).run = .ok outcome

variable (requestId : Int64)

/-- A request is exchanged, if it is built and dispatched so. -/
theorem exchanged_of_dispatch {α : Type} {requestType : UInt8} {path body respBody : Bytes}
    {built : Checked Bytes}
    {status : ResponseStatus} {kFiles' : Option (List Bytes)} {parse : Bytes → Parse α} {outcome : Option α}
    (hbuilt : built = ClientMessageCodec.buildRequestByteArray host
      ⟨1, requestId.toUInt64, requestType, path, .daneJoe, body⟩)
    (hpath : path.length ≤ valueLimit) (hbody : 2 ≤ body.length) (hfit : 10 + body.length ≤ valueLimit)
    (hdispatched : dispatchRequest host text config fs kFiles
      ⟨1, requestId.toUInt64, requestType, path, .daneJoe, body⟩ =
        .ok (⟨1, requestId.toUInt64, status, .daneJoe, respBody⟩, kFiles'))
    (hrespBody : 2 ≤ respBody.length) (hlt : 10 + respBody.length < 2 ^ 32)
    (hparse : (parse (arrivingBody respBody)).run = .ok outcome) :
    Exchanged host text config fs kFiles built requestId status parse outcome := by
  have hlong : 10 + body.length < 2 ^ 32 := by unfold valueLimit at hfit; omega
  have hbytes := buildRequestByteArray_eq host ⟨1, requestId.toUInt64, requestType, path, .daneJoe, body⟩
    hpath hbody hlong
  obtain ⟨respFrame, hresp, hframe, hparsed⟩ := response_built host
    ⟨1, requestId.toUInt64, status, .daneJoe, respBody⟩ hrespBody hlt
  refine ⟨_, respFrame, kFiles', _, hbuilt.trans hbytes, ?_, ?_, hframe, hparsed, hparse⟩
  · exact request_wireFrame host hpath hbody hlong hbytes
  · unfold respond
    -- the envelope is parsed, dispatched, and the response built, one after the other
    rw [tryParseEnvelopeRequest_eq host text _ hpath hfit, Checked.ok_bind]
    dsimp only
    rw [hdispatched, Checked.ok_bind]
    dsimp only
    rw [hresp]
    rfl

/-- What the client gets for a block request. -/
def fetched (config : ServerConfig) (fs : FileSystem) (kFiles : Option (List Bytes)) (r : BlockRequestTransfer) :
    Option BlockResponseTransfer :=
  (resolvedPath config fs kFiles r.fileId).1.bind fun path =>
    let read := readBlock (fs.fileSize path) (fs.openFile path) r.offset r.blockSize
    arrivingBlock ⟨r.blockId, r.fileId, r.taskId, read.offset, read.blockSize, read.data⟩

/-- No more is read than was asked for. -/
theorem readBlock_data_le (fileSize : Option Int64) (content : Option Bytes) (offset blockSize : Int64) :
    (readBlock fileSize content offset blockSize).data.length ≤ blockSize.toInt.toNat := by
  unfold readBlock
  cases content with
  | none => exact Nat.zero_le _
  | some content =>
    dsimp only
    rw [List.length_take, toInt_atMost, toInt_atLeast_zero, toInt_atLeast_zero]
    omega

/-- The body of a block request is read as it was sent. -/
theorem dispatchRequest_block (r : BlockRequestTransfer) (version : UInt16) (id : UInt64) (requestType : UInt8)
    (contentType : ContentType) :
    let req : EnvelopeRequestTransfer :=
      ⟨version, id, requestType, ascii "/block", contentType, frame (blockRequestFields host r)⟩
    let resolved := resolvedPath config fs kFiles r.fileId
    dispatchRequest host text config fs kFiles req =
      (blockResponse host fs req r.blockId r.fileId r.taskId r.offset r.blockSize resolved.1).map fun resp =>
        (resp, resolved.2) := by
  intro req resolved
  obtain ⟨c, hc, hget⟩ := deserialize_new host (fits_blockRequestFields host r)
    (by simp [blockRequestFields]) (by rw [blockRequest_frame_length host]; norm_num)
  have htest : ascii "/block" ≠ ascii "/test" := by decide
  have hdownload : ascii "/block" ≠ ascii "/download" := by decide
  unfold dispatchRequest
  rw [if_neg htest, if_neg hdownload, if_pos rfl, hc, Checked.ok_bind]
  have hblockId : lenient host (c.getParsedField (ascii "block_id")) (1 : Int64) = r.blockId := by
    simp +decide [hget, blockRequestFields, lenient]
  have hfileId : lenient host (c.getParsedField (ascii "file_id")) (1 : Int64) = r.fileId := by
    simp +decide [hget, blockRequestFields, lenient]
  have htaskId : lenient host (c.getParsedField (ascii "task_id")) (-1 : Int64) = r.taskId := by
    simp +decide [hget, blockRequestFields, lenient]
  have hoffset : lenient host (c.getParsedField (ascii "offset")) (0 : Int64) = r.offset := by
    simp +decide [hget, blockRequestFields, lenient]
  have hblockSize : lenient host (c.getParsedField (ascii "block_size")) (1024 : Int64) = r.blockSize := by
    simp +decide [hget, blockRequestFields, lenient]
  rw [hblockId, hfileId, htaskId, hoffset, hblockSize]
  rfl

/-- **A block request and its response.** -/
theorem block_exchanged {r : BlockRequestTransfer} (hhigh : r.blockSize.toInt ≤ valueLimit) :
    Exchanged host text config fs kFiles
      (ClientMessageCodec.buildBlockRequestByteArray host r requestId) requestId
      (if (resolvedPath config fs kFiles r.fileId).1 = none then .notFound else .ok)
      (ClientMessageCodec.tryParseByteArrayBlockResponse host) (fetched config fs kFiles r) := by
  have hlen := blockRequest_frame_length host r
  have hbuilt := request_built host (fits_blockRequestFields host r) (by rw [hlen]; norm_num)
    fun body => ⟨1, requestId.toUInt64, 0, ascii "/block", .daneJoe, body⟩
  have heq : ClientMessageCodec.buildBlockRequestByteArray host r requestId = _ :=
    Eq.trans
      (by simp [ClientMessageCodec.buildBlockRequestByteArray, blockRequestFields, serializeValue_eq]) hbuilt
  have hdispatched := dispatchRequest_block host text config fs kFiles r 1 requestId.toUInt64 0 .daneJoe
  unfold fetched
  cases hpath : (resolvedPath config fs kFiles r.fileId).1 with
  | none =>
    -- no such file: the answer has the body of a test response
    have hmessage : (ascii "file_id not found").length ≤ valueLimit := by decide
    have hbody := buildTestResponseBody_eq host hmessage
    simp only [hpath, blockResponse, hbody, Checked.ok_bind] at hdispatched
    refine exchanged_of_dispatch host text config fs kFiles requestId heq (by decide) (by rw [hlen]; norm_num)
      (by rw [hlen]; decide) hdispatched (by decide) (by decide) ?_
    rw [arrivingBody, if_pos (by decide)]
    exact parse_block_message host hmessage
  | some path =>
    set read := readBlock (fs.fileSize path) (fs.openFile path) r.offset r.blockSize with hread
    -- no more is read than was asked for
    have hdata : read.data.length ≤ valueLimit := by
      have hle := readBlock_data_le (fs.fileSize path) (fs.openFile path) r.offset r.blockSize
      rw [← hread] at hle
      omega
    have hbody := buildBlockResponseBody_eq host (r := ⟨r.blockId, r.fileId, r.taskId, read.offset,
      read.blockSize, read.data⟩) hdata
    obtain ⟨hshort, hlong⟩ := blockResponseBody_bounds host
      (r := ⟨r.blockId, r.fileId, r.taskId, read.offset, read.blockSize, read.data⟩) hdata
    simp only [hpath, blockResponse, ← hread, hbody, Checked.ok_bind] at hdispatched
    refine exchanged_of_dispatch host text config fs kFiles requestId heq (by decide) (by rw [hlen]; norm_num)
      (by rw [hlen]; decide) hdispatched (by omega) (by unfold valueLimit at hlong; omega) ?_
    exact parse_arrivingBlock host hdata

/-- What the client gets for a download request; without a file its members are at their defaults. -/
def offered (config : ServerConfig) (fs : FileSystem) (kFiles : Option (List Bytes))
    (r : DownloadRequestTransfer) : DownloadResponseTransfer :=
  match (resolvedPath config fs kFiles r.fileId).1 with
  | none => {}
  | some path => arrivingDownload ⟨r.fileId, r.taskId, filename path, (fs.fileSize path).getD 0, []⟩

/-- The body of a download request is read as it was sent. -/
theorem dispatchRequest_download (r : DownloadRequestTransfer) (version : UInt16) (id : UInt64)
    (requestType : UInt8) (contentType : ContentType) :
    let req : EnvelopeRequestTransfer :=
      ⟨version, id, requestType, ascii "/download", contentType, frame (downloadRequestFields host r)⟩
    let resolved := resolvedPath config fs kFiles r.fileId
    dispatchRequest host text config fs kFiles req =
      (downloadResponse host fs req r.taskId r.fileId resolved.1).map fun resp => (resp, resolved.2) := by
  intro req resolved
  obtain ⟨c, hc, hget⟩ := deserialize_new host (fits_downloadRequestFields host r)
    (by simp [downloadRequestFields]) (by rw [downloadRequest_frame_length host]; norm_num)
  have htest : ascii "/download" ≠ ascii "/test" := by decide
  unfold dispatchRequest
  rw [if_neg htest, if_pos rfl, hc, Checked.ok_bind]
  have htaskId : lenient host (c.getParsedField (ascii "task_id")) (-1 : Int64) = r.taskId := by
    simp +decide [hget, downloadRequestFields, lenient]
  have hfileId : lenient host (c.getParsedField (ascii "file_id")) (1 : Int64) = r.fileId := by
    simp +decide [hget, downloadRequestFields, lenient]
  rw [htaskId, hfileId]
  rfl

/-- **A download request and its response.** -/
theorem download_exchanged {r : DownloadRequestTransfer}
    (hname : ∀ path, (resolvedPath config fs kFiles r.fileId).1 = some path →
      (filename path).length ≤ valueLimit) :
    Exchanged host text config fs kFiles
      (ClientMessageCodec.buildDownloadRequestByteArray host r requestId) requestId
      (if (resolvedPath config fs kFiles r.fileId).1 = none then .notFound else .ok)
      (ClientMessageCodec.tryParseByteArrayDownloadResponse host text) (some (offered config fs kFiles r)) := by
  have hlen := downloadRequest_frame_length host r
  have hbuilt := request_built host (fits_downloadRequestFields host r) (by rw [hlen]; norm_num)
    fun body => ⟨1, requestId.toUInt64, 0, ascii "/download", .daneJoe, body⟩
  have heq : ClientMessageCodec.buildDownloadRequestByteArray host r requestId = _ :=
    Eq.trans
      (by simp [ClientMessageCodec.buildDownloadRequestByteArray, downloadRequestFields, serializeValue_eq])
      hbuilt
  have hdispatched := dispatchRequest_download host text config fs kFiles r 1 requestId.toUInt64 0 .daneJoe
  unfold offered
  cases hpath : (resolvedPath config fs kFiles r.fileId).1 with
  | none =>
    have hmessage : (ascii "file_id not found").length ≤ valueLimit := by decide
    have hbody := buildTestResponseBody_eq host hmessage
    simp only [hpath, downloadResponse, hbody, Checked.ok_bind] at hdispatched
    refine exchanged_of_dispatch host text config fs kFiles requestId heq (by decide) (by rw [hlen]; norm_num)
      (by rw [hlen]; decide) hdispatched (by decide) (by decide) ?_
    rw [arrivingBody, if_pos (by decide)]
    exact parse_download_message host text hmessage
  | some path =>
    have hfits := hname path hpath
    set answer : DownloadResponseTransfer := ⟨r.fileId, r.taskId, filename path, (fs.fileSize path).getD 0, []⟩
      with hanswer
    have hmd5 : answer.md5Code.length ≤ valueLimit := Nat.zero_le _
    have hframe := downloadResponse_frame_length host answer
    have hlt : (frame (downloadResponseFields host answer)).length + 10 < 2 ^ 32 := by
      have hnil : answer.md5Code.length = 0 := rfl
      have hsame : answer.fileName = filename path := rfl
      rw [hframe, hnil, hsame]
      unfold valueLimit at hfits
      omega
    have hbody : buildDownloadResponseBody host r.taskId r.fileId (filename path)
      ((fs.fileSize path).getD 0) [] = _ :=
      buildDownloadResponseBody_eq host (r := answer) hfits hmd5
    simp only [hpath, downloadResponse, hbody, Checked.ok_bind] at hdispatched
    refine exchanged_of_dispatch host text config fs kFiles requestId heq (by decide) (by rw [hlen]; norm_num)
      (by rw [hlen]; decide) hdispatched (by omega) (by omega) ?_
    show _ = (Except.ok (some (arrivingDownload answer)) : Checked _)
    unfold arrivingBody arrivingDownload
    by_cases hshort : answer.fileName.length + answer.md5Code.length + 118 ≤ valueLimit
    · rw [if_pos hshort, if_pos (by omega)]
      exact tryParseByteArrayDownloadResponse_eq host hfits hmd5
    · rw [if_neg hshort, if_neg (by omega)]
      exact tryParseByteArrayDownloadResponse_nil host

/-- **A test request and its response.** -/
theorem test_exchanged {r : TestRequestTransfer} (h : r.message.length + 41 ≤ valueLimit) :
    Exchanged host text config fs kFiles
      (ClientMessageCodec.buildTestRequestByteArray host r requestId) requestId .ok
      (ClientMessageCodec.tryParseByteArrayTestResponse host text)
      (arrivingTest ⟨ascii "echo: " ++ r.message⟩) := by
  have hlen := message_frame_length r.message
  set message := ascii "echo: " ++ r.message with hmessage
  have hecho : message.length = 6 + r.message.length := by rw [hmessage, List.length_append]; rfl
  have hframe := message_frame_length message
  have hsmall : (frame (messageFields message)).length + 10 < 2 ^ 32 := by
    unfold valueLimit at h
    omega
  have hfits : Fits (messageFields r.message) := fits_messageFields (by omega)
  obtain ⟨c, hc, hget⟩ := deserialize_new host hfits (by simp [messageFields]) (by unfold valueLimit at h; omega)
  -- the message is read as it was sent
  have hmsg : ((c.getParsedField (ascii "message")).map (fieldToString text)).getD
      (ascii "<empty>") = r.message := by
    simp +decide [hget, messageFields, fieldToString]
  have hdispatched : dispatchRequest host text config fs kFiles
      ⟨1, requestId.toUInt64, 1, ascii "/test", .daneJoe, frame (messageFields r.message)⟩ =
        .ok (⟨1, requestId.toUInt64, .ok, .daneJoe, frame (messageFields message)⟩, kFiles) := by
    unfold dispatchRequest testResponse
    rw [if_pos rfl, hc, Checked.ok_bind]
    dsimp only
    rw [hmsg, ← hmessage, buildTestResponseBody_eq host (by omega)]
    rfl
  refine exchanged_of_dispatch host text config fs kFiles requestId
    (buildTestRequestByteArray_eq host requestId (by omega)) (by decide) (by omega)
    (by omega) hdispatched (by omega)
    (by omega) ?_
  unfold arrivingBody arrivingTest
  dsimp only
  by_cases hshort : message.length + 41 ≤ valueLimit
  · rw [if_pos hshort, if_pos (by omega)]
    exact tryParseByteArrayTestResponse_eq host (by omega)
  · rw [if_neg hshort, if_neg (by omega)]
    exact tryParseByteArrayTestResponse_nil host

/-! ## The two servers -/

/-- A block in the file is read where it was asked for, and as a whole. -/
theorem readBlock_inFile {content : Bytes} (hlength : content.length < 2 ^ 63) {offset size : Int64}
    (h : InFile content offset size) :
    readBlock (some (.ofNat content.length)) (some content) offset size =
      ⟨offset, size, fileBytes content offset size⟩ := by
  have hin := inFile_iff.1 h
  have hfile : (Int64.ofNat content.length).toInt = content.length := Int64.toInt_ofNat_of_lt hlength
  -- inside the file neither end of the offset is cut off
  have hmoved : (if (if offset < 0 then 0 else offset) > Int64.ofNat content.length then
      Int64.ofNat content.length else if offset < 0 then 0 else offset) = offset := by
    apply Int64.toInt_inj.1
    rw [toInt_atMost, toInt_atLeast_zero, hfile]
    omega
  have hrest : (Int64.ofNat content.length - offset).toInt = content.length - offset.toInt := by
    rw [Int64.toInt_sub, hfile, Int.bmod_eq_of_le]
    all_goals omega
  obtain ⟨hdata, hsize⟩ := readBlock_exact content hlength offset size
  have hoffset : (readBlock (some (.ofNat content.length)) (some content) offset size).offset = offset := hmoved
  rw [hoffset] at hdata
  have hall : (fileBytes content offset size).length = size.toInt.toNat :=
    (fileBytes_length_eq_iff (Int64.le_of_lt h.2.1)).2 (.inr h)
  have hwhole : (readBlock (some (.ofNat content.length)) (some content) offset size).blockSize = size := by
    apply Int64.toInt_inj.1
    rw [hsize, hdata, hall]
    omega
  generalize readBlock _ _ offset size = read at hoffset hwhole hdata ⊢
  rw [← hdata, ← hwhole, ← hoffset]

variable {host text config fs kFiles} {requestId}

/-- What arrives of a block is nothing, no data, or what the file has where the response says. -/
theorem fetched_exact {r : BlockRequestTransfer} {path content : Bytes} {response : BlockResponseTransfer}
    (hpath : (resolvedPath config fs kFiles r.fileId).1 = some path) (hopens : fs.openFile path = some content)
    (hsize : fs.fileSize path = some (.ofNat content.length)) (hlength : content.length < 2 ^ 63)
    (h : fetched config fs kFiles r = some response) :
    response.data = [] ∨ response.data = fileBytes content response.offset r.blockSize ∧
      response.blockSize.toInt = response.data.length := by
  unfold fetched at h
  rw [hpath, Option.bind_some, hopens, hsize] at h
  have hexact := readBlock_exact content hlength r.offset r.blockSize
  generalize readBlock _ _ r.offset r.blockSize = read at h hexact
  unfold arrivingBlock at h
  dsimp only at h
  split at h
  · rw [← Option.some.inj h]
    -- one byte comes without data
    exact .inl rfl
  · split at h
    · rw [← Option.some.inj h]
      exact .inr hexact
    · cases h

/-- **A block that is in the file** is fetched as from the other server. -/
theorem fetched_inFile {r : BlockRequestTransfer} {path content : Bytes} {files : FileService}
    (hpath : (resolvedPath config fs kFiles r.fileId).1 = some path) (hopens : fs.openFile path = some content)
    (hsize : fs.fileSize path = some (.ofNat content.length)) (hlength : content.length < 2 ^ 63)
    (hcontent : files.content r.fileId = some content) (hin : InFile content r.offset r.blockSize) :
    fetched config fs kFiles r = ProjectTrans.fetched files r := by
  have hread := BusinessRuntime.readInto_eq_fileBytes hin
    (List.length_replicate (n := r.blockSize.toInt.toNat) (a := (0 : UInt8)))
  unfold fetched ProjectTrans.fetched
  rw [hpath, Option.bind_some, hopens, hsize, answer_of_content hcontent, hread, readBlock_inFile hlength hin]

variable (host text config fs kFiles) (requestId)

/-- **Either server**: every request that the client builds is answered by the simple server
too, a block request whatever its offset and whether or not its size is below zero. What
arrives of a block is what the file has where the response says, and for a block that is in
the file it is what arrives from the other server. -/
theorem servers_agree :
    (∀ r : BlockRequestTransfer, r.blockSize.toInt ≤ valueLimit →
      Exchanged host text config fs kFiles
        (ClientMessageCodec.buildBlockRequestByteArray host r requestId) requestId
        (if (resolvedPath config fs kFiles r.fileId).1 = none then .notFound else .ok)
        (ClientMessageCodec.tryParseByteArrayBlockResponse host) (fetched config fs kFiles r) ∧
      ∀ path content, (resolvedPath config fs kFiles r.fileId).1 = some path → fs.openFile path = some content →
        fs.fileSize path = some (.ofNat content.length) → content.length < 2 ^ 63 →
          (∀ response, fetched config fs kFiles r = some response → response.data = [] ∨
            response.data = fileBytes content response.offset r.blockSize ∧
              response.blockSize.toInt = response.data.length) ∧
          ∀ files : FileService, files.content r.fileId = some content → InFile content r.offset r.blockSize →
            fetched config fs kFiles r = ProjectTrans.fetched files r) ∧
    (∀ r : DownloadRequestTransfer,
      (∀ path, (resolvedPath config fs kFiles r.fileId).1 = some path → (filename path).length ≤ valueLimit) →
        Exchanged host text config fs kFiles
          (ClientMessageCodec.buildDownloadRequestByteArray host r requestId) requestId
          (if (resolvedPath config fs kFiles r.fileId).1 = none then .notFound else .ok)
          (ClientMessageCodec.tryParseByteArrayDownloadResponse host text) (some (offered config fs kFiles r))) ∧
    ∀ r : TestRequestTransfer, r.message.length + 41 ≤ valueLimit →
      Exchanged host text config fs kFiles
        (ClientMessageCodec.buildTestRequestByteArray host r requestId) requestId .ok
        (ClientMessageCodec.tryParseByteArrayTestResponse host text)
        (arrivingTest ⟨ascii "echo: " ++ r.message⟩) := by
  refine ⟨fun r hhigh => ⟨?_, fun path content hpath hopens hsize hlength => ⟨?_, ?_⟩⟩, ?_, ?_⟩
  · exact block_exchanged host text config fs kFiles requestId hhigh
  · exact fun response h => fetched_exact hpath hopens hsize hlength h
  · exact fun files hcontent hin => fetched_inFile hpath hopens hsize hlength hcontent hin
  · exact fun r hname => download_exchanged host text config fs kFiles requestId hname
  · exact fun r h => test_exchanged host text config fs kFiles requestId h

/-- Five bytes are asked for from the second on, of a file of three. -/
theorem servers_agree_clamped :
    let fs : FileSystem := ⟨fun _ => [], fun _ => some 3, fun _ => some [0x41, 0x42, 0x43]⟩
    Exchanged .little (fun _ => []) { fixtureFilePath := ascii "f" } fs none
        (ClientMessageCodec.buildBlockRequestByteArray .little ⟨3, 1, 2, 1, 5⟩ 7) 7 .ok
        (ClientMessageCodec.tryParseByteArrayBlockResponse .little)
        (fetched { fixtureFilePath := ascii "f" } fs none ⟨3, 1, 2, 1, 5⟩) ∧
      fetched { fixtureFilePath := ascii "f" } fs none ⟨3, 1, 2, 1, 5⟩ = some ⟨3, 1, 2, 1, 2, [0x42, 0x43]⟩ ∧
      fetched { fixtureFilePath := ascii "f" } fs none ⟨3, 1, 2, 1, 2⟩ =
        ProjectTrans.fetched threeByteFile ⟨3, 1, 2, 1, 2⟩ := by
  intro fs
  have hagree := servers_agree .little (fun _ => []) { fixtureFilePath := ascii "f" } fs none 7
  obtain ⟨hexchanged, -⟩ := hagree.1 ⟨3, 1, 2, 1, 5⟩ (by decide)
  obtain ⟨-, hsame⟩ := hagree.1 ⟨3, 1, 2, 1, 2⟩ (by decide)
  obtain ⟨-, hfetched⟩ := hsame (ascii "f") [0x41, 0x42, 0x43] rfl rfl rfl (by decide)
  exact ⟨hexchanged, by decide, hfetched threeByteFile (by decide) (by decide)⟩

end SimpleServer

end ProjectTrans
