import ProjectTrans.Proof.Protocol.Envelope

/-!
# Requests arrive

`requests_delivered`: a block, download or test request built by the client is parsed
by the server into the same request, under the path it dispatches on. A test message is
delivered as long as the encoded body fits the value limit; a longer one arrives without
its body (`testRequest_lost`).
-/

namespace ProjectTrans

open Wire SerializeCodec

variable (host : Endian) {text : SerializeField → Bytes} {fresh : EnvelopeRequestTransfer}

/-- The lengths of the member names of the bodies. -/
theorem body_names :
    (ascii "block_id").length = 8 ∧ (ascii "file_id").length = 7 ∧ (ascii "task_id").length = 7 ∧
      (ascii "offset").length = 6 ∧ (ascii "block_size").length = 10 ∧ (ascii "data").length = 4 ∧
      (ascii "file_name").length = 9 ∧ (ascii "file_size").length = 9 ∧ (ascii "md5_code").length = 8 ∧
      (ascii "message").length = 7 := by decide

/-- A message of fields that fit is their frame. -/
theorem build_fits {fs : List SerializeField} (hfits : Fits fs) (hlt : (frame fs).length < 2 ^ 32) :
    (do let c ← fs.foldlM (serialize host) (SerializeCodec.new .default)
        let (built, _) ← c.getSerializedDataVectorBuild host
        return built) = .ok (frame fs) := by
  have h := build_eq host .default (fun f hf => (hfits f (mem_kept hf)).1.toSized) (by rwa [hfits.kept])
  rwa [hfits.kept] at h

/-- A built request reaches the server: the envelope has the client's version, the type
and identifier given, a path dispatched to `kind`, and a body that parses to `request`. -/
def Delivered {α : Type} (host : Endian) (text : SerializeField → Bytes) (fresh : EnvelopeRequestTransfer)
    (built : Checked Bytes) (requestId : Int64) (requestType : UInt8) (kind : ServerMessageCodec.Route)
    (parse : Bytes → Parse α) (request : α) : Prop :=
  ∃ bytes env, built = .ok bytes ∧
    (ServerMessageCodec.tryParseByteArrayRequest host text fresh bytes).run = .ok (some env) ∧
    env.version = 1 ∧ env.requestType = requestType ∧ env.requestId = requestId.toUInt64 ∧
    ServerMessageCodec.route env.path = some kind ∧ (parse env.body).run = .ok (some request)

/-- The body of a request is built first, then put into the envelope. -/
theorem request_built {fs : List SerializeField} (hfits : Fits fs) (hlt : (frame fs).length < 2 ^ 32)
    (env : Bytes → EnvelopeRequestTransfer) :
    (do let c ← fs.foldlM (serialize host) (SerializeCodec.new .default)
        let (body, _) ← c.getSerializedDataVectorBuild host
        ClientMessageCodec.buildRequestByteArray host (env body)) =
      ClientMessageCodec.buildRequestByteArray host (env (frame fs)) := by
  rw [← Checked.ok_bind (frame fs) (fun body => ClientMessageCodec.buildRequestByteArray host (env body)),
    ← build_fits host hfits hlt]
  simp

/-- A request whose body fits is delivered if the body parses back. -/
theorem delivered_of_body {α : Type} {env : EnvelopeRequestTransfer} {requestId : Int64} {requestType : UInt8}
    {kind : ServerMessageCodec.Route} {parse : Bytes → Parse α} {request : α} {path body : Bytes}
    (henv : env = ⟨1, requestId.toUInt64, requestType, path, .daneJoe, body⟩)
    (hpath : path.length ≤ valueLimit) (hroute : ServerMessageCodec.route path = some kind)
    (hbody : 2 ≤ body.length) (hfit : 10 + body.length ≤ valueLimit)
    (hparse : (parse body).run = .ok (some request)) :
    Delivered host text fresh (ClientMessageCodec.buildRequestByteArray host env) requestId requestType kind
      parse request := by
  subst henv
  have hne : path ≠ [] := by
    rintro rfl
    exact absurd hroute (by decide +revert)
  have hparsed := tryParseByteArrayRequest_eq host text fresh
    ⟨1, requestId.toUInt64, requestType, path, .daneJoe, body⟩ hpath hne
  rw [if_pos hfit] at hparsed
  exact ⟨_, _, buildRequestByteArray_eq host _ hpath hbody (by unfold valueLimit at hfit; dsimp only; omega),
    hparsed, rfl, rfl, rfl, hroute, hparse⟩

/-- The fields of a block request. -/
def blockRequestFields (host : Endian) (r : BlockRequestTransfer) : List SerializeField :=
  [valueField host r.blockId (ascii "block_id"), valueField host r.fileId (ascii "file_id"),
    valueField host r.taskId (ascii "task_id"), valueField host r.offset (ascii "offset"),
    valueField host r.blockSize (ascii "block_size")]

theorem fits_blockRequestFields (r : BlockRequestTransfer) : Fits (blockRequestFields host r) :=
  ((((fits_nil.value _ (by decide)).value _ (by decide)).value _ (by decide)).value _ (by decide)).value _
    (by decide)

theorem blockRequest_frame_length (r : BlockRequestTransfer) :
    (frame (blockRequestFields host r)).length = 114 := by
  simp [frame_length, blockRequestFields, body_names]

theorem tryParseByteArrayBlockRequest_eq (r : BlockRequestTransfer) :
    (ServerMessageCodec.tryParseByteArrayBlockRequest host (frame (blockRequestFields host r))).run =
      .ok (some r) := by
  obtain ⟨c, hc, hget⟩ := deserialize_new host (fits_blockRequestFields host r)
    (by simp [blockRequestFields]) (by rw [blockRequest_frame_length host]; norm_num)
  unfold ServerMessageCodec.tryParseByteArrayBlockRequest
  rw [hc]
  simp +decide [hget, blockRequestFields, Parse.required, lenient]

/-- **A block request is delivered.** -/
theorem blockRequest_delivered (r : BlockRequestTransfer) (requestId : Int64) :
    Delivered host text fresh (ClientMessageCodec.buildBlockRequestByteArray host r requestId) requestId 0 .block
      (ServerMessageCodec.tryParseByteArrayBlockRequest host) r := by
  have hlen := blockRequest_frame_length host r
  have hbuilt := request_built host (fits_blockRequestFields host r) (by rw [hlen]; norm_num)
    fun body => ⟨1, requestId.toUInt64, 0, ascii "/block", .daneJoe, body⟩
  have h : ClientMessageCodec.buildBlockRequestByteArray host r requestId = _ :=
    Eq.trans
      (by simp [ClientMessageCodec.buildBlockRequestByteArray, blockRequestFields, serializeValue_eq]) hbuilt
  rw [h]
  exact delivered_of_body host rfl (by decide) (by decide) (by rw [hlen]; norm_num) (by rw [hlen]; decide)
    (tryParseByteArrayBlockRequest_eq host r)

/-- The fields of a download request. -/
def downloadRequestFields (host : Endian) (r : DownloadRequestTransfer) : List SerializeField :=
  [valueField host r.fileId (ascii "file_id"), valueField host r.taskId (ascii "task_id")]

theorem fits_downloadRequestFields (r : DownloadRequestTransfer) : Fits (downloadRequestFields host r) :=
  (fits_nil.value _ (by decide)).value _ (by decide)

theorem downloadRequest_frame_length (r : DownloadRequestTransfer) :
    (frame (downloadRequestFields host r)).length = 54 := by
  simp [frame_length, downloadRequestFields, body_names]

theorem tryParseByteArrayDownloadRequest_eq (r : DownloadRequestTransfer) :
    (ServerMessageCodec.tryParseByteArrayDownloadRequest host (frame (downloadRequestFields host r))).run =
      .ok (some r) := by
  obtain ⟨c, hc, hget⟩ := deserialize_new host (fits_downloadRequestFields host r)
    (by simp [downloadRequestFields]) (by rw [downloadRequest_frame_length host]; norm_num)
  unfold ServerMessageCodec.tryParseByteArrayDownloadRequest
  rw [hc]
  simp +decide [hget, downloadRequestFields, Parse.required, lenient]

/-- **A download request is delivered.** -/
theorem downloadRequest_delivered (r : DownloadRequestTransfer) (requestId : Int64) :
    Delivered host text fresh (ClientMessageCodec.buildDownloadRequestByteArray host r requestId) requestId 0
      .download (ServerMessageCodec.tryParseByteArrayDownloadRequest host) r := by
  have hlen := downloadRequest_frame_length host r
  have hbuilt := request_built host (fits_downloadRequestFields host r)
    (by rw [hlen]; norm_num) fun body => ⟨1, requestId.toUInt64, 0, ascii "/download", .daneJoe, body⟩
  have h : ClientMessageCodec.buildDownloadRequestByteArray host r requestId = _ :=
    Eq.trans
      (by simp [ClientMessageCodec.buildDownloadRequestByteArray, downloadRequestFields, serializeValue_eq])
      hbuilt
  rw [h]
  exact delivered_of_body host rfl (by decide) (by decide) (by rw [hlen]; norm_num) (by rw [hlen]; decide)
    (tryParseByteArrayDownloadRequest_eq host r)

/-! ## Test requests -/

/-- The fields of a test message. -/
def messageFields (message : Bytes) : List SerializeField := [stringField message (ascii "message")]

theorem fits_messageFields {message : Bytes} (h : message.length ≤ valueLimit) : Fits (messageFields message) :=
  fits_nil.string h (by decide)

theorem message_frame_length (message : Bytes) :
    (frame (messageFields message)).length = 31 + message.length := by
  simp [frame_length, messageFields, body_names]
  omega

theorem buildTestRequestByteArray_eq {r : TestRequestTransfer} (requestId : Int64)
    (h : r.message.length ≤ valueLimit) :
    ClientMessageCodec.buildTestRequestByteArray host r requestId =
      ClientMessageCodec.buildRequestByteArray host
        ⟨1, requestId.toUInt64, 1, ascii "/test", .daneJoe, frame (messageFields r.message)⟩ := by
  have hlen := message_frame_length r.message
  have hbuilt := request_built host (fits_messageFields h) (by unfold valueLimit at h; omega)
    fun body => ⟨1, requestId.toUInt64, 1, ascii "/test", .daneJoe, body⟩
  refine Eq.trans ?_ hbuilt
  simp [ClientMessageCodec.buildTestRequestByteArray, messageFields, serializeString_eq]

theorem tryParseByteArrayTestRequest_eq {message : Bytes} (h : message.length ≤ valueLimit) :
    (ServerMessageCodec.tryParseByteArrayTestRequest host text (frame (messageFields message))).run =
      .ok (some ⟨message⟩) := by
  have hlen := message_frame_length message
  obtain ⟨c, hc, hget⟩ := deserialize_new host (fits_messageFields h) (by simp [messageFields])
    (by unfold valueLimit at h; omega)
  unfold ServerMessageCodec.tryParseByteArrayTestRequest
  rw [hc]
  simp +decide [hget, messageFields, fieldToString]

/-- **A test request is delivered** when its encoded body fits the value limit. -/
theorem testRequest_delivered {r : TestRequestTransfer} (requestId : Int64)
    (h : r.message.length + 41 ≤ valueLimit) :
    Delivered host text fresh (ClientMessageCodec.buildTestRequestByteArray host r requestId) requestId 1 .test
      (ServerMessageCodec.tryParseByteArrayTestRequest host text) r := by
  have hlen := message_frame_length r.message
  rw [buildTestRequestByteArray_eq host requestId (by omega)]
  exact delivered_of_body host rfl (by decide) (by decide) (by omega) (by omega)
    (tryParseByteArrayTestRequest_eq host (by omega))

/-- An empty body has no message. -/
theorem tryParseByteArrayTestRequest_nil :
    (ServerMessageCodec.tryParseByteArrayTestRequest host text []).run = .ok none := by
  rfl

/-- A longer message is lost: the envelope arrives without its body. -/
theorem testRequest_lost {r : TestRequestTransfer} (requestId : Int64) (h : r.message.length ≤ valueLimit)
    (hlong : valueLimit < r.message.length + 41) :
    ¬Delivered host text fresh (ClientMessageCodec.buildTestRequestByteArray host r requestId) requestId 1 .test
      (ServerMessageCodec.tryParseByteArrayTestRequest host text) r := by
  have hlen := message_frame_length r.message
  have hpath : (ascii "/test").length ≤ valueLimit := by decide
  rintro ⟨bytes, env, hbuilt, henv, -, -, -, -, hparse⟩
  rw [buildTestRequestByteArray_eq host requestId h, buildRequestByteArray_eq host _ hpath (by dsimp only; omega)
    (by unfold valueLimit at h; dsimp only; omega)] at hbuilt
  have hparsed := tryParseByteArrayRequest_eq host text fresh
    ⟨1, requestId.toUInt64, 1, ascii "/test", .daneJoe, frame (messageFields r.message)⟩ hpath
    (show ascii "/test" ≠ [] by decide)
  rw [Except.ok.inj hbuilt, henv, if_neg (by dsimp only; omega)] at hparsed
  have hbody : env.body = [] := by rw [Option.some.inj (Except.ok.inj hparsed)]
  rw [hbody, tryParseByteArrayTestRequest_nil host] at hparse
  cases hparse

/-- **Requests are delivered**: every block and every download request, and every test
request whose encoded body fits the value limit. -/
theorem requests_delivered (host : Endian) (text : SerializeField → Bytes) (fresh : EnvelopeRequestTransfer)
    (requestId : Int64) :
    (∀ r, Delivered host text fresh (ClientMessageCodec.buildBlockRequestByteArray host r requestId) requestId 0
        .block (ServerMessageCodec.tryParseByteArrayBlockRequest host) r) ∧
      (∀ r, Delivered host text fresh (ClientMessageCodec.buildDownloadRequestByteArray host r requestId)
        requestId 0 .download (ServerMessageCodec.tryParseByteArrayDownloadRequest host) r) ∧
      ∀ r : TestRequestTransfer, r.message.length + 41 ≤ valueLimit →
        Delivered host text fresh
          (ClientMessageCodec.buildTestRequestByteArray host r requestId) requestId 1 .test
          (ServerMessageCodec.tryParseByteArrayTestRequest host text) r :=
  ⟨fun r => blockRequest_delivered host r requestId, fun r => downloadRequest_delivered host r requestId,
    fun _ h => testRequest_delivered host requestId h⟩

theorem requests_delivered_hello :
    Delivered .little (fun _ => []) ⟨0, 0, 0, [], .json, []⟩
      (ClientMessageCodec.buildTestRequestByteArray .little ⟨ascii "hello"⟩ 7) 7 1 .test
      (ServerMessageCodec.tryParseByteArrayTestRequest .little fun _ => []) ⟨ascii "hello"⟩ :=
  (requests_delivered .little (fun _ => []) ⟨0, 0, 0, [], .json, []⟩ 7).2.2 ⟨ascii "hello"⟩ (by decide)

/-- A test message of exactly the value limit. -/
def longestMessage : TestRequestTransfer := ⟨List.replicate valueLimit 0⟩

/-- The longest message within the value limit is not delivered. -/
theorem longestMessage_lost :
    ¬Delivered .little (fun _ => []) ⟨0, 0, 0, [], .json, []⟩
      (ClientMessageCodec.buildTestRequestByteArray .little longestMessage 7) 7 1 .test
      (ServerMessageCodec.tryParseByteArrayTestRequest .little fun _ => []) longestMessage :=
  testRequest_lost .little 7 (by rw [longestMessage, List.length_replicate])
    (by rw [longestMessage, List.length_replicate]; omega)

end ProjectTrans
