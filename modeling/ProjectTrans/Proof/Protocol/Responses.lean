import ProjectTrans.Proof.Protocol.Requests

/-!
# When responses arrive

`responses_answered`: a download or test response is parsed by the client into the same
response exactly when its encoded body fits the value limit; a block response moreover
needs at least two bytes of data. No data is left out of the message, and a single byte
is sent as a plain value, which the reader of arrays does not take.
-/

namespace ProjectTrans

open Wire SerializeCodec

variable (host : Endian) {text : SerializeField → Bytes} {fresh : EnvelopeResponseTransfer}

/-- A built response reaches the client: the envelope has the identifier given, status `Ok`
and the content type of the codec, and a body that parses to `response`. -/
def Answered {α : Type} (host : Endian) (fresh : EnvelopeResponseTransfer) (built : Checked Bytes)
    (requestId : Int64) (parse : Bytes → Parse α) (response : α) : Prop :=
  ∃ bytes env, built = .ok bytes ∧
    (ClientMessageCodec.tryParseByteArrayResponse host fresh bytes).run = .ok (some env) ∧
    env.requestId = requestId.toUInt64 ∧ env.status = .ok ∧ env.contentType = .daneJoe ∧
    (parse env.body).run = .ok (some response)

/-- The body that arrives: none when its encoding exceeds the limit. -/
def arrivingBody (body : Bytes) : Bytes := if 10 + body.length ≤ valueLimit then body else []

/-- A response arrives exactly if what arrives of its body parses back. -/
theorem answered_iff {α : Type} {requestId : Int64} {parse : Bytes → Parse α} {response : α} {body : Bytes}
    (hbody : 2 ≤ body.length) (hlt : 10 + body.length < 2 ^ 32) :
    Answered host fresh (ServerMessageCodec.buildResponseByteArray host
        (ServerMessageCodec.okEnvelope requestId body)) requestId parse response ↔
      (parse (arrivingBody body)).run = .ok (some response) := by
  have hbuilt := buildResponseByteArray_eq host (ServerMessageCodec.okEnvelope requestId body) hbody hlt
  have hparsed := tryParseByteArrayResponse_eq host fresh (ServerMessageCodec.okEnvelope requestId body)
  constructor
  · rintro ⟨bytes, env, h, henv, -, -, -, hparse⟩
    rw [hbuilt] at h
    rw [Except.ok.inj h, henv] at hparsed
    rw [Option.some.inj (Except.ok.inj hparsed)] at hparse
    exact hparse
  · intro h
    exact ⟨_, _, hbuilt, hparsed, rfl, rfl, rfl, h⟩

/-! ## Block responses -/

/-- The fields of a block response in front of its data. -/
def blockResponseHead (host : Endian) (r : BlockResponseTransfer) : List SerializeField :=
  [valueField host r.blockId (ascii "block_id"), valueField host r.fileId (ascii "file_id"),
    valueField host r.taskId (ascii "task_id"), valueField host r.offset (ascii "offset"),
    valueField host r.blockSize (ascii "block_size")]

theorem fits_blockResponseHead (r : BlockResponseTransfer) : Fits (blockResponseHead host r) :=
  ((((fits_nil.value _ (by decide)).value _ (by decide)).value _ (by decide)).value _ (by decide)).value _
    (by decide)

theorem blockResponseHead_length (r : BlockResponseTransfer) :
    ((blockResponseHead host r).flatMap SerializeField.wire).length = 98 := by
  simp [blockResponseHead, body_names]

/-- The body of a block response. -/
def blockResponseBody (host : Endian) (r : BlockResponseTransfer) : Bytes :=
  frame (blockResponseHead host r ++ kept .default (vectorFields host r.data (ascii "data")))

theorem buildBlockResponseByteArray_eq {r : BlockResponseTransfer} (requestId : Int64)
    (h : r.data.length ≤ valueLimit) :
    ServerMessageCodec.buildBlockResponseByteArray host r requestId =
      ServerMessageCodec.buildResponseByteArray host
        (ServerMessageCodec.okEnvelope requestId (blockResponseBody host r)) := by
  have hlt : 10 + r.data.length < 2 ^ 32 := by unfold valueLimit at h; omega
  rw [← Checked.ok_bind (blockResponseBody host r) (fun body =>
    ServerMessageCodec.buildResponseByteArray host (ServerMessageCodec.okEnvelope requestId body)),
    blockResponseBody, ← build_vector host (fits_blockResponseHead host r)
      (by rw [blockResponseHead_length host]; norm_num) (by decide) hlt]
  unfold ServerMessageCodec.buildBlockResponseByteArray
  simp [blockResponseHead, serializeValue_eq,
    serializeVector_eq _ _ _ (show 10 + Scalar.width UInt8 * r.data.length < 2 ^ 32 by simpa using hlt)]

theorem blockResponseBody_length {r : BlockResponseTransfer} (h : 2 ≤ r.data.length)
    (hfit : 10 + r.data.length ≤ valueLimit) : (blockResponseBody host r).length = 136 + r.data.length := by
  have hlt : 10 + r.data.length < 2 ^ 32 := by unfold valueLimit at hfit; omega
  rw [blockResponseBody, kept_vectorFields host (by decide) h hlt, bytesFields, if_pos hfit, frame_length,
    List.flatMap_append, List.length_append, blockResponseHead_length host]
  simp [body_names]
  omega

theorem blockResponseBody_bounds {r : BlockResponseTransfer} (h : r.data.length ≤ valueLimit) :
    114 ≤ (blockResponseBody host r).length ∧ (blockResponseBody host r).length ≤ valueLimit + 250 := by
  have hlt : 10 + r.data.length < 2 ^ 32 := by unfold valueLimit at h; omega
  have hle := kept_vectorFields_wire_le host (show (ascii "data").length ≤ 128 by decide) hlt
  rw [blockResponseBody, frame_length, List.flatMap_append, List.length_append, blockResponseHead_length host]
  omega

/-- The data of a parsed block response is what `to_array` makes of the data field, without
which there is no response. -/
theorem tryParseByteArrayBlockResponse_eq (r : BlockResponseTransfer) {ds : List SerializeField} (hfits : Fits ds)
    (hname : (ds.find? fun f => f.name == ascii "data") = ds.head?) (hcount : ds.length ≤ 1)
    (hlt : (frame (blockResponseHead host r ++ ds)).length < 2 ^ 32) :
    (ClientMessageCodec.tryParseByteArrayBlockResponse host (frame (blockResponseHead host r ++ ds))).run =
      match ds.head? with
      | none => .ok none
      | some field => (toArray UInt8 host field).map fun data => some { r with data := data } := by
  obtain ⟨c, hc, hget⟩ := deserialize_new host ((fits_blockResponseHead host r).append hfits)
    (by simp [blockResponseHead]; omega) hlt
  have hdata : c.getParsedField (ascii "data") = ds.head? := by
    rw [hget, ← hname]
    rfl
  unfold ClientMessageCodec.tryParseByteArrayBlockResponse
  rw [hc]
  simp only [Parse.lift_ok_bind]
  rw [hdata]
  rcases ds.head? with _ | field
  · simp +decide [hget, blockResponseHead, Parse.required, lenient]
  · simp +decide [hget, blockResponseHead, Parse.required, lenient]
    rfl

/-- **The body of a block response parses back** exactly when its data is a vector of more
than one byte whose encoding fits. -/
theorem tryParseByteArrayBlockResponse_iff {r : BlockResponseTransfer} (h : r.data.length ≤ valueLimit) :
    (ClientMessageCodec.tryParseByteArrayBlockResponse host (blockResponseBody host r)).run = .ok (some r) ↔
      2 ≤ r.data.length ∧ 10 + r.data.length ≤ valueLimit := by
  have hlt : 10 + r.data.length < 2 ^ 32 := by unfold valueLimit at h; omega
  have hbody : (blockResponseBody host r).length < 2 ^ 32 := by
    have := (blockResponseBody_bounds host h).2
    unfold valueLimit at this
    omega
  have hfits := fits_kept_vectorFields host (show (ascii "data").length ≤ 128 by decide) hlt
  unfold blockResponseBody at hbody ⊢
  rcases Nat.lt_or_ge r.data.length 2 with hshort | hlong
  · rw [kept_vectorFields_short host r.data (by decide) hshort] at hfits hbody ⊢
    rcases hd : r.data with _ | ⟨x, _ | ⟨y, zs⟩⟩
    · rw [hd] at hfits hbody
      rw [tryParseByteArrayBlockResponse_eq host r hfits rfl (by simp [vectorFields]) hbody]
      simp [vectorFields]
    · rw [hd] at hfits hbody
      rw [tryParseByteArrayBlockResponse_eq host r hfits rfl (by simp [vectorFields]) hbody, vectorFields,
        List.head?_cons]
      -- the byte is in a plain field, where the parser looks for an array
      have hne : { r with data := [] } ≠ r := fun h => by rw [← h] at hd; cases hd
      simp [toArray_valueField, Except.map, hne]
    · rw [hd] at hshort
      simp at hshort
  · rw [kept_vectorFields host (by decide) hlong hlt] at hfits hbody ⊢
    unfold bytesFields at hfits hbody ⊢
    by_cases hfit : 10 + r.data.length ≤ valueLimit
    · simp only [if_pos hfit] at hfits hbody ⊢
      rw [tryParseByteArrayBlockResponse_eq host r hfits rfl le_rfl hbody, List.head?_cons]
      dsimp only
      rw [toArray_arrayField host _ (by simpa using hlt)]
      simp [Except.map, hfit, hlong]
    · -- the data is too long for a value, and is left out
      simp only [if_neg hfit] at hfits hbody ⊢
      rw [tryParseByteArrayBlockResponse_eq host r hfits rfl (by simp) hbody]
      simp [hfit]

/-- No body is no block response. -/
theorem tryParseByteArrayBlockResponse_nil :
    (ClientMessageCodec.tryParseByteArrayBlockResponse host []).run = .ok none := rfl

/-- **A block response arrives** exactly when it has at least two bytes of data and its
encoded body fits. -/
theorem blockResponse_answered_iff {r : BlockResponseTransfer} (requestId : Int64)
    (h : r.data.length ≤ valueLimit) :
    Answered host fresh (ServerMessageCodec.buildBlockResponseByteArray host r requestId) requestId
        (ClientMessageCodec.tryParseByteArrayBlockResponse host) r ↔
      2 ≤ r.data.length ∧ r.data.length + 146 ≤ valueLimit := by
  obtain ⟨hlow, hhigh⟩ := blockResponseBody_bounds host h
  rw [buildBlockResponseByteArray_eq host requestId h,
    answered_iff host (by omega) (by unfold valueLimit at hhigh; omega), arrivingBody]
  split
  · rename_i hfit
    rw [tryParseByteArrayBlockResponse_iff host h]
    refine and_congr_right fun h2 => ?_
    constructor
    · intro h10
      rw [blockResponseBody_length host h2 h10] at hfit
      omega
    · intro h146
      omega
  · -- a body too long for the envelope is left out
    rename_i hbig
    constructor
    · intro hc
      rw [tryParseByteArrayBlockResponse_nil host] at hc
      cases hc
    · rintro ⟨h2, h146⟩
      rw [blockResponseBody_length host h2 (by omega)] at hbig
      omega

/-! ## Download responses -/

/-- The fields of a download response. -/
def downloadResponseFields (host : Endian) (r : DownloadResponseTransfer) : List SerializeField :=
  [valueField host r.taskId (ascii "task_id"), valueField host r.fileId (ascii "file_id"),
    stringField r.fileName (ascii "file_name"), valueField host r.fileSize (ascii "file_size"),
    stringField r.md5Code (ascii "md5_code")]

theorem fits_downloadResponseFields {r : DownloadResponseTransfer} (hname : r.fileName.length ≤ valueLimit)
    (hmd5 : r.md5Code.length ≤ valueLimit) : Fits (downloadResponseFields host r) :=
  ((((fits_nil.string hmd5 (by decide)).value _ (by decide)).string hname (by decide)).value _
    (by decide)).value _ (by decide)

theorem downloadResponse_frame_length (r : DownloadResponseTransfer) :
    (frame (downloadResponseFields host r)).length = 108 + r.fileName.length + r.md5Code.length := by
  simp [frame_length, downloadResponseFields, body_names]
  omega

theorem tryParseByteArrayDownloadResponse_eq {r : DownloadResponseTransfer}
    (hname : r.fileName.length ≤ valueLimit) (hmd5 : r.md5Code.length ≤ valueLimit) :
    (ClientMessageCodec.tryParseByteArrayDownloadResponse host text (frame (downloadResponseFields host r))).run =
      .ok (some r) := by
  have hlen := downloadResponse_frame_length host r
  obtain ⟨c, hc, hget⟩ := deserialize_new host (fits_downloadResponseFields host hname hmd5)
    (by simp [downloadResponseFields]) (by unfold valueLimit at hname hmd5; omega)
  unfold ClientMessageCodec.tryParseByteArrayDownloadResponse
  rw [hc]
  simp +decide [hget, downloadResponseFields, Parse.optional, lenient, fieldToString]

/-- No body leaves every member of a download response at its default. -/
theorem tryParseByteArrayDownloadResponse_nil :
    (ClientMessageCodec.tryParseByteArrayDownloadResponse host text []).run = .ok (some {}) := rfl

/-- **A download response arrives** exactly when its encoded body fits. -/
theorem downloadResponse_answered_iff {r : DownloadResponseTransfer} (requestId : Int64)
    (hname : r.fileName.length ≤ valueLimit) (hmd5 : r.md5Code.length ≤ valueLimit) :
    Answered host fresh (ServerMessageCodec.buildDownloadResponseByteArray host r requestId) requestId
        (ClientMessageCodec.tryParseByteArrayDownloadResponse host text) r ↔
      r.fileName.length + r.md5Code.length + 118 ≤ valueLimit := by
  have hlen := downloadResponse_frame_length host r
  have hlt : (frame (downloadResponseFields host r)).length + 10 < 2 ^ 32 := by
    unfold valueLimit at hname hmd5; omega
  have hbuilt : ServerMessageCodec.buildDownloadResponseByteArray host r requestId =
      ServerMessageCodec.buildResponseByteArray host
        (ServerMessageCodec.okEnvelope requestId (frame (downloadResponseFields host r))) := by
    rw [← Checked.ok_bind (frame (downloadResponseFields host r)) (fun body =>
      ServerMessageCodec.buildResponseByteArray host (ServerMessageCodec.okEnvelope requestId body)),
      ← build_fits host (fits_downloadResponseFields host hname hmd5) (by omega)]
    unfold ServerMessageCodec.buildDownloadResponseByteArray
    simp [downloadResponseFields, serializeValue_eq, serializeString_eq]
  rw [hbuilt, answered_iff host (by omega) (by omega), arrivingBody]
  split
  · rw [tryParseByteArrayDownloadResponse_eq host hname hmd5]
    simp only [true_iff]
    omega
  · rw [tryParseByteArrayDownloadResponse_nil host]
    constructor
    · intro h
      rw [← Option.some.inj (Except.ok.inj h)]
      decide
    · intro h
      omega

/-! ## Test responses -/

theorem tryParseByteArrayTestResponse_eq {message : Bytes} (h : message.length ≤ valueLimit) :
    (ClientMessageCodec.tryParseByteArrayTestResponse host text (frame (messageFields message))).run =
      .ok (some ⟨message⟩) := by
  have hlen := message_frame_length message
  obtain ⟨c, hc, hget⟩ := deserialize_new host (fits_messageFields h) (by simp [messageFields])
    (by unfold valueLimit at h; omega)
  unfold ClientMessageCodec.tryParseByteArrayTestResponse
  rw [hc]
  simp +decide [hget, messageFields, fieldToString]

/-- No body is no test response. -/
theorem tryParseByteArrayTestResponse_nil :
    (ClientMessageCodec.tryParseByteArrayTestResponse host text []).run = .ok none := rfl

/-- **A test response arrives** exactly when its encoded body fits. -/
theorem testResponse_answered_iff {r : TestResponseTransfer} (requestId : Int64)
    (h : r.message.length ≤ valueLimit) :
    Answered host fresh (ServerMessageCodec.buildTestResponseByteArray host r requestId) requestId
        (ClientMessageCodec.tryParseByteArrayTestResponse host text) r ↔
      r.message.length + 41 ≤ valueLimit := by
  have hlen := message_frame_length r.message
  have hlt : (frame (messageFields r.message)).length + 10 < 2 ^ 32 := by unfold valueLimit at h; omega
  have hbuilt : ServerMessageCodec.buildTestResponseByteArray host r requestId =
      ServerMessageCodec.buildResponseByteArray host
        (ServerMessageCodec.okEnvelope requestId (frame (messageFields r.message))) := by
    rw [← Checked.ok_bind (frame (messageFields r.message)) (fun body =>
      ServerMessageCodec.buildResponseByteArray host (ServerMessageCodec.okEnvelope requestId body)),
      ← build_fits host (fits_messageFields h) (by omega)]
    unfold ServerMessageCodec.buildTestResponseByteArray
    simp [messageFields, serializeString_eq]
  rw [hbuilt, answered_iff host (by omega) (by omega), arrivingBody]
  split
  · rw [tryParseByteArrayTestResponse_eq host h]
    simp only [true_iff]
    omega
  · rw [tryParseByteArrayTestResponse_nil host]
    constructor
    · intro h
      cases h
    · intro h
      omega

/-- **When responses arrive**: the encoded body has to fit the value limit, and a block
response needs at least two bytes of data. -/
theorem responses_answered (host : Endian) (text : SerializeField → Bytes) (fresh : EnvelopeResponseTransfer)
    (requestId : Int64) :
    (∀ r : BlockResponseTransfer, r.data.length ≤ valueLimit →
        (Answered host fresh (ServerMessageCodec.buildBlockResponseByteArray host r requestId) requestId
          (ClientMessageCodec.tryParseByteArrayBlockResponse host) r ↔
            2 ≤ r.data.length ∧ r.data.length + 146 ≤ valueLimit)) ∧
      (∀ r : DownloadResponseTransfer, r.fileName.length ≤ valueLimit → r.md5Code.length ≤ valueLimit →
        (Answered host fresh (ServerMessageCodec.buildDownloadResponseByteArray host r requestId) requestId
          (ClientMessageCodec.tryParseByteArrayDownloadResponse host text) r ↔
            r.fileName.length + r.md5Code.length + 118 ≤ valueLimit)) ∧
      ∀ r : TestResponseTransfer, r.message.length ≤ valueLimit →
        (Answered host fresh (ServerMessageCodec.buildTestResponseByteArray host r requestId) requestId
          (ClientMessageCodec.tryParseByteArrayTestResponse host text) r ↔ r.message.length + 41 ≤ valueLimit) :=
  ⟨fun _ h => blockResponse_answered_iff host requestId h,
    fun _ hname hmd5 => downloadResponse_answered_iff host requestId hname hmd5,
    fun _ h => testResponse_answered_iff host requestId h⟩

theorem responses_answered_hello :
    Answered .little ⟨0, 0, .unknown, .json, []⟩
        (ServerMessageCodec.buildBlockResponseByteArray .little { data := ascii "hello" } 7) 7
        (ClientMessageCodec.tryParseByteArrayBlockResponse .little) { data := ascii "hello" } :=
  ((responses_answered .little (fun _ => []) ⟨0, 0, .unknown, .json, []⟩ 7).1 { data := ascii "hello" }
    (by decide)).2 (by decide)

/-- A block of a single byte, such as the last one of a file. -/
def lastByte : BlockResponseTransfer := ⟨3, 1, 2, 4096, 1, [0x41]⟩

/-- That block is not delivered. -/
theorem lastByte_lost :
    ¬Answered .little ⟨0, 0, .unknown, .json, []⟩
      (ServerMessageCodec.buildBlockResponseByteArray .little lastByte 7) 7
      (ClientMessageCodec.tryParseByteArrayBlockResponse .little) lastByte := by
  rw [blockResponse_answered_iff .little 7 (by decide)]
  decide

end ProjectTrans
