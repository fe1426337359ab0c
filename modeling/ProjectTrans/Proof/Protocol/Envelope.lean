import ProjectTrans.Proof.Codec.Typed
import ProjectTrans.Model.Protocol.ClientMessageCodec
import ProjectTrans.Model.Protocol.ServerMessageCodec

/-!
# Envelopes

What the default limits let through, and what the receiving side makes of an
envelope: all of it, except a body whose encoding exceeds the value limit, which
the sender leaves out.
-/

namespace ProjectTrans

open Wire SerializeCodec

/-- The default limit on the length of a value. -/
def valueLimit : ℕ := 256 * 1024 * 1024

variable {host : Endian} {T : Type} [IntegerType T] {name : Bytes}

theorem exceedsLimit_default (f : SerializeField) :
    exceedsLimit .default f = true ↔ 128 < f.nameLength.toNat ∨ valueLimit < f.valueLength.toNat := by
  unfold exceedsLimit valueLimit
  simp only [Bool.or_eq_true, decide_eq_true_eq]
  rfl

theorem valueField_fits (x : T) (hname : name.length ≤ 128) :
    exceedsLimit .default (valueField host x name) = false := by
  have hw := IntegerType.width_le T
  rw [Bool.eq_false_iff, Ne, exceedsLimit_default, valueLimit]
  simp only [valueField, toByteArray, objectBytes_length, UInt16.toNat_ofNat', UInt32.toNat_ofNat']
  omega

theorem stringField_exceeds (s : Bytes) (hname : name.length ≤ 128) (hs : s.length < 2 ^ 32) :
    exceedsLimit .default (stringField s name) = decide (valueLimit < s.length) := by
  rw [Bool.eq_iff_iff, exceedsLimit_default, decide_eq_true_eq]
  simp only [stringField, UInt16.toNat_ofNat', UInt32.toNat_ofNat']
  omega

theorem arrayField_exceeds (xs : List T) (hname : name.length ≤ 128)
    (h : 10 + Scalar.width T * xs.length < 2 ^ 32) :
    exceedsLimit .default (arrayField xs name) = decide (valueLimit < 10 + Scalar.width T * xs.length) := by
  rw [Bool.eq_iff_iff, exceedsLimit_default, decide_eq_true_eq]
  simp only [arrayField, UInt16.toNat_ofNat', UInt32.toNat_ofNat', arrayValue_wire_length]
  omega

/-- More than one element makes an array field. -/
theorem vectorFields_of_two_le {xs : List T} (h : 2 ≤ xs.length) :
    vectorFields host xs name = [arrayField xs name] := by
  rcases xs with _ | ⟨x, _ | ⟨y, zs⟩⟩
  · simp at h
  · simp at h
  · rfl

theorem kept_append (config : SerializeConfig) (fs gs : List SerializeField) :
    kept config (fs ++ gs) = kept config fs ++ kept config gs := List.filter_append ..

/-- Well-formed fields within the default limits. -/
def Fits (fs : List SerializeField) : Prop :=
  ∀ f ∈ fs, f.WellFormed ∧ exceedsLimit .default f = false

theorem fits_nil : Fits [] := by simp [Fits]

theorem Fits.value {fs : List SerializeField} (h : Fits fs) (x : T) (hname : name.length ≤ 128) :
    Fits (valueField host x name :: fs) := by
  intro f hf
  rcases List.mem_cons.1 hf with rfl | hf
  · exact ⟨valueField_wellFormed host x (by omega), valueField_fits x hname⟩
  · exact h f hf

theorem Fits.string {fs : List SerializeField} (h : Fits fs) {s : Bytes} (hs : s.length ≤ valueLimit)
    (hname : name.length ≤ 128) : Fits (stringField s name :: fs) := by
  have hlt : s.length < 2 ^ 32 := by unfold valueLimit at hs; omega
  intro f hf
  rcases List.mem_cons.1 hf with rfl | hf
  · refine ⟨stringField_wellFormed (by omega) hlt, ?_⟩
    rw [stringField_exceeds s hname hlt]
    exact decide_eq_false (by omega)
  · exact h f hf

theorem Fits.append {fs gs : List SerializeField} (h : Fits fs) (h' : Fits gs) : Fits (fs ++ gs) := by
  intro f hf
  rcases List.mem_append.1 hf with hf | hf
  · exact h f hf
  · exact h' f hf

theorem Fits.kept {fs : List SerializeField} (h : Fits fs) : kept .default fs = fs :=
  kept_eq_self fun f hf => (h f hf).2

/-- The field of a byte vector of more than one byte, left out when its encoding exceeds
the limit. -/
def bytesFields (bytes name : Bytes) : List SerializeField :=
  if 10 + bytes.length ≤ valueLimit then [arrayField bytes name] else []

theorem fits_bytesFields (bytes : Bytes) (hname : name.length ≤ 128) : Fits (bytesFields bytes name) := by
  unfold bytesFields
  split
  · rename_i h
    have hlt : 10 + Scalar.width UInt8 * bytes.length < 2 ^ 32 := by unfold valueLimit at h; simp; omega
    intro f hf
    rw [List.mem_singleton.1 hf]
    refine ⟨arrayField_wellFormed (by omega) hlt, ?_⟩
    rw [arrayField_exceeds bytes hname hlt]
    exact decide_eq_false (by simp; omega)
  · exact fits_nil

variable (host)

theorem kept_vectorFields {bytes : Bytes} (hname : name.length ≤ 128) (h : 2 ≤ bytes.length)
    (hlt : 10 + bytes.length < 2 ^ 32) :
    kept .default (vectorFields host bytes name) = bytesFields bytes name := by
  have hexceeds := arrayField_exceeds bytes hname (by simpa using hlt)
  rw [vectorFields_of_two_le h]
  unfold kept bytesFields
  by_cases h : 10 + bytes.length ≤ valueLimit <;> simp [hexceeds, h]

theorem bytesFields_wire_le (bytes : Bytes) (hname : name.length ≤ 128) :
    ((bytesFields bytes name).flatMap SerializeField.wire).length ≤ valueLimit + 136 := by
  unfold bytesFields
  split
  · rename_i h; simp; omega
  · simp

/-- What arrives of a byte vector. -/
theorem toArray_bytesFields {bytes : Bytes} :
    parseBody host ((bytesFields bytes name).head?) =
      .ok (if 10 + bytes.length ≤ valueLimit then bytes else []) := by
  unfold bytesFields
  split
  · rename_i h
    exact toArray_arrayField host _ (by unfold valueLimit at h; simp; omega)
  · rfl

theorem vectorFields_sized {bytes : Bytes} (hname : name.length ≤ 128) (hlt : 10 + bytes.length < 2 ^ 32)
    {f : SerializeField} (hf : f ∈ vectorFields host bytes name) : f.Sized := by
  rcases bytes with _ | ⟨x, _ | ⟨y, zs⟩⟩
  · simp [vectorFields] at hf
  · rw [vectorFields, List.mem_singleton] at hf
    exact hf ▸ (valueField_wellFormed host x (by omega)).toSized
  · rw [vectorFields, List.mem_singleton] at hf
    exact hf ▸ (arrayField_wellFormed (by omega) (by simpa using hlt)).toSized

/-- What the limits leave of a byte vector: nothing when it is empty, a plain value when it
is a single byte. -/
theorem kept_vectorFields_short (bytes : Bytes) (hname : name.length ≤ 128) (h : bytes.length < 2) :
    kept .default (vectorFields host bytes name) = vectorFields host bytes name := by
  rcases bytes with _ | ⟨x, _ | ⟨y, zs⟩⟩
  · rfl
  · exact (fits_nil.value x hname).kept
  · simp at h

theorem kept_vectorFields_wire_le {bytes : Bytes} (hname : name.length ≤ 128) (hlt : 10 + bytes.length < 2 ^ 32) :
    ((kept .default (vectorFields host bytes name)).flatMap SerializeField.wire).length ≤ valueLimit + 136 := by
  rcases Nat.lt_or_ge bytes.length 2 with h | h
  · rw [kept_vectorFields_short host bytes hname h]
    rcases bytes with _ | ⟨x, _ | ⟨y, zs⟩⟩
    · simp [vectorFields]
    · simp [vectorFields, valueLimit]; omega
    · simp at h
  · rw [kept_vectorFields host hname h hlt]
    exact bytesFields_wire_le bytes hname

theorem fits_kept_vectorFields {bytes : Bytes} (hname : name.length ≤ 128) (hlt : 10 + bytes.length < 2 ^ 32) :
    Fits (kept .default (vectorFields host bytes name)) := by
  rcases Nat.lt_or_ge bytes.length 2 with h | h
  · rw [kept_vectorFields_short host bytes hname h]
    rcases bytes with _ | ⟨x, _ | ⟨y, zs⟩⟩
    · exact fits_nil
    · exact fits_nil.value x hname
    · simp at h
  · rw [kept_vectorFields host hname h hlt]
    exact fits_bytesFields bytes hname

/-- **A message whose last field is a byte vector** is the frame of the fields the limits
leave. -/
theorem build_vector {head : List SerializeField} (hhead : Fits head)
    (hlen : (head.flatMap SerializeField.wire).length ≤ 2 ^ 30) {bytes : Bytes} (hname : name.length ≤ 128)
    (hlt : 10 + bytes.length < 2 ^ 32) :
    (do let c ← (head ++ vectorFields host bytes name).foldlM (serialize host) (SerializeCodec.new .default)
        let (built, _) ← c.getSerializedDataVectorBuild host
        return built) = .ok (frame (head ++ kept .default (vectorFields host bytes name))) := by
  have hkept : kept .default (head ++ vectorFields host bytes name) =
      head ++ kept .default (vectorFields host bytes name) := by
    rw [kept_append, hhead.kept]
  have hsized : ∀ f ∈ head ++ vectorFields host bytes name, f.Sized := by
    intro f hf
    rcases List.mem_append.1 hf with hf | hf
    · exact (hhead f hf).1.toSized
    · exact vectorFields_sized host hname hlt hf
  have hbytes := kept_vectorFields_wire_le host hname hlt
  rw [← hkept]
  refine build_eq host .default (fun f hf => hsized f (mem_kept hf)) ?_
  rw [hkept, frame_length, List.flatMap_append, List.length_append]
  unfold valueLimit at hbytes
  omega

/-- The fields of a message arrive on a fresh codec, each under its name. -/
theorem deserialize_new {fs : List SerializeField} (hfits : Fits fs) (hcount : fs.length < 2 ^ 16)
    (hlt : (frame fs).length < 2 ^ 32) :
    ∃ c, (SerializeCodec.new .default).deserialize host (frame fs) = .ok c ∧
      ∀ key, c.getParsedField key = fs.find? fun f => f.name == key := by
  have h := deserialize_frame host (SerializeCodec.new .default) [] (fun f hf => (hfits f hf).1) hcount
    (by simpa using hlt)
  rw [List.append_nil] at h
  exact ⟨_, h, fun key => getParsedField_eq key rfl⟩

/-- The lengths of the member names of the two envelopes. -/
theorem envelope_names :
    (ascii "version").length = 7 ∧ (ascii "request_id").length = 10 ∧ (ascii "request_type").length = 12 ∧
      (ascii "path").length = 4 ∧ (ascii "content_type").length = 12 ∧ (ascii "status").length = 6 ∧
      (ascii "body").length = 4 := by decide

theorem envelope_frame_lt {head : List SerializeField}
    (hlen : (head.flatMap SerializeField.wire).length ≤ 2 ^ 30) (body : Bytes) :
    (frame (head ++ bytesFields body (ascii "body"))).length < 2 ^ 32 := by
  have hbody := bytesFields_wire_le body (show (ascii "body").length ≤ 128 by decide)
  rw [frame_length, List.flatMap_append, List.length_append]
  unfold valueLimit at hbody
  omega

/-! ## Requests -/

/-- The fields of a request envelope in front of its body. -/
def requestHead (host : Endian) (env : EnvelopeRequestTransfer) : List SerializeField :=
  [valueField host env.version (ascii "version"), valueField host env.requestId (ascii "request_id"),
    valueField host env.requestType (ascii "request_type"), stringField env.path (ascii "path"),
    valueField host env.contentType.code (ascii "content_type")]

theorem fits_requestHead {env : EnvelopeRequestTransfer} (hpath : env.path.length ≤ valueLimit) :
    Fits (requestHead host env) :=
  ((((fits_nil.value _ (by decide)).string hpath (by decide)).value _ (by decide)).value _ (by decide)).value _
    (by decide)

theorem requestHead_le {env : EnvelopeRequestTransfer} (hpath : env.path.length ≤ valueLimit) :
    ((requestHead host env).flatMap SerializeField.wire).length ≤ 2 ^ 30 := by
  unfold valueLimit at hpath
  simp [requestHead, envelope_names]
  omega

/-- **The client's request** is the frame of its members. -/
theorem buildRequestByteArray_eq (env : EnvelopeRequestTransfer) (hpath : env.path.length ≤ valueLimit)
    (hbody : 2 ≤ env.body.length) (hlt : 10 + env.body.length < 2 ^ 32) :
    ClientMessageCodec.buildRequestByteArray host env =
      .ok (frame (requestHead host env ++ bytesFields env.body (ascii "body"))) := by
  rw [← kept_vectorFields host (by decide) hbody hlt,
    ← build_vector host (fits_requestHead host hpath) (requestHead_le host hpath) (by decide) hlt]
  unfold ClientMessageCodec.buildRequestByteArray
  simp [requestHead, serializeValue_eq, serializeString_eq,
    serializeVector_eq _ _ _ (show 10 + Scalar.width UInt8 * env.body.length < 2 ^ 32 by simpa using hlt)]

/-- **The server takes a request envelope apart**; a body whose encoding exceeds the
limit is missing. -/
theorem tryParseByteArrayRequest_eq (text : SerializeField → Bytes) (fresh env : EnvelopeRequestTransfer)
    (hpath : env.path.length ≤ valueLimit) (hne : env.path ≠ []) :
    (ServerMessageCodec.tryParseByteArrayRequest host text fresh
        (frame (requestHead host env ++ bytesFields env.body (ascii "body")))).run =
      .ok (some { env with body := if 10 + env.body.length ≤ valueLimit then env.body else [] }) := by
  obtain ⟨c, hc, hget⟩ := deserialize_new host
    ((fits_requestHead host hpath).append
      (fits_bytesFields env.body (show (ascii "body").length ≤ 128 by decide)))
    (by unfold bytesFields; split <;> simp [requestHead]) (envelope_frame_lt (requestHead_le host hpath) env.body)
  have hbody : c.getParsedField (ascii "body") = (bytesFields env.body (ascii "body")).head? := by
    rw [hget]
    unfold bytesFields
    split <;> rfl
  unfold ServerMessageCodec.tryParseByteArrayRequest
  rw [hc]
  simp only [Parse.lift_ok_bind]
  rw [hbody, toArray_bytesFields]
  simp +decide [hget, requestHead, Parse.optional, ServerMessageCodec.parsePath, hne, fieldToString]

/-! ## Responses -/

/-- The fields of a response envelope in front of its body. -/
def responseHead (host : Endian) (env : EnvelopeResponseTransfer) : List SerializeField :=
  [valueField host env.version (ascii "version"), valueField host env.requestId (ascii "request_id"),
    valueField host env.status.code (ascii "status"),
    valueField host env.contentType.code (ascii "content_type")]

theorem fits_responseHead (env : EnvelopeResponseTransfer) : Fits (responseHead host env) :=
  (((fits_nil.value _ (by decide)).value _ (by decide)).value _ (by decide)).value _ (by decide)

theorem responseHead_le (env : EnvelopeResponseTransfer) :
    ((responseHead host env).flatMap SerializeField.wire).length ≤ 2 ^ 30 := by
  simp [responseHead, envelope_names]

/-- **The server's response** is the frame of its members. -/
theorem buildResponseByteArray_eq (env : EnvelopeResponseTransfer) (hbody : 2 ≤ env.body.length)
    (hlt : 10 + env.body.length < 2 ^ 32) :
    ServerMessageCodec.buildResponseByteArray host env =
      .ok (frame (responseHead host env ++ bytesFields env.body (ascii "body"))) := by
  rw [← kept_vectorFields host (by decide) hbody hlt,
    ← build_vector host (fits_responseHead host env) (responseHead_le host env) (by decide) hlt]
  unfold ServerMessageCodec.buildResponseByteArray
  simp [responseHead, serializeValue_eq,
    serializeVector_eq _ _ _ (show 10 + Scalar.width UInt8 * env.body.length < 2 ^ 32 by simpa using hlt)]

/-- **The client takes a response envelope apart**; a body whose encoding exceeds the
limit is missing. -/
theorem tryParseByteArrayResponse_eq (fresh env : EnvelopeResponseTransfer) :
    (ClientMessageCodec.tryParseByteArrayResponse host fresh
        (frame (responseHead host env ++ bytesFields env.body (ascii "body")))).run =
      .ok (some { env with body := if 10 + env.body.length ≤ valueLimit then env.body else [] }) := by
  obtain ⟨c, hc, hget⟩ := deserialize_new host
    ((fits_responseHead host env).append (fits_bytesFields env.body (show (ascii "body").length ≤ 128 by decide)))
    (by unfold bytesFields; split <;> simp [responseHead]) (envelope_frame_lt (responseHead_le host env) env.body)
  have hbody : c.getParsedField (ascii "body") = (bytesFields env.body (ascii "body")).head? := by
    rw [hget]
    unfold bytesFields
    split <;> rfl
  unfold ClientMessageCodec.tryParseByteArrayResponse
  rw [hc]
  simp only [Parse.lift_ok_bind]
  rw [hbody, toArray_bytesFields]
  simp +decide [hget, responseHead, Parse.optional]

end ProjectTrans
