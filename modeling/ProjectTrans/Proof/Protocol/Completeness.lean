import ProjectTrans.Model.Protocol.ClientMessageCodec
import ProjectTrans.Model.Protocol.ServerMessageCodec

/-!
# Envelopes with missing fields

The parsers of the two envelopes look at each field only if it is there, so a member
whose field is missing keeps what stood in the fresh envelope. Only a field that is
there and does not decode makes them refuse the message.

`envelopes_complete_iff`: an envelope is made of what was read, and a message with a
missing field is refused, **exactly when** no field is missing, or one that is there
does not decode.
-/

namespace ProjectTrans

open Wire SerializeCodec

variable {α : Type} {host : Endian} {data : Bytes} {text : SerializeField → Bytes}

/-- The field of a name in a message, as a fresh codec parses it. -/
def messageField (host : Endian) (data name : Bytes) : Option SerializeField :=
  match (SerializeCodec.new .default).deserialize host data with
  | .ok c => c.getParsedField name
  | .error _ => none

/-- The member `x` was decoded from the field of this name. -/
def ReadFrom (host : Endian) (data name : Bytes) (decode : SerializeField → Option α) (x : α) : Prop :=
  ∃ field, messageField host data name = some field ∧ decode field = some x

/-- A member of an envelope: the name of its field, and whether a field decodes to one. -/
structure Member where
  name : Bytes
  decodes : SerializeField → Bool

namespace Member

/-- The member's field is in the message. -/
def Present (host : Endian) (data : Bytes) (m : Member) : Prop := messageField host data m.name ≠ none

/-- The member's field is in the message and does not decode. -/
def Refused (host : Endian) (data : Bytes) (m : Member) : Prop :=
  ∃ field, messageField host data m.name = some field ∧ m.decodes field = false

/-- A member whose field is decoded by `decode`. -/
def of (name : Bytes) (decode : SerializeField → Option α) : Member := ⟨name, fun field => (decode field).isSome⟩

end Member

/-- What becomes of a member: it keeps what stands in it without its field. -/
def memberOf (decode : SerializeField → Option α) (old : α) : Option SerializeField → Option α
  | none => some old
  | some field => decode field

/-- The path of a field, unless it is empty. -/
def decodePath (text : SerializeField → Bytes) (field : SerializeField) : Option Bytes :=
  if fieldToString text field ≠ [] then some (fieldToString text field) else none

theorem Parse.optional_eq {T : Type} [Scalar T] [HasDataType T] (field : Option SerializeField) (old : T) :
    Parse.optional host field old = Parse.ofOption (memberOf (toValue T host) old field) := by
  cases field <;> rfl

theorem parsePath_eq (field : Option SerializeField) :
    ServerMessageCodec.parsePath text field = Parse.ofOption (memberOf (decodePath text) [] field) := by
  cases field with
  | none => rfl
  | some field =>
    unfold ServerMessageCodec.parsePath memberOf decodePath
    dsimp only
    split
    · rfl
    · rfl

section Members

variable {c : SerializeCodec} (hc : (SerializeCodec.new .default).deserialize host data = .ok c)

include hc

theorem messageField_eq (name : Bytes) : messageField host data name = c.getParsedField name := by
  unfold messageField
  rw [hc]

/-- A member comes to nothing exactly when its field is refused. -/
theorem memberOf_eq_none {name : Bytes} {decode : SerializeField → Option α} {old : α} :
    memberOf decode old (c.getParsedField name) = none ↔ (Member.of name decode).Refused host data := by
  unfold Member.Refused Member.of
  dsimp only
  rw [messageField_eq hc]
  cases c.getParsedField name with
  | none => simp [memberOf]
  | some field => simp [memberOf]

theorem not_refused {name : Bytes} {decode : SerializeField → Option α} {old x : α}
    (h : memberOf decode old (c.getParsedField name) = some x) : ¬(Member.of name decode).Refused host data := by
  intro hrefused
  rw [(memberOf_eq_none hc).2 hrefused] at h
  cases h

/-- A member whose field is there was read from it. -/
theorem readFrom_of_memberOf {name : Bytes} {decode : SerializeField → Option α} {old x : α}
    (h : memberOf decode old (c.getParsedField name) = some x)
    (hpresent : (Member.of name decode).Present host data) : ReadFrom host data name decode x := by
  unfold Member.Present Member.of at hpresent
  dsimp only at hpresent
  unfold ReadFrom
  rw [messageField_eq hc] at hpresent ⊢
  obtain ⟨field, hfield⟩ := Option.ne_none_iff_exists'.1 hpresent
  rw [hfield] at h
  exact ⟨field, hfield, h⟩

end Members

/-- Where `deserialize` leaves the message no field was parsed. -/
theorem messageField_of_error {e : Fault} (hc : (SerializeCodec.new .default).deserialize host data = .error e)
    (name : Bytes) : messageField host data name = none := by
  unfold messageField
  rw [hc]

/-! ## Any envelope -/

/-- A parser takes this message as it should: every member of an envelope it returns was
read, and where a member's field is missing it returns none. `fresh` is what stands in
the envelope before. -/
structure TakenWhole {E : Type} (host : Endian) (data : Bytes) (members : List Member) (parse : E → Parse E)
    (read : E → Prop) : Prop where
  reads : ∀ fresh e, (parse fresh).run = .ok (some e) → read e
  missing : (∃ m ∈ members, ¬m.Present host data) → ∀ fresh, (parse fresh).run = .ok none

/-- No field is missing, or one that is there does not decode. -/
def NoneMissing (host : Endian) (data : Bytes) (members : List Member) : Prop :=
  (∀ m ∈ members, m.Present host data) ∨ ∃ m ∈ members, m.Refused host data

/-- What a parser of an envelope does. A field that does not decode makes it refuse.
Without one an envelope is taken, unless its body faults, and members whose fields are
all there were read from them. -/
def ReadsMembers {E : Type} (host : Endian) (data : Bytes) (members : List Member) (parse : E → Parse E)
    (read : E → Prop) : Prop :=
  ∀ fresh, ((∃ m ∈ members, m.Refused host data) ∧ (parse fresh).run = .ok none) ∨
    (∀ m ∈ members, ¬m.Refused host data) ∧ ∃ (body : Checked Bytes) (envelope : Bytes → E),
      (parse fresh).run = body.map (fun bytes => some (envelope bytes)) ∧
      ((∀ m ∈ members, m.Present host data) → ∀ bytes, read (envelope bytes))

section Envelope

variable {E : Type} {members : List Member} {parse : E → Parse E} {read : E → Prop}

/-- Every parse faults with the fault of `deserialize`. -/
theorem readsMembers_of_error {e : Fault} (hc : (SerializeCodec.new .default).deserialize host data = .error e)
    (hne : members ≠ []) (hrun : ∀ fresh, (parse fresh).run = .error e) :
    ReadsMembers host data members parse read := by
  have hno : ∀ name, messageField host data name = none := messageField_of_error hc
  intro fresh
  refine Or.inr ⟨?_, .error e, fun _ => fresh, hrun fresh, ?_⟩
  · rintro m - ⟨field, hfield, -⟩
    rw [hno] at hfield
    cases hfield
  · intro hpresent
    obtain ⟨m, hm⟩ := List.exists_mem_of_ne_nil members hne
    exact absurd (hno _) (hpresent m hm)

/-- **A message is taken whole** exactly when no field is missing, or one is refused. -/
theorem ReadsMembers.takenWhole_iff [Inhabited E] (h : ReadsMembers host data members parse read) :
    TakenWhole host data members parse read ↔ NoneMissing host data members := by
  constructor
  · intro hwhole
    by_cases hall : ∀ m ∈ members, m.Present host data
    · exact Or.inl hall
    · -- a field is missing, so the message is refused, and only a refused field does that
      have hmissing : ∃ m ∈ members, ¬m.Present host data := by simpa using hall
      have hnone := hwhole.missing hmissing default
      rcases h default with ⟨hrefused, -⟩ | ⟨-, body, envelope, hrun, -⟩
      · exact Or.inr hrefused
      · rw [hrun] at hnone
        cases body <;> cases hnone
  · intro hcond
    constructor
    · intro fresh e he
      rcases h fresh with ⟨-, hnone⟩ | ⟨hno, body, envelope, hrun, hread⟩
      · rw [hnone] at he
        cases he
      · -- all fields are there, so each member is read; a refused one contradicts the success
        rcases hcond with hall | ⟨m, hm, hrefused⟩
        · rw [hrun] at he
          cases body with
          | error fault => cases he
          | ok bytes =>
            obtain rfl := Option.some.inj (Except.ok.inj he)
            exact hread hall bytes
        · exact absurd hrefused (hno m hm)
    · rintro ⟨m, hm, habsent⟩ fresh
      rcases hcond with hall | ⟨m', hm', hrefused⟩
      · exact absurd (hall m hm) habsent
      · rcases h fresh with ⟨-, hnone⟩ | ⟨hno, -⟩
        · exact hnone
        · exact absurd hrefused (hno m' hm')

end Envelope

/-! ## The request -/

namespace ServerMessageCodec

instance : Inhabited EnvelopeRequestTransfer := ⟨⟨0, 0, 0, [], .unknown, []⟩⟩

/-- The members of a request that are read from fields of their own. -/
def requestMembers (host : Endian) (text : SerializeField → Bytes) : List Member :=
  [.of (ascii "version") (toValue UInt16 host), .of (ascii "request_id") (toValue UInt64 host),
    .of (ascii "request_type") (toValue UInt8 host), .of (ascii "path") (decodePath text),
    .of (ascii "content_type") (toValue UInt8 host)]

/-- Every member of the request was read from its field. -/
structure RequestRead (host : Endian) (text : SerializeField → Bytes) (data : Bytes)
    (e : EnvelopeRequestTransfer) : Prop where
  version : ReadFrom host data (ascii "version") (toValue UInt16 host) e.version
  requestId : ReadFrom host data (ascii "request_id") (toValue UInt64 host) e.requestId
  requestType : ReadFrom host data (ascii "request_type") (toValue UInt8 host) e.requestType
  path : ReadFrom host data (ascii "path") (decodePath text) e.path
  contentType : ReadFrom host data (ascii "content_type") (toValue UInt8 host) e.contentType.code

/-- **The parser of a request reads its members**, one after another. -/
theorem reads_request (host : Endian) (text : SerializeField → Bytes) (data : Bytes) :
    ReadsMembers host data (requestMembers host text) (fun fresh => tryParseByteArrayRequest host text fresh data)
      (RequestRead host text data) := by
  cases hc : (SerializeCodec.new .default).deserialize host data with
  | error e =>
    refine readsMembers_of_error hc (List.cons_ne_nil _ _) fun fresh => ?_
    unfold tryParseByteArrayRequest
    rw [hc]
    rfl
  | ok c =>
    intro fresh
    unfold tryParseByteArrayRequest
    simp only [hc, Parse.lift_ok_bind, Parse.optional_eq, parsePath_eq]
    cases hv : memberOf (toValue UInt16 host) fresh.version (c.getParsedField (ascii "version")) with
    | none => exact Or.inl ⟨⟨_, by simp [requestMembers], (memberOf_eq_none hc).1 hv⟩, rfl⟩
    | some version =>
    cases hi : memberOf (toValue UInt64 host) fresh.requestId (c.getParsedField (ascii "request_id")) with
    | none => exact Or.inl ⟨⟨_, by simp [requestMembers], (memberOf_eq_none hc).1 hi⟩, rfl⟩
    | some requestId =>
    cases ht : memberOf (toValue UInt8 host) fresh.requestType (c.getParsedField (ascii "request_type")) with
    | none => exact Or.inl ⟨⟨_, by simp [requestMembers], (memberOf_eq_none hc).1 ht⟩, rfl⟩
    | some requestType =>
    cases hp : memberOf (decodePath text) [] (c.getParsedField (ascii "path")) with
    | none => exact Or.inl ⟨⟨_, by simp [requestMembers], (memberOf_eq_none hc).1 hp⟩, rfl⟩
    | some path =>
    cases hk : memberOf (toValue UInt8 host) fresh.contentType.code (c.getParsedField (ascii "content_type")) with
    | none => exact Or.inl ⟨⟨_, by simp [requestMembers], (memberOf_eq_none hc).1 hk⟩, rfl⟩
    | some contentType =>
    -- nothing was refused, and the body is left
    refine Or.inr ⟨?_, parseBody host (c.getParsedField (ascii "body")),
      fun body => ⟨version, requestId, requestType, path, ⟨contentType⟩, body⟩, ?_, ?_⟩
    · simp only [requestMembers, List.forall_mem_cons]
      exact ⟨not_refused hc hv, not_refused hc hi, not_refused hc ht, not_refused hc hp, not_refused hc hk,
        by simp⟩
    · cases parseBody host (c.getParsedField (ascii "body")) with
      | error e => rfl
      | ok body => rfl
    · intro hpresent body
      simp only [requestMembers, List.forall_mem_cons] at hpresent
      obtain ⟨pv, pi, pt, pp, pk, -⟩ := hpresent
      exact ⟨readFrom_of_memberOf hc hv pv, readFrom_of_memberOf hc hi pi, readFrom_of_memberOf hc ht pt,
        readFrom_of_memberOf hc hp pp, readFrom_of_memberOf hc hk pk⟩

end ServerMessageCodec

/-! ## The response -/

namespace ClientMessageCodec

instance : Inhabited EnvelopeResponseTransfer := ⟨⟨0, 0, .unknown, .unknown, []⟩⟩

/-- The members of a response that are read from fields of their own. -/
def responseMembers (host : Endian) : List Member :=
  [.of (ascii "version") (toValue UInt16 host), .of (ascii "request_id") (toValue UInt64 host),
    .of (ascii "status") (toValue UInt16 host), .of (ascii "content_type") (toValue UInt8 host)]

/-- Every member of the response was read from its field. -/
structure ResponseRead (host : Endian) (data : Bytes) (e : EnvelopeResponseTransfer) : Prop where
  version : ReadFrom host data (ascii "version") (toValue UInt16 host) e.version
  requestId : ReadFrom host data (ascii "request_id") (toValue UInt64 host) e.requestId
  status : ReadFrom host data (ascii "status") (toValue UInt16 host) e.status.code
  contentType : ReadFrom host data (ascii "content_type") (toValue UInt8 host) e.contentType.code

/-- **The parser of a response reads its members**, in the same way. -/
theorem reads_response (host : Endian) (data : Bytes) :
    ReadsMembers host data (responseMembers host) (fun fresh => tryParseByteArrayResponse host fresh data)
      (ResponseRead host data) := by
  cases hc : (SerializeCodec.new .default).deserialize host data with
  | error e =>
    refine readsMembers_of_error hc (List.cons_ne_nil _ _) fun fresh => ?_
    unfold tryParseByteArrayResponse
    rw [hc]
    rfl
  | ok c =>
    intro fresh
    unfold tryParseByteArrayResponse
    simp only [hc, Parse.lift_ok_bind, Parse.optional_eq]
    cases hv : memberOf (toValue UInt16 host) fresh.version (c.getParsedField (ascii "version")) with
    | none => exact Or.inl ⟨⟨_, by simp [responseMembers], (memberOf_eq_none hc).1 hv⟩, rfl⟩
    | some version =>
    cases hi : memberOf (toValue UInt64 host) fresh.requestId (c.getParsedField (ascii "request_id")) with
    | none => exact Or.inl ⟨⟨_, by simp [responseMembers], (memberOf_eq_none hc).1 hi⟩, rfl⟩
    | some requestId =>
    cases hs : memberOf (toValue UInt16 host) fresh.status.code (c.getParsedField (ascii "status")) with
    | none => exact Or.inl ⟨⟨_, by simp [responseMembers], (memberOf_eq_none hc).1 hs⟩, rfl⟩
    | some status =>
    cases hk : memberOf (toValue UInt8 host) fresh.contentType.code (c.getParsedField (ascii "content_type")) with
    | none => exact Or.inl ⟨⟨_, by simp [responseMembers], (memberOf_eq_none hc).1 hk⟩, rfl⟩
    | some contentType =>
    -- no member is refused: what is left depends on the body alone
    refine Or.inr ⟨?_, parseBody host (c.getParsedField (ascii "body")),
      fun body => ⟨version, requestId, ⟨status⟩, ⟨contentType⟩, body⟩, ?_, ?_⟩
    · simp only [responseMembers, List.forall_mem_cons]
      exact ⟨not_refused hc hv, not_refused hc hi, not_refused hc hs, not_refused hc hk, by simp⟩
    · cases parseBody host (c.getParsedField (ascii "body")) with
      | error e => rfl
      | ok body => rfl
    · intro hpresent body
      simp only [responseMembers, List.forall_mem_cons] at hpresent
      obtain ⟨pv, pi, ps, pk, -⟩ := hpresent
      exact ⟨readFrom_of_memberOf hc hv pv, readFrom_of_memberOf hc hi pi, readFrom_of_memberOf hc hs ps,
        readFrom_of_memberOf hc hk pk⟩

end ClientMessageCodec

open ServerMessageCodec ClientMessageCodec

/-- **Envelope parsing.** For every byte array, on both sides: every member of an
envelope that is returned was read from its field, and a message without one of the
fields is refused, exactly when no field is missing or one that is there is refused. -/
theorem envelopes_complete_iff (host : Endian) (text : SerializeField → Bytes) (data : Bytes) :
    (TakenWhole host data (requestMembers host text) (fun fresh => tryParseByteArrayRequest host text fresh data)
        (RequestRead host text data) ↔ NoneMissing host data (requestMembers host text)) ∧
      (TakenWhole host data (responseMembers host) (fun fresh => tryParseByteArrayResponse host fresh data)
        (ResponseRead host data) ↔ NoneMissing host data (responseMembers host)) :=
  ⟨(reads_request host text data).takenWhole_iff, (reads_response host data).takenWhole_iff⟩

/-- An empty message is taken for an envelope that holds whatever stood there before. -/
theorem emptyMessage_taken :
    (∀ fresh : EnvelopeRequestTransfer, (tryParseByteArrayRequest .little (fun _ => []) fresh []).run =
        .ok (some { fresh with path := [], body := [] })) ∧
      (∀ fresh : EnvelopeResponseTransfer, (tryParseByteArrayResponse .little fresh []).run =
        .ok (some { fresh with body := [] })) ∧
      ¬TakenWhole .little [] (requestMembers .little fun _ => [])
        (fun fresh => tryParseByteArrayRequest .little (fun _ => []) fresh [])
        (RequestRead .little (fun _ => []) []) ∧
      ¬TakenWhole .little [] (responseMembers .little) (fun fresh => tryParseByteArrayResponse .little fresh [])
        (ResponseRead .little []) := by
  have hrequest : ∀ fresh : EnvelopeRequestTransfer,
    (tryParseByteArrayRequest .little (fun _ => []) fresh []).run =
      .ok (some { fresh with path := [], body := [] }) := fun _ => rfl
  have hresponse : ∀ fresh : EnvelopeResponseTransfer, (tryParseByteArrayResponse .little fresh []).run =
      .ok (some { fresh with body := [] }) := fun _ => rfl
  have habsent : ∀ name, messageField .little [] name = none := fun _ => rfl
  refine ⟨hrequest, hresponse, ?_, ?_⟩
  · intro hwhole
    have hnone := hwhole.missing ⟨_, List.mem_cons_self, fun hpresent => hpresent (habsent _)⟩ default
    rw [hrequest] at hnone
    cases hnone
  · intro hwhole
    have hnone := hwhole.missing ⟨_, List.mem_cons_self, fun hpresent => hpresent (habsent _)⟩ default
    rw [hresponse] at hnone
    cases hnone

end ProjectTrans
