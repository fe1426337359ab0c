import ProjectTrans.Model.Deployment
import ProjectTrans.Proof.Client.Correlation
import ProjectTrans.Proof.Client.NetworkService
import ProjectTrans.Proof.Server.Exchange
import ProjectTrans.Proof.Server.InOrder

/-!
# From a request to its signal

Along the way from `TransService` to a server and back there are queues, sockets and
threads that each keep what they are given in order (`Inv`). So the frames that come from an
endpoint are the responses to the first requests that were written to it
(`frames_in_order`), and what a signal brings is what the server at the endpoint of its request had
for this request (`signals_answer`), whatever the threads, the connections and the other
peers of the servers do in between.
-/

namespace ProjectTrans

open Wire Framing SerializeCodec

open FrameAssembler (format WireFrame)

/-! ## One request -/

namespace TransService

/-- A request that is built and answered: a block that a vector can hold and a response can
carry, a message that a request can carry. -/
def Request.Fits : Request → Prop
  | test request => request.message.length + 41 ≤ valueLimit
  | download _ => True
  | block request => 0 ≤ request.blockSize.toInt ∧ request.blockSize.toInt ≤ valueLimit

instance : DecidablePred Request.Fits := fun request =>
  match request with
  | .test request => inferInstanceAs (Decidable (request.message.length + 41 ≤ valueLimit))
  | .download _ => inferInstanceAs (Decidable True)
  | .block request =>
    inferInstanceAs (Decidable (0 ≤ request.blockSize.toInt ∧ request.blockSize.toInt ≤ valueLimit))

/-- The signal that a request brings, if any. -/
def Request.signal (files : FileService) (transContext : TransContext) : Request → Option Signal
  | test request => (arrivingTest ⟨ascii "Echo: " ++ request.message⟩).map (.testResponseReceived transContext)
  | download request =>
    some (.downloadResponseReceived transContext (arrivingDownload (files.downloadAnswer request)))
  | block request => (fetched files request).map (.blockResponseReceived transContext)

end TransService

/-- Names and hash codes that a response can carry. -/
def FileService.Named (files : FileService) : Prop :=
  ∀ fileId fileEntity, files.getById fileId = some fileEntity →
    fileEntity.fileName.length ≤ valueLimit ∧ fileEntity.md5Code.length ≤ valueLimit

theorem FileService.Named.downloadAnswer {files : FileService} (h : files.Named) (r : DownloadRequestTransfer) :
    (files.downloadAnswer r).fileName.length ≤ valueLimit ∧ (files.downloadAnswer r).md5Code.length ≤
      valueLimit := by
  unfold FileService.downloadAnswer BusinessRuntime.downloadAnswer
  cases hfound : files.getById r.fileId.toInt32 with
  | none => exact ⟨Nat.zero_le _, Nat.zero_le _⟩
  | some fileEntity => exact h r.fileId.toInt32 fileEntity hfound

section Requests

open TransService BusinessRuntime

variable (host : Endian) (text : SerializeField → Bytes)

/-- The frame of a request, that of its response, and the signal this brings. -/
structure AnsweredBy (files : FileService) (freshRequest : EnvelopeRequestTransfer) (connectId : UInt64)
    (call : SendCall) (bytes response : Bytes) : Prop where
  built : call.request.build host call.context.requestId = .ok bytes
  requestFrame : WireFrame bytes
  handled : handleRequest host files text freshRequest bytes connectId = .ok (some ⟨connectId, response⟩)
  responseFrame : WireFrame response
  parsed : ∃ body, (∀ fresh, (ClientMessageCodec.tryParseByteArrayResponse host fresh response).run =
      .ok (some (ServerMessageCodec.okEnvelope call.context.requestId.toInt64 body))) ∧
    (call.callback.run host text body).run = .ok (call.request.signal files call.context)

theorem run_bind_pure {α β : Type} {x : Parse α} {outcome : Option α} (f : α → β) (h : x.run = .ok outcome) :
    (do let a ← x; return f a : Parse β).run = .ok (outcome.map f) := by
  obtain rfl : x = OptionT.mk (.ok outcome) := h
  cases outcome <;> rfl

/-- **Every request is answered** by one frame that brings its signal. -/
theorem request_answered {files : FileService} (hnamed : files.Named) (freshRequest : EnvelopeRequestTransfer)
    (connectId : UInt64) {call : SendCall} (hfits : call.request.Fits) :
    ∃ bytes response, AnsweredBy host text files freshRequest connectId call bytes response := by
  obtain ⟨⟨requestId, endpoint⟩, request⟩ := call
  cases request with
  | test r =>
    obtain ⟨bytes, ⟨_, response⟩, body, hbuilt, hrequest, hhandled, rfl, hresponse, hparsed, hrun⟩ :=
      test_exchanged host text files freshRequest connectId requestId.toInt64 hfits
    exact ⟨bytes, response, hbuilt, hrequest, hhandled, hresponse, body, hparsed, run_bind_pure _ hrun⟩
  | download r =>
    obtain ⟨hname, hmd5⟩ := hnamed.downloadAnswer r
    obtain ⟨bytes, ⟨_, response⟩, body, hbuilt, hrequest, hhandled, rfl, hresponse, hparsed, hrun⟩ :=
      download_exchanged host text files freshRequest connectId requestId.toInt64 r hname hmd5
    exact ⟨bytes, response, hbuilt, hrequest, hhandled, hresponse, body, hparsed, run_bind_pure _ hrun⟩
  | block r =>
    obtain ⟨bytes, ⟨_, response⟩, body, hbuilt, hrequest, hhandled, rfl, hresponse, hparsed, hrun⟩ :=
      block_exchanged host text files freshRequest connectId requestId.toInt64 hfits.1 hfits.2
    exact ⟨bytes, response, hbuilt, hrequest, hhandled, hresponse, body, hparsed, run_bind_pure _ hrun⟩

end Requests

/-- A server finds its own files. -/
def DeploymentAction.serves (served : NetworkEndpoint → FileService → Prop) : DeploymentAction → Prop
  | server endpoint action => action.serves (served endpoint)
  | _ => True

namespace Deployment

open TransService (Request SendCall)

variable (serverFd eventFd : NetworkEndpoint → ℕ) (host : Endian) (text : SerializeField → Bytes)
  (served : NetworkEndpoint → FileService → Prop)

/-! ## All requests -/

/-- A request fits, a server is orderly, and neither has given its last id. -/
def proper (s : Deployment) : DeploymentAction → Bool
  | .trans (.send _ request) => request.Fits && s.trans.calls.length < 2 ^ 64 - 1
  | .server endpoint action =>
    (s.servers endpoint).orderly action && (s.servers endpoint).loop.accepted < 2 ^ 64 - 1
  | _ => true

/-- Frames that are sent are those of requests that were made. -/
structure Requests (s : Deployment) : Prop where
  trans : s.trans.Inv host text
  fits : ∀ call ∈ s.trans.calls, call.request.Fits
  emitting : ∀ call ∈ s.trans.emitting, call ∈ s.trans.calls
  sent : ∀ sent ∈ s.trans.sent, ∃ call ∈ s.trans.calls,
    sent = (call.context.endpoint, call.request.build host call.context.requestId)
  requested : ∀ write ∈ s.network.requested, ∃ call ∈ s.trans.calls,
    write.1 = call.context.endpoint ∧ call.request.build host call.context.requestId = .ok write.2
  received : ∀ frame ∈ s.trans.received, ∃ endpoint, frame ∈ s.network.framesOf endpoint

/-- Each side of a connection has got the first bytes of what the other side has given. -/
structure Linked (s : Deployment) : Prop where
  unconnected : ∀ endpoint, s.socketOf endpoint = none → s.network.received endpoint = []
  incoming : ∀ endpoint k, s.socketOf endpoint = some k →
    ((s.servers endpoint).loop.sockets k).incoming <+: s.network.taken endpoint
  outgoing : ∀ endpoint k, s.socketOf endpoint = some k →
    s.network.received endpoint <+: ((s.servers endpoint).loop.sockets k).outgoing

/-- What every step keeps. -/
structure Inv (s : Deployment) : Prop where
  requests : s.Requests host text
  streams : s.network.Streams
  servers : ∀ endpoint, (s.servers endpoint).Orderly host text (served endpoint)
  few : ∀ endpoint, (s.servers endpoint).loop.accepted < 2 ^ 64
  linked : s.Linked

theorem Inv.init : init.Inv host text served where
  requests := ⟨.init host text, fun _ h => absurd h List.not_mem_nil, fun _ h => absurd h List.not_mem_nil,
    fun _ h => absurd h List.not_mem_nil, fun _ h => absurd h List.not_mem_nil,
    fun _ h => absurd h List.not_mem_nil⟩
  streams := .init
  servers := fun endpoint => .init host text (served endpoint)
  few := fun _ => Nat.pow_pos (by decide)
  linked := ⟨fun _ _ => rfl, fun _ _ h => (by cases h), fun _ _ h => (by cases h)⟩

variable {serverFd eventFd host text served} {s s' : Deployment}

/-! ## The client's threads -/

/-- What `TransService` does without a frame. -/
theorem Requests.of_trans (h : s.Requests host text) {trans : TransService.System} (htrans : trans.Inv host text)
    (hcalls : ∀ call ∈ s.trans.calls, call ∈ trans.calls) (hfits : ∀ call ∈ trans.calls, call.request.Fits)
    (hemitting : ∀ call ∈ trans.emitting, call ∈ trans.calls)
    (hsent : ∀ sent ∈ trans.sent, sent ∈ s.trans.sent ∨ ∃ call ∈ trans.calls,
      sent = (call.context.endpoint, call.request.build host call.context.requestId))
    (hreceived : trans.received = s.trans.received) : Requests host text { s with trans := trans } where
  trans := htrans
  fits := hfits
  emitting := hemitting
  sent := by
    intro sent hmem
    rcases hsent sent hmem with hold | hnew
    · obtain ⟨call, hcall, heq⟩ := h.sent sent hold
      exact ⟨call, hcalls call hcall, heq⟩
    · exact hnew
  requested := by
    intro write hwrite
    obtain ⟨call, hcall, hbuilt⟩ := h.requested write hwrite
    exact ⟨call, hcalls call hcall, hbuilt⟩
  received := by
    show ∀ frame ∈ trans.received, _
    rw [hreceived]
    exact h.received

/-- `TransService` goes on. -/
theorem Inv.trans (h : s.Inv host text served) (action : TransService.Action)
    (hproper : s.proper (.trans action) = true) :
    (s.step serverFd eventFd host text (.trans action)).Inv host text served := by
  have hrequests := h.requests
  have hlinked : ∀ trans, Linked { s with trans := trans } := fun trans =>
    ⟨h.linked.unconnected, h.linked.incoming, h.linked.outgoing⟩
  cases action with
  | send endpoint request =>
    obtain ⟨hrequest, hfew⟩ := Bool.and_eq_true_iff.1 hproper
    rw [decide_eq_true_eq] at hrequest hfew
    -- the request that is made fits, as the action is proper
    have htrans := hrequests.trans.send endpoint request (by omega)
    refine ⟨hrequests.of_trans htrans (fun call hcall => List.mem_append_left _ hcall) (fun call hcall => ?_)
      (fun call hcall => List.mem_append_left _ (hrequests.emitting call hcall)) (fun _ hsent => .inl hsent) rfl,
      h.streams, h.servers, h.few, hlinked _⟩
    rcases List.mem_append.1 hcall with hold | hnew
    · exact hrequests.fits call hold
    · rw [List.mem_singleton.1 hnew]
      exact hrequest
  | register call =>
    have htrans := hrequests.trans.register call
    refine ⟨?_, h.streams, h.servers, h.few, hlinked _⟩
    revert htrans
    simp only [Deployment.step, TransService.step]
    split
    · rename_i hregistering
      intro htrans
      -- a call that was to be registered is one that is to be emitted
      refine hrequests.of_trans htrans (fun _ hcall => hcall) hrequests.fits (fun call' hcall' => ?_)
        (fun _ hsent => .inl hsent) rfl
      rcases List.mem_append.1 hcall' with hold | hnew
      · exact hrequests.emitting call' hold
      · rw [List.mem_singleton.1 hnew]
        exact hrequests.trans.registering call hregistering
    · exact fun _ => hrequests
  | emit call =>
    have htrans := hrequests.trans.emit call
    refine ⟨?_, h.streams, h.servers, h.few, hlinked _⟩
    revert htrans
    simp only [Deployment.step, TransService.step]
    split
    · rename_i hemitting
      intro htrans
      refine hrequests.of_trans htrans (fun _ hcall => hcall) hrequests.fits
        (fun call' hcall' => hrequests.emitting call' (List.mem_of_mem_erase hcall')) (fun sent hsent => ?_) rfl
      -- what is sent was asked for by the call that is emitted
      refine (List.mem_append.1 hsent).imp_right fun hnew => ⟨call, hrequests.emitting call hemitting, ?_⟩
      exact List.mem_singleton.1 hnew
    · exact fun _ => hrequests
  -- frames come in from the network thread, by a step of its own
  | receive fresh data => exact h
  | answer answer =>
    have htrans := hrequests.trans.answer answer
    refine ⟨?_, h.streams, h.servers, h.few, hlinked _⟩
    revert htrans
    simp only [Deployment.step, TransService.step]
    split
    · exact fun htrans => hrequests.of_trans htrans (fun _ hcall => hcall) hrequests.fits hrequests.emitting
        (fun _ hsent => .inl hsent) rfl
    · exact fun _ => hrequests
  | timeout requestId =>
    have htrans := hrequests.trans.timeout requestId
    refine ⟨?_, h.streams, h.servers, h.few, hlinked _⟩
    revert htrans
    simp only [Deployment.step, TransService.step]
    split
    · exact fun htrans => hrequests.of_trans htrans (fun _ hcall => hcall) hrequests.fits hrequests.emitting
        (fun _ hsent => .inl hsent) rfl
    · exact fun _ => hrequests

/-! ## What goes over a connection -/

/-- The frames that were to be written to an endpoint are frames of the stream. -/
theorem Requests.requested_wireFrame (h : s.Requests host text) {endpoint : NetworkEndpoint} {bytes : Bytes}
    (hbytes : bytes ∈ s.network.requestedFor endpoint) :
    WireFrame bytes ∧ ∃ call ∈ s.trans.calls, call.context.endpoint = endpoint ∧ call.request.Fits ∧
      call.request.build host call.context.requestId = .ok bytes := by
  obtain ⟨⟨e, data⟩, hwrite, rfl⟩ := List.mem_map.1 hbytes
  obtain ⟨hmem, hendpoint⟩ := List.mem_filter.1 hwrite
  rw [decide_eq_true_eq] at hendpoint
  obtain ⟨call, hcall, heq, hbuilt⟩ := h.requested _ hmem
  have hnamed : FileService.Named Server.noFiles := fun _ _ hfound => by cases hfound
  obtain ⟨bytes', response, hanswered⟩ :=
    request_answered host text hnamed ⟨0, 0, 0, [], .json, []⟩ 0 (h.fits call hcall)
  obtain rfl := Except.ok.inj (hanswered.built.symm.trans hbuilt)
  exact ⟨hanswered.requestFrame, call, hcall, heq.symm.trans hendpoint, h.fits call hcall, hbuilt⟩

/-- The bytes of the responses, if there is one to each request. -/
theorem bytes_filterMap {answered : List (Bytes × Option PosixFrame)} (h : ∀ answer ∈ answered, answer.2.isSome) :
    PosixFrame.bytes (answered.filterMap Prod.snd) =
      (answered.map fun answer => (answer.2.map PosixFrame.data).getD []).flatten := by
  induction answered with
  | nil => rfl
  | cons answer answered ih =>
    obtain ⟨frame, hframe⟩ := Option.isSome_iff_exists.1 (h answer List.mem_cons_self)
    have hrest := ih fun answer' hanswer' => h answer' (List.mem_cons_of_mem _ hanswer')
    rw [List.filterMap_cons_some hframe, EventLoop.bytes_cons, hrest, List.map_cons, List.flatten_cons, hframe]
    rfl

/-- **What a server gives a connection** are the responses to the first requests that were
written to it. -/
theorem Inv.responses (h : s.Inv host text served)
    (hnamed : ∀ endpoint files, served endpoint files → files.Named)
    {endpoint : NetworkEndpoint} {k : ℕ} (hsocket : s.socketOf endpoint = some k) :
    ∃ answered : List (Bytes × Bytes), answered.map Prod.fst <+: s.network.requestedFor endpoint ∧
      ((s.servers endpoint).loop.sockets k).outgoing <+: (answered.map Prod.snd).flatten ∧
      ∀ answer ∈ answered, ∃ call ∈ s.trans.calls, call.context.endpoint = endpoint ∧ ∃ files fresh,
        served endpoint files ∧ AnsweredBy host text files fresh (.ofNat k) call answer.1 answer.2 := by
  obtain ⟨answered, hanswered⟩ := (h.servers endpoint).inOrder k
  have hrequested : ∀ bytes ∈ s.network.requestedFor endpoint, IsFrame format bytes :=
    fun bytes hbytes => (h.requests.requested_wireFrame hbytes).1.isFrame
  -- what the server has read are the first requests
  have hfirst : answered.map Prod.fst <+: s.network.requestedFor endpoint := by
    have hincoming := frames_prefix (F := format) (by decide) (h.linked.incoming endpoint k hsocket)
    have htaken := frames_prefix (F := format) (by decide) (h.streams.taken_prefix endpoint)
    rw [frames_flatten (by decide) hrequested] at htaken
    exact ((List.prefix_append _ _).trans hanswered.incoming).trans (hincoming.trans htaken)
  -- each of them has a response
  have heach : ∀ answer ∈ answered, ∃ response, answer.2 = some ⟨.ofNat k, response⟩ ∧
      ∃ call ∈ s.trans.calls, call.context.endpoint = endpoint ∧ ∃ files fresh,
        served endpoint files ∧ AnsweredBy host text files fresh (.ofNat k) call answer.1 response := by
    intro answer hanswer
    obtain ⟨files, fresh, hserved, hhandled⟩ := hanswered.answers answer hanswer
    obtain ⟨-, call, hcall, hendpoint, hfits, hbuilt⟩ :=
      h.requests.requested_wireFrame (hfirst.subset (List.mem_map_of_mem hanswer))
    obtain ⟨bytes, response, hby⟩ := request_answered host text (hnamed endpoint files hserved) fresh
      (.ofNat k) hfits
    obtain rfl := Except.ok.inj (hby.built.symm.trans hbuilt)
    exact ⟨response, Except.ok.inj (hhandled.symm.trans hby.handled), call, hcall, hendpoint, files, fresh,
      hserved, hby⟩
  refine ⟨answered.map fun answer => (answer.1, (answer.2.map PosixFrame.data).getD []), ?_, ?_, ?_⟩
  · rw [List.map_map]
    exact hfirst
  · have hsome : ∀ answer ∈ answered, answer.2.isSome := by
      intro answer hanswer
      obtain ⟨response, hresponse, -⟩ := heach answer hanswer
      rw [hresponse]
      rfl
    rw [List.map_map]
    exact bytes_filterMap hsome ▸ hanswered.outgoing
  · intro answer' hanswer'
    obtain ⟨answer, hanswer, rfl⟩ := List.mem_map.1 hanswer'
    obtain ⟨response, hresponse, hcall⟩ := heach answer hanswer
    rw [hresponse]
    exact hcall

/-- What comes from an endpoint are frames that it has given. -/
theorem Inv.framesOf_answered (h : s.Inv host text served)
    (hnamed : ∀ endpoint files, served endpoint files → files.Named) (endpoint : NetworkEndpoint) :
    ∃ answered : List (Bytes × Bytes), answered.map Prod.fst <+: s.network.requestedFor endpoint ∧
      s.network.framesOf endpoint <+: answered.map Prod.snd ∧
      ∀ answer ∈ answered, ∃ call ∈ s.trans.calls, call.context.endpoint = endpoint ∧ ∃ files fresh connectId,
        served endpoint files ∧ AnsweredBy host text files fresh connectId call answer.1 answer.2 := by
  rw [h.streams.framesOf_eq]
  cases hsocket : s.socketOf endpoint with
  | none =>
    rw [h.linked.unconnected endpoint hsocket]
    exact ⟨[], List.nil_prefix, List.nil_prefix, fun _ hanswer => absurd hanswer List.not_mem_nil⟩
  | some k =>
    obtain ⟨answered, hfirst, houtgoing, heach⟩ := h.responses hnamed hsocket
    refine ⟨answered, hfirst, ?_, fun answer hanswer => ?_⟩
    · have hresponses : ∀ response ∈ answered.map Prod.snd, IsFrame format response := by
        intro response hresponse
        obtain ⟨answer, hanswer, rfl⟩ := List.mem_map.1 hresponse
        obtain ⟨call, -, -, files, fresh, -, hby⟩ := heach answer hanswer
        exact hby.responseFrame.isFrame
      -- what has arrived begins the answers, so its frames are the first of them
      have hframes := frames_prefix (F := format) (by decide)
        ((h.linked.outgoing endpoint k hsocket).trans houtgoing)
      rwa [frames_flatten (by decide) hresponses] at hframes
    · obtain ⟨call, hcall, hendpoint, files, fresh, hserved, hby⟩ := heach answer hanswer
      exact ⟨call, hcall, hendpoint, files, fresh, _, hserved, hby⟩

/-! ## The network's thread -/

/-- A call of the network's thread that reads nothing. -/
theorem Inv.network (h : s.Inv host text served) {call : NetworkCall} (handedOver : ℕ)
    (hread : ∀ endpoint data, call ≠ .onSocketRead endpoint data)
    (hbuilt : ∀ endpoint data result freshHeader, call = .onWriteRawData endpoint data result freshHeader →
      ∃ request ∈ s.trans.calls, endpoint = request.context.endpoint ∧
        request.request.build host request.context.requestId = .ok data) :
    Inv host text served { s with handedOver := handedOver, network := s.network.step host call } := by
  have hextends := s.network.step_extends host call
  -- nothing is read from a socket here
  have hreceived : ∀ endpoint, (s.network.step host call).received endpoint = s.network.received endpoint := by
    intro endpoint
    rcases hextends.received endpoint with heq | ⟨data, heq, -⟩
    · exact heq
    · exact absurd heq (hread endpoint data)
  have hsmall : s.network.readsSmall call = true := by
    cases call with
    | onSocketRead endpoint data => exact absurd rfl (hread endpoint data)
    | _ => rfl
  refine ⟨⟨h.requests.trans, h.requests.fits, h.requests.emitting, h.requests.sent, fun write hwrite => ?_,
    fun frame hframe => ?_⟩, h.streams.step call hsmall, h.servers, h.few, ⟨fun endpoint hnone => ?_,
    fun endpoint k hsocket => ?_, fun endpoint k hsocket => ?_⟩⟩
  · rcases hextends.requested write hwrite with hold | ⟨result, freshHeader, heq⟩
    · exact h.requests.requested write hold
    · exact hbuilt _ _ result freshHeader heq
  · obtain ⟨endpoint, hmem⟩ := h.requests.received frame hframe
    exact ⟨endpoint, hextends.ready endpoint frame hmem⟩
  · exact (hreceived endpoint).trans (h.linked.unconnected endpoint hnone)
  · exact (h.linked.incoming endpoint k hsocket).trans (hextends.taken endpoint)
  · show (s.network.step host call).received endpoint <+: _
    rw [hreceived]
    exact h.linked.outgoing endpoint k hsocket

/-- The next frame of `TransService` is written. -/
theorem Inv.writeRawData (h : s.Inv host text served) (result : SocketWrite) (freshHeader : SerializeHeader) :
    (s.step serverFd eventFd host text (.writeRawData result freshHeader)).Inv host text served := by
  simp only [Deployment.step]
  split
  · exact h
  · exact ⟨⟨h.requests.trans, h.requests.fits, h.requests.emitting, h.requests.sent, h.requests.requested,
      h.requests.received⟩, h.streams, h.servers, h.few, ⟨h.linked.unconnected, h.linked.incoming,
        h.linked.outgoing⟩⟩
  · rename_i endpoint data hnext
    refine h.network _ (fun _ _ heq => by cases heq) fun e d r f heq => ?_
    cases heq
    obtain ⟨call, hcall, hsent⟩ := h.requests.sent _ (List.mem_of_getElem? hnext)
    obtain ⟨hendpoint, hbuilt⟩ := Prod.mk.inj hsent
    exact ⟨call, hcall, hendpoint, hbuilt.symm⟩

/-- The client can take no other frame from the server than the next. -/
theorem Inv.readsSmall (h : s.Inv host text served)
    (hnamed : ∀ endpoint files, served endpoint files → files.Named)
    {endpoint : NetworkEndpoint} {k : ℕ} (hsocket : s.socketOf endpoint = some k) {data : Bytes}
    (hdata : s.network.received endpoint ++ data <+: ((s.servers endpoint).loop.sockets k).outgoing) :
    s.network.readsSmall (.onSocketRead endpoint data) = true := by
  obtain ⟨answered, -, houtgoing, heach⟩ := h.responses hnamed hsocket
  have hresponses : ∀ response ∈ answered.map Prod.snd, WireFrame response := by
    intro response hresponse
    obtain ⟨answer, hanswer, rfl⟩ := List.mem_map.1 hresponse
    obtain ⟨call, -, -, files, fresh, -, hby⟩ := heach answer hanswer
    exact hby.responseFrame
  have hframes := frames_prefix (F := format) (by decide) (hdata.trans houtgoing)
  rw [frames_flatten (by decide) fun response hresponse => (hresponses response hresponse).isFrame] at hframes
  simp only [ClientNetwork.readsSmall]
  split
  · rename_i context contexts hcontext
    obtain ⟨context', heq, hcarries⟩ := h.streams.one endpoint _ hcontext
    obtain ⟨rfl, -⟩ := List.cons.inj heq
    -- the frames that come next are responses of the server, which are small
    rw [← hcarries.read, List.append_assoc, frames_append (by decide) hcarries.isFrame] at hframes
    rw [List.all_eq_true]
    intro f hf
    rw [decide_eq_true_eq]
    exact (hresponses f (hframes.subset (List.mem_append_right _ hf))).1
  · rfl

/-- Bytes get to the client. -/
theorem Inv.socketRead (h : s.Inv host text served)
    (hnamed : ∀ endpoint files, served endpoint files → files.Named) (endpoint : NetworkEndpoint) (n : ℕ) :
    (s.step serverFd eventFd host text (.socketRead endpoint n)).Inv host text served := by
  simp only [Deployment.step]
  split
  · exact h
  rename_i k hsocket
  set outgoing := ((s.servers endpoint).loop.sockets k).outgoing with houtgoing
  set data := (outgoing.drop (s.network.received endpoint).length).take n with hdata
  have hprefix : s.network.received endpoint ++ data <+: outgoing := by
    obtain ⟨rest, hrest⟩ := h.linked.outgoing endpoint k hsocket
    have hdrop : outgoing.drop (s.network.received endpoint).length = rest := by
      rw [houtgoing, ← hrest, List.drop_left]
    rw [hdata, hdrop, houtgoing, ← hrest]
    exact (List.prefix_append_right_inj _).2 (List.take_prefix _ _)
  -- what arrives goes on from what has arrived, and the other connections are as they were
  have hextends := s.network.step_extends host (.onSocketRead endpoint data)
  have hstreams : (s.network.step host (.onSocketRead endpoint data)).Streams :=
    h.streams.step _ (h.readsSmall hnamed hsocket hprefix)
  refine ⟨⟨h.requests.trans, h.requests.fits, h.requests.emitting, h.requests.sent, fun write hwrite => ?_,
    fun frame hframe => ?_⟩, hstreams, h.servers, h.few, ⟨fun e hnone => ?_, fun e j hsocket' => ?_,
    fun e j hsocket' => ?_⟩⟩
  · rcases hextends.requested write hwrite with hold | ⟨result, freshHeader, heq⟩
    · exact h.requests.requested write hold
    · cases heq
  · obtain ⟨e, hmem⟩ := h.requests.received frame hframe
    exact ⟨e, hextends.ready e frame hmem⟩
  · rcases hextends.received e with heq | ⟨data', heq, -⟩
    · exact heq.trans (h.linked.unconnected e hnone)
    · cases heq
      rw [hsocket] at hnone
      cases hnone
  · exact (h.linked.incoming e j hsocket').trans (hextends.taken e)
  · rcases hextends.received e with heq | ⟨data', heq, heq'⟩
    · show (s.network.step host _).received e <+: _
      rw [heq]
      exact h.linked.outgoing e j hsocket'
    · obtain ⟨rfl, rfl⟩ := NetworkCall.onSocketRead.inj heq
      obtain rfl := Option.some.inj (hsocket.symm.trans hsocket')
      exact heq' ▸ hprefix

/-! ## The servers and the connections -/

/-- A server that keeps the order goes on. -/
theorem Inv.stepServer (h : s.Inv host text served) {endpoint : NetworkEndpoint} {action : ServerAction}
    (horderly : ((s.servers endpoint).step (serverFd endpoint) (eventFd endpoint) host text action).Orderly
      host text (served endpoint))
    (hfew :
      ((s.servers endpoint).step (serverFd endpoint) (eventFd endpoint) host text action).loop.accepted < 2 ^ 64)
    (hincoming : ∀ k, s.socketOf endpoint = some k →
      (((s.servers endpoint).step (serverFd endpoint) (eventFd endpoint) host text action).loop.sockets
        k).incoming <+: s.network.taken endpoint) :
    (s.stepServer serverFd eventFd host text endpoint action).Inv host text served := by
  set server := (s.servers endpoint).step (serverFd endpoint) (eventFd endpoint) host text action with hserver
  -- only this server has changed
  have hservers : ∀ {P : NetworkEndpoint → Server → Prop}, P endpoint server → (∀ e, P e (s.servers e)) →
      ∀ e, P e ((s.stepServer serverFd eventFd host text endpoint action).servers e) := by
    intro P hhere hother e
    show P e (Function.update s.servers endpoint server e)
    by_cases he : e = endpoint
    · rw [he, Function.update_self]
      exact hhere
    · rw [Function.update_of_ne he]
      exact hother e
  refine ⟨⟨h.requests.trans, h.requests.fits, h.requests.emitting, h.requests.sent, h.requests.requested,
    h.requests.received⟩, h.streams, hservers horderly h.servers, ?_, ⟨h.linked.unconnected, ?_, ?_⟩⟩
  · exact hservers (P := fun _ server => server.loop.accepted < 2 ^ 64) hfew h.few
  · exact hservers (P := fun e server => ∀ k, s.socketOf e = some k →
      (server.loop.sockets k).incoming <+: s.network.taken e) hincoming h.linked.incoming
  · refine hservers (P := fun e server => ∀ k, s.socketOf e = some k →
      s.network.received e <+: (server.loop.sockets k).outgoing) (fun k hsocket => ?_) h.linked.outgoing
    exact (h.linked.outgoing endpoint k hsocket).trans (Server.step_outgoing _ _ host text _ action k)

/-- A server goes on by itself. -/
theorem Inv.server (h : s.Inv host text served) (endpoint : NetworkEndpoint) (action : ServerAction)
    (hproper : s.proper (.server endpoint action) = true) (hserves : action.serves (served endpoint)) :
    (s.step serverFd eventFd host text (.server endpoint action)).Inv host text served := by
  obtain ⟨horderly, hfew⟩ := Bool.and_eq_true_iff.1 hproper
  rw [decide_eq_true_eq] at hfew
  simp only [Deployment.step]
  split
  · exact h
  rename_i harrives
  have hstep :
      ((s.servers endpoint).step (serverFd endpoint) (eventFd endpoint) host text action).loop.accepted ≤ _ :=
    Server.step_accepted (serverFd endpoint) (eventFd endpoint) (s.servers endpoint) action
  have hfew' :
      ((s.servers endpoint).step (serverFd endpoint) (eventFd endpoint) host text action).loop.accepted <
        2 ^ 64 := by
    split at hstep <;> omega
  refine h.stepServer ((h.servers endpoint).step action horderly hserves hfew') hfew' fun k hsocket => ?_
  rw [Server.step_incoming _ _ host text _ fun data heq =>
    harrives (by rw [heq, hsocket]; simp [ServerAction.arrivesAt])]
  exact h.linked.incoming endpoint k hsocket

/-- Bytes get to a server. -/
theorem Inv.carry (h : s.Inv host text served) (endpoint : NetworkEndpoint) (n : ℕ) :
    (s.step serverFd eventFd host text (.carry endpoint n)).Inv host text served := by
  simp only [Deployment.step]
  split
  · exact h
  rename_i k hsocket
  set data :=
    ((s.network.taken endpoint).drop ((s.servers endpoint).loop.sockets k).incoming.length).take n with hdata
  have hstep : ((s.servers endpoint).step (serverFd endpoint) (eventFd endpoint) host text
      (.loop (.arrive k data))).loop.accepted ≤ _ :=
    Server.step_accepted (serverFd endpoint) (eventFd endpoint) (s.servers endpoint) (.loop (.arrive k data))
  have hfew := lt_of_le_of_lt hstep (h.few endpoint)
  refine h.stepServer ((h.servers endpoint).step _ rfl trivial hfew) hfew fun j hsocket' => ?_
  obtain rfl := Option.some.inj (hsocket.symm.trans hsocket')
  obtain ⟨rest, hrest⟩ := h.linked.incoming endpoint k hsocket
  have hdrop : (s.network.taken endpoint).drop ((s.servers endpoint).loop.sockets k).incoming.length = rest := by
    rw [← hrest, List.drop_left]
  simp only [Server.step, EventLoop.step]
  split
  · show (Function.update (s.servers endpoint).loop.sockets k _ k).incoming <+: _
    rw [Function.update_self, hdata, hdrop, ← hrest]
    exact (List.prefix_append_right_inj _).2 (List.take_prefix _ _)
  · exact ⟨rest, hrest⟩

/-- The next connection of a server is the client's. -/
theorem Inv.connect (h : s.Inv host text served) (endpoint : NetworkEndpoint) :
    (s.step serverFd eventFd host text (.connect endpoint)).Inv host text served := by
  simp only [Deployment.step]
  split
  · exact h
  rename_i hnone
  -- the endpoint gets the socket its server accepts next; the others keep theirs
  have hsocket : ∀ {P : NetworkEndpoint → ℕ → Prop}, P endpoint (s.servers endpoint).loop.accepted →
      (∀ e k, s.socketOf e = some k → P e k) → ∀ e k,
        Function.update s.socketOf endpoint (some (s.servers endpoint).loop.accepted) e = some k → P e k := by
    intro P hhere hother e k hk
    by_cases he : e = endpoint
    · subst he
      rw [Function.update_self] at hk
      rw [← Option.some.inj hk]
      exact hhere
    · rw [Function.update_of_ne he] at hk
      exact hother e k hk
  refine ⟨⟨h.requests.trans, h.requests.fits, h.requests.emitting, h.requests.sent, h.requests.requested,
    h.requests.received⟩, h.streams, h.servers, h.few, ⟨fun e he => ?_, ?_, ?_⟩⟩
  · refine h.linked.unconnected e ?_
    by_cases heq : e = endpoint
    · rw [heq]
      exact hnone
    · exact (Function.update_of_ne heq _ _).symm.trans he
  · -- nothing has come over a connection that is not accepted
    refine hsocket (P := fun e k => ((s.servers e).loop.sockets k).incoming <+: s.network.taken e) ?_
      h.linked.incoming
    obtain ⟨-, hincoming, -⟩ := (h.servers endpoint).receives.live.fresh _ le_rfl
    exact hincoming ▸ List.nil_prefix
  · refine hsocket (P := fun e k => s.network.received e <+: ((s.servers e).loop.sockets k).outgoing) ?_
      h.linked.outgoing
    rw [h.linked.unconnected endpoint hnone]
    exact List.nil_prefix

theorem receive_same (host : Endian) (text : SerializeField → Bytes) (trans : TransService.System)
    (fresh : EnvelopeResponseTransfer) (frame : Bytes) :
    (TransService.step host text trans (.receive fresh frame)).calls = trans.calls ∧
      (TransService.step host text trans (.receive fresh frame)).emitting = trans.emitting ∧
      (TransService.step host text trans (.receive fresh frame)).sent = trans.sent ∧
      (TransService.step host text trans (.receive fresh frame)).received = trans.received ++ [frame] := by
  simp only [TransService.step]
  split
  · split <;> exact ⟨rfl, rfl, rfl, rfl⟩
  · exact ⟨rfl, rfl, rfl, rfl⟩

/-- `TransService` gets a frame. -/
theorem Inv.receive (h : s.Inv host text served) (fresh : EnvelopeResponseTransfer) :
    (s.step serverFd eventFd host text (.receive fresh)).Inv host text served := by
  simp only [Deployment.step]
  split
  · exact h
  rename_i endpoint frame hnext
  have hframe : frame ∈ s.network.framesOf endpoint := by
    refine List.mem_map.2 ⟨(endpoint, frame), List.mem_filter.2 ⟨List.mem_of_getElem? hnext, ?_⟩, rfl⟩
    exact decide_eq_true rfl
  have htrans := h.requests.trans.receive fresh frame
  obtain ⟨hcalls, hemitting, hsent, hreceived⟩ := receive_same host text s.trans fresh frame
  refine ⟨⟨htrans, ?_, ?_, ?_, ?_, ?_⟩, h.streams, h.servers, h.few,
    ⟨h.linked.unconnected, h.linked.incoming, h.linked.outgoing⟩⟩ <;> dsimp only
  · rw [hcalls]
    exact h.requests.fits
  · rw [hcalls, hemitting]
    exact h.requests.emitting
  · rw [hcalls, hsent]
    exact h.requests.sent
  · rw [hcalls]
    exact h.requests.requested
  · rw [hreceived]
    intro frame' hframe'
    rcases List.mem_append.1 hframe' with hold | hnew
    · exact h.requests.received frame' hold
    · rw [List.mem_singleton.1 hnew]
      -- the frame that is received next is one the network has made ready
      exact ⟨endpoint, hframe⟩

/-! ## Runs -/

/-- **Every step keeps** what is on its way. -/
theorem Inv.step (h : s.Inv host text served) (hnamed : ∀ endpoint files, served endpoint files → files.Named)
    (action : DeploymentAction) (hproper : s.proper action = true) (hserves : action.serves served) :
    (s.step serverFd eventFd host text action).Inv host text served := by
  cases action with
  | trans action => exact h.trans action hproper
  | writeRawData result freshHeader => exact h.writeRawData result freshHeader
  | socketWrite endpoint result =>
    exact h.network s.handedOver (fun _ _ heq => by cases heq) fun _ _ _ _ heq => by cases heq
  | connect endpoint => exact h.connect endpoint
  | server endpoint action => exact h.server endpoint action hproper hserves
  | carry endpoint n => exact h.carry endpoint n
  | socketRead endpoint n => exact h.socketRead hnamed endpoint n
  | receive fresh => exact h.receive fresh

theorem inv_run (hnamed : ∀ endpoint files, served endpoint files → files.Named) {actions : List DeploymentAction}
    (hproper : Run.Meets (fun s action => s.proper action = true) (step serverFd eventFd host text) init actions)
    (hserves : ∀ action ∈ actions, action.serves served) :
    (actions.foldl (step serverFd eventFd host text) init).Inv host text served :=
  (hproper.and_forall hserves).invariant (Inv host text served)
    (fun _ action h hok => h.step hnamed action hok.2 hok.1) (.init host text served)

/-- The frame of an endpoint brings the signal of its request. -/
theorem Inv.signal (h : s.Inv host text served) (hnamed : ∀ endpoint files, served endpoint files → files.Named)
    {signal : TransService.Signal} (hsignal : signal ∈ s.trans.signals) :
    ∃ call ∈ s.trans.calls, ∃ files, served call.context.endpoint files ∧
      call.request.signal files call.context = some signal := by
  have hcorrelated := h.requests.trans.spec
  obtain ⟨answer, hanswer, hrun, -, -⟩ := hcorrelated.signal signal hsignal
  obtain ⟨hreceived, hcarries, call, hcall, -, hcallback⟩ := hcorrelated.own answer hanswer
  obtain ⟨endpoint, hframe⟩ := h.requests.received answer.frame hreceived
  -- the frame is the response to some request that was written to the endpoint
  obtain ⟨answered, -, hframes, heach⟩ := h.framesOf_answered hnamed endpoint
  obtain ⟨made, hmade, hresponse⟩ := List.mem_map.1 (hframes.subset hframe)
  obtain ⟨call', hcall', hendpoint, files, fresh, connectId, hserved, hby⟩ := heach made hmade
  obtain ⟨body, hparsed, hsignal'⟩ := hby.parsed
  obtain ⟨fresh', hparsed'⟩ := hcarries.parsed
  rw [← hresponse, hparsed fresh'] at hparsed'
  have henvelope := Option.some.inj (Except.ok.inj hparsed')
  -- and its id is that of the request whose callback ran
  have hid : call'.context.requestId = call.context.requestId := by
    have hequal := hcarries.requestId_eq
    rw [hcallback, ← henvelope] at hequal
    have hcontext : call'.context.requestId.toInt64.toUInt64 = call.context.requestId := hequal
    rwa [UInt64.toUInt64_toInt64] at hcontext
  obtain rfl := h.requests.trans.call_eq hcall' hcall hid
  refine ⟨call', hcall, files, hendpoint ▸ hserved, ?_⟩
  rw [hcallback, ← henvelope] at hrun
  exact Except.ok.inj (hsignal'.symm.trans hrun)

/-- Where a server has `threeByteFile`. -/
def threeByteServer : NetworkEndpoint := ⟨[], 80⟩

/-- Two bytes of its file are requested. -/
def twoBytes : TransService.SendCall := ⟨⟨0, threeByteServer⟩, .block ⟨3, 1, 2, 1, 2⟩⟩

/-- The frame of this request. -/
def twoBytesRequest : Bytes := (twoBytes.request.build .little 0).toOption.getD []

/-- Its response, as `TransService` takes it apart and finds the callback. -/
def twoBytesAnswer : TransService.Answer :=
  TransService.answerOf twoBytes
    (ServerMessageCodec.buildBlockResponseByteArray .little ⟨3, 1, 2, 1, 2, [0x42, 0x43]⟩ 0)

/-- The request is written before the socket is open, gets to the server in two pieces, and
the response comes back in two. -/
def twoBytesFetched : List DeploymentAction :=
  [.trans (.send threeByteServer twoBytes.request), .trans (.register twoBytes), .trans (.emit twoBytes),
    .writeRawData .unusable ⟨0, 0, 0, .none, 0, 0⟩, .connect threeByteServer] ++
  ([.loop (.wait [(3, { epollIn := true })]), .loop (.io .go),
    .loop (.io (.accept 5 true ⟨0, 0, 0, .none, 0, 0⟩)), .loop (.io .noConnection)] : List ServerAction).map
    (.server threeByteServer) ++
  [.socketWrite threeByteServer (.returns 1000), .carry threeByteServer 100, .carry threeByteServer 1000] ++
  ([.loop (.wait [(5, { epollIn := true })]), .loop (.io .go), .loop (.io (.read (.bytes 1024))),
    .loop (.io (.read .again)), .loop (.io .go), .loop (.io .go), .take,
    .handleRequest ⟨0, ⟨0, twoBytesRequest⟩⟩ threeByteFile ⟨0, 0, 0, [], .json, []⟩, .loop .signal,
    .loop (.wait [(4, { epollIn := true })]), .loop (.io .go), .loop (.io (.order [5])), .loop (.io (.order [5])),
    .loop (.io .go), .loop (.io .go), .loop (.io .go), .loop (.io (.write [.bytes 1000] []))] :
      List ServerAction).map
      (.server threeByteServer) ++
  [.socketRead threeByteServer 20, .socketRead threeByteServer 1000, .receive ⟨0, 0, .unknown, .json, []⟩,
    .trans (.answer twoBytesAnswer)]

theorem twoBytesFetched_proper : Run.Meets (fun s action => s.proper action = true)
    (step (fun _ => 3) (fun _ => 4) .little fun _ => []) init twoBytesFetched := by
  decide +kernel

theorem threeByteFile_named : threeByteFile.Named := by
  intro fileId fileEntity hfound
  simp only [threeByteFile] at hfound
  split at hfound
  · obtain rfl := Option.some.inj hfound
    exact ⟨by decide, by decide⟩
  · cases hfound

/-- **Frames come in order**: those that come from an endpoint are the responses, one for one,
to the first requests that were written to it. -/
theorem frames_in_order (hnamed : ∀ endpoint files, served endpoint files → files.Named)
    {actions : List DeploymentAction}
    (hproper : Run.Meets (fun s action => s.proper action = true) (step serverFd eventFd host text) init actions)
    (hserves : ∀ action ∈ actions, action.serves served) (endpoint : NetworkEndpoint) :
    let s := actions.foldl (step serverFd eventFd host text) init
    ∃ answered : List (Bytes × Bytes), answered.map Prod.fst <+: s.network.requestedFor endpoint ∧
      s.network.framesOf endpoint <+: answered.map Prod.snd ∧
      ∀ answer ∈ answered, ∃ call ∈ s.trans.calls, call.context.endpoint = endpoint ∧ ∃ files fresh connectId,
        served endpoint files ∧ AnsweredBy host text files fresh connectId call answer.1 answer.2 :=
  (inv_run hnamed hproper hserves).framesOf_answered hnamed endpoint

theorem frames_in_order_twoBytes :
    let s := twoBytesFetched.foldl (step (fun _ => 3) (fun _ => 4) .little fun _ => []) init
    ∃ answered : List (Bytes × Bytes), answered.map Prod.fst <+: s.network.requestedFor threeByteServer ∧
      s.network.framesOf threeByteServer <+: answered.map Prod.snd ∧
      ∀ answer ∈ answered, ∃ call ∈ s.trans.calls, call.context.endpoint = threeByteServer ∧
        ∃ files fresh connectId, files = threeByteFile ∧ AnsweredBy .little (fun _ => []) files fresh connectId
        call answer.1 answer.2 :=
  @frames_in_order _ _ _ _ (fun _ files => files = threeByteFile) (fun _ _ heq => heq ▸ threeByteFile_named) _
    twoBytesFetched_proper (by simp [twoBytesFetched, DeploymentAction.serves, ServerAction.serves])
    threeByteServer

/-- **Signals answer their requests**: what a signal brings is what the server at the endpoint of
its request has for this request. -/
theorem signals_answer (hnamed : ∀ endpoint files, served endpoint files → files.Named)
    {actions : List DeploymentAction}
    (hproper : Run.Meets (fun s action => s.proper action = true) (step serverFd eventFd host text) init actions)
    (hserves : ∀ action ∈ actions, action.serves served) :
    let s := actions.foldl (step serverFd eventFd host text) init
    ∀ signal ∈ s.trans.signals, ∃ call ∈ s.trans.calls, ∃ files, served call.context.endpoint files ∧
      call.request.signal files call.context = some signal :=
  fun _ hsignal => (inv_run hnamed hproper hserves).signal hnamed hsignal

theorem signals_answer_twoBytes :
    let s := twoBytesFetched.foldl (step (fun _ => 3) (fun _ => 4) .little fun _ => []) init
    s.trans.signals = [.blockResponseReceived twoBytes.context ⟨3, 1, 2, 1, 2, [0x42, 0x43]⟩] ∧
      ∀ signal ∈ s.trans.signals, ∃ call ∈ s.trans.calls, ∃ files, files = threeByteFile ∧
        call.request.signal files call.context = some signal :=
  ⟨by decide +kernel, @signals_answer _ _ _ _ (fun _ files => files = threeByteFile)
    (fun _ _ heq => heq ▸ threeByteFile_named) _ twoBytesFetched_proper
    (by simp [twoBytesFetched, DeploymentAction.serves, ServerAction.serves])⟩

end Deployment

end ProjectTrans
