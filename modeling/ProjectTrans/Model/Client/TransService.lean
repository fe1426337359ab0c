import Mathlib.Data.List.AList
import ProjectTrans.Model.Client.BlockScheduleController
import ProjectTrans.Model.Protocol.ClientMessageCodec

/-!
# Requests and their responses (`client/source/service/trans_service`)

A request draws an id, arms a timer and puts a callback into the table of pending
requests; a response with the id takes the callback out and runs it; the timer takes it
out and runs nothing. Requests are made, frames arrive and timers go off on different
threads: what happens between two locks is one step.
-/

namespace ProjectTrans

open Wire

/-- `TransContext`. -/
structure TransContext where
  requestId : UInt64 := 0
  endpoint : NetworkEndpoint
  deriving DecidableEq, Repr

namespace TransService

/-- What `send_test_request`, `send_download_request` and `send_block_request` are given. -/
inductive Request
  | test (request : TestRequestTransfer)
  | download (request : DownloadRequestTransfer)
  | block (request : BlockRequestTransfer)
  deriving DecidableEq

/-- The signals of the service that bring a response. -/
inductive Signal
  | testResponseReceived (transContext : TransContext) (response : TestResponseTransfer)
  | downloadResponseReceived (transContext : TransContext) (response : DownloadResponseTransfer)
  | blockResponseReceived (transContext : TransContext) (response : BlockResponseTransfer)
  deriving DecidableEq

/-- The three kinds of requests and responses. -/
inductive Kind
  | test
  | download
  | block
  deriving DecidableEq

def Request.kind : Request → Kind
  | test _ => .test
  | download _ => .download
  | block _ => .block

def Signal.kind : Signal → Kind
  | testResponseReceived _ _ => .test
  | downloadResponseReceived _ _ => .download
  | blockResponseReceived _ _ => .block

def Signal.transContext : Signal → TransContext
  | testResponseReceived transContext _ => transContext
  | downloadResponseReceived transContext _ => transContext
  | blockResponseReceived transContext _ => transContext

/-- The lambda that is stored as a callback: the function it calls, and the context it captured. -/
structure Callback where
  kind : Kind
  context : TransContext
  deriving DecidableEq

/-- `TransCorrelation`. -/
structure TransCorrelation where
  context : TransContext
  callback : Callback
  deriving DecidableEq

section Parsing

variable (host : Endian) (text : SerializeField → Bytes)

/-- `receive_test_response`. -/
def receiveTestResponse (transContext : TransContext) (data : Bytes) : Parse Signal := do
  let response ← ClientMessageCodec.tryParseByteArrayTestResponse host text data
  return .testResponseReceived transContext response

/-- `receive_download_response`. -/
def receiveDownloadResponse (transContext : TransContext) (data : Bytes) : Parse Signal := do
  let response ← ClientMessageCodec.tryParseByteArrayDownloadResponse host text data
  return .downloadResponseReceived transContext response

/-- `receive_block_response`. -/
def receiveBlockResponse (transContext : TransContext) (data : Bytes) : Parse Signal := do
  let response ← ClientMessageCodec.tryParseByteArrayBlockResponse host data
  return .blockResponseReceived transContext response

/-- A callback runs on the body of a response. -/
def Callback.run (callback : Callback) (data : Bytes) : Parse Signal :=
  match callback.kind with
  | .test => receiveTestResponse host text callback.context data
  | .download => receiveDownloadResponse host text callback.context data
  | .block => receiveBlockResponse host callback.context data

/-- The frame of a request. -/
def Request.build (requestId : UInt64) : Request → Checked Bytes
  | test request => ClientMessageCodec.buildTestRequestByteArray host request requestId.toInt64
  | download request => ClientMessageCodec.buildDownloadRequestByteArray host request requestId.toInt64
  | block request => ClientMessageCodec.buildBlockRequestByteArray host request requestId.toInt64

end Parsing

/-- A request on its way: what it was given, and the id it drew. -/
structure SendCall where
  context : TransContext
  request : Request
  deriving DecidableEq

/-- The callback a request registers. -/
def SendCall.callback (call : SendCall) : Callback := ⟨call.request.kind, call.context⟩

end TransService

open TransService

/-- `TransService`: the counter and the table. -/
structure TransService where
  requestIdCounter : UInt64 := 0
  transCorrelations : AList fun _ : UInt64 => TransCorrelation

namespace TransService

variable (c : TransService)

/-- The first step of a request. -/
def drawId (endpoint : NetworkEndpoint) (request : Request) : TransService × SendCall :=
  ({ c with requestIdCounter := c.requestIdCounter + 1 }, ⟨⟨c.requestIdCounter, endpoint⟩, request⟩)

/-- The locked step of a request. -/
def registerCall (call : SendCall) : TransService :=
  { c with transCorrelations := c.transCorrelations.insert call.context.requestId ⟨call.context, call.callback⟩ }

/-- The task of a request's timer, and what it removed. -/
def onTimeout (requestId : UInt64) : TransService × Option TransCorrelation :=
  match c.transCorrelations.lookup requestId with
  | none => (c, none)
  | some correlation => ({ c with transCorrelations := c.transCorrelations.erase requestId }, some correlation)

/-- The locked step of `on_received_frame_ready`: the callback for the response is taken
out of the table. -/
def takeHandler (response : EnvelopeResponseTransfer) : TransService × Option Callback :=
  match c.transCorrelations.lookup response.requestId with
  | none => (c, none)
  | some correlation =>
    ({ c with transCorrelations := c.transCorrelations.erase response.requestId }, some correlation.callback)

/-- A frame for which a callback was found. -/
structure Answer where
  callback : Callback
  frame : Bytes
  response : EnvelopeResponseTransfer
  deriving DecidableEq

/-- The service, the calls that are under way in it, and what has happened so far. -/
structure System where
  service : TransService
  /-- All requests that drew an id. -/
  calls : List SendCall := []
  registering : List SendCall := []
  emitting : List SendCall := []
  timers : List UInt64 := []
  received : List Bytes := []
  answering : List Answer := []
  answered : List Answer := []
  timedOut : List Callback := []
  sent : List (NetworkEndpoint × Checked Bytes) := []
  signals : List Signal := []

/-- A request is made, registered, and its frame emitted; a frame arrives, and its
callback runs; a timer goes off. The members of an envelope that a frame does not set
are what stood in memory (`fresh`). -/
inductive Action
  | send (endpoint : NetworkEndpoint) (request : Request)
  | register (call : SendCall)
  | emit (call : SendCall)
  | receive (fresh : EnvelopeResponseTransfer) (data : Bytes)
  | answer (answer : Answer)
  | timeout (requestId : UInt64)
  deriving DecidableEq

/-- The service before any request. -/
def init : System := { service := { transCorrelations := ∅ } }

variable (host : Endian) (text : SerializeField → Bytes)

/-- One step. What is not possible changes nothing, and neither does a frame on which
the parser faults. -/
def step (s : System) : Action → System
  | .send endpoint request =>
    let (service, call) := s.service.drawId endpoint request
    { s with
      service := service
      calls := s.calls ++ [call]
      registering := s.registering ++ [call]
      timers := s.timers ++ [call.context.requestId] }
  | .register call =>
    if call ∈ s.registering then
      { s with
        service := s.service.registerCall call
        registering := s.registering.erase call
        emitting := s.emitting ++ [call] }
    else s
  | .emit call =>
    if call ∈ s.emitting then
      { s with
        emitting := s.emitting.erase call
        sent := s.sent ++ [(call.context.endpoint, call.request.build host call.context.requestId)] }
    else s
  | .receive fresh data =>
    match (ClientMessageCodec.tryParseByteArrayResponse host fresh data).run with
    | .ok (some response) =>
      match s.service.takeHandler response with
      | (service, some callback) =>
        { s with
          service := service
          received := s.received ++ [data]
          answering := s.answering ++ [⟨callback, data, response⟩] }
      | (service, none) => { s with service := service, received := s.received ++ [data] }
    | _ => { s with received := s.received ++ [data] }
  | .answer answer =>
    if answer ∈ s.answering then
      { s with
        answering := s.answering.erase answer
        answered := s.answered ++ [answer]
        signals := s.signals ++
          match (answer.callback.run host text answer.response.body).run with
          | .ok (some signal) => [signal]
          | _ => [] }
    else s
  | .timeout requestId =>
    if requestId ∈ s.timers then
      let (service, removed) := s.service.onTimeout requestId
      { s with
        service := service
        timers := s.timers.erase requestId
        timedOut := s.timedOut ++ (removed.map TransCorrelation.callback).toList }
    else s

end TransService

end ProjectTrans
