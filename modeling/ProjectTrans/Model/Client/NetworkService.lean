import Mathlib.Data.List.AList
import ProjectTrans.Model.Client.BlockScheduleController
import ProjectTrans.Model.Network.ConnectContext

/-!
# The client's connections (`client/source/service/network_service`, `client/source/context/connect_context`)

The service runs on a thread of its own. A connection is made when the first bytes for an
endpoint come, and bytes that the socket does not take wait in its context. What a
`QTcpSocket` takes and what it has received are inputs.
-/

namespace ProjectTrans

open Wire

/-- What a socket makes of `write`: it is not there, not open or not writable, or `write` returns. -/
inductive SocketWrite
  | unusable
  | returns (writtenSize : ℤ)
  deriving DecidableEq, Repr

/-- `ConnectContext` of the client, without its socket and the time of its last activity. -/
structure ClientConnectContext where
  writeBuffer : Bytes := []
  frameAssembler : FrameAssembler
  deriving DecidableEq, Repr

namespace ClientConnectContext

variable (c : ClientConnectContext)

/-- `write_data`, and what the socket has taken. -/
def writeData (data : Bytes) : SocketWrite → ClientConnectContext × Bytes
  | .unusable => ({ c with writeBuffer := c.writeBuffer ++ data }, [])
  | .returns writtenSize =>
    let buffer := c.writeBuffer ++ data
    if writtenSize < 0 then ({ c with writeBuffer := buffer }, [])
    else ({ c with writeBuffer := buffer.drop writtenSize.toNat }, buffer.take writtenSize.toNat)

/-- `on_socket_write`. -/
def onSocketWrite (result : SocketWrite) : ClientConnectContext × Bytes := c.writeData [] result

/-- `on_socket_read` of what `readAll` returns: the frames it emits. Its loop is that of the
server's `read`. -/
def onSocketRead (host : Endian) (data : Bytes) : Checked (List Bytes × ClientConnectContext) := do
  let a := c.frameAssembler.pushData data
  let (frames, a) ← ConnectContext.popFrames host (a.buffer.length + 2) a
  return (frames, { c with frameAssembler := a })

end ClientConnectContext

/-- `NetworkService`. -/
structure NetworkService where
  connectMap : AList fun _ : NetworkEndpoint => List ClientConnectContext

namespace NetworkService

variable (s : NetworkService)

/-- `on_write_raw_data`, and what the socket has taken. The socket of a new context is opened
after `write_data`. Nothing is defined about the first context of none. -/
def onWriteRawData (endpoint : NetworkEndpoint) (data : Bytes) (result : SocketWrite)
    (freshHeader : SerializeHeader) : NetworkService × Bytes :=
  match s.connectMap.lookup endpoint with
  | none =>
    let context : ClientConnectContext := { frameAssembler := .new freshHeader }
    ({ s with connectMap := s.connectMap.insert endpoint [(context.writeData data .unusable).1] }, [])
  | some [] => (s, [])
  | some (context :: contexts) =>
    let (context, taken) := context.writeData data result
    ({ s with connectMap := s.connectMap.insert endpoint (context :: contexts) }, taken)

end NetworkService

/-- The service, and what has gone through its sockets and signals. -/
structure ClientNetwork where
  service : NetworkService := { connectMap := ∅ }
  /-- What was to be written, what the sockets have taken, and what they have received. -/
  requested : List (NetworkEndpoint × Bytes) := []
  taken : NetworkEndpoint → Bytes := fun _ => []
  received : NetworkEndpoint → Bytes := fun _ => []
  /-- The frames of `received_frame_ready`, each with the endpoint it came from. -/
  ready : List (NetworkEndpoint × Bytes) := []

/-- The slots of the service and of its contexts. -/
inductive NetworkCall
  | onWriteRawData (endpoint : NetworkEndpoint) (data : Bytes) (result : SocketWrite)
    (freshHeader : SerializeHeader)
  | onSocketWrite (endpoint : NetworkEndpoint) (result : SocketWrite)
  | onSocketRead (endpoint : NetworkEndpoint) (data : Bytes)
  deriving DecidableEq

namespace ClientNetwork

/-- A context and what its socket has taken. -/
def write (s : ClientNetwork) (endpoint : NetworkEndpoint) (made : NetworkService × Bytes) : ClientNetwork :=
  { s with
    service := made.1
    taken := Function.update s.taken endpoint (s.taken endpoint ++ made.2) }

/-- One call. A signal of a socket that there is not changes nothing, and neither does what faults. -/
def step (host : Endian) (s : ClientNetwork) : NetworkCall → ClientNetwork
  | .onWriteRawData endpoint data result freshHeader =>
    { s.write endpoint (s.service.onWriteRawData endpoint data result freshHeader) with
      requested := s.requested ++ [(endpoint, data)] }
  | .onSocketWrite endpoint result =>
    match s.service.connectMap.lookup endpoint with
    | some (context :: contexts) =>
      let (context, taken) := context.onSocketWrite result
      s.write endpoint
        ({ s.service with connectMap := s.service.connectMap.insert endpoint (context :: contexts) }, taken)
    | _ => s
  | .onSocketRead endpoint data =>
    match s.service.connectMap.lookup endpoint with
    | some (context :: contexts) =>
      match context.onSocketRead host data with
      | .error _ => s
      | .ok (frames, context) =>
        { s with
          service := { s.service with connectMap := s.service.connectMap.insert endpoint (context :: contexts) }
          received := Function.update s.received endpoint (s.received endpoint ++ data)
          ready := s.ready ++ frames.map fun frame => (endpoint, frame) }
    | _ => s

end ClientNetwork

end ProjectTrans
