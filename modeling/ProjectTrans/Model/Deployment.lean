import ProjectTrans.Model.Client.NetworkService
import ProjectTrans.Model.Client.TransService
import ProjectTrans.Model.Server.BusinessRuntime

/-!
# A client and the servers it talks to

`client/source/service/trans_service`, `client/source/service/network_service`, `server/source/runtime`.
The client's requests go from `TransService` over a queued signal to `NetworkService`, over a
connection to the server's event loop, and from there to a business thread; the responses
take the way back. Each thread, each connection and each other peer of a server goes
on by itself. Connections carry bytes in order, any number of them at a time.
-/

namespace ProjectTrans

open Wire

/-- The client, and a server at each endpoint. -/
structure Deployment where
  trans : TransService.System
  network : ClientNetwork := {}
  /-- How many of the frames emitted by `send_frame_ready` and by `received_frame_ready` have come
  to their slots. -/
  handedOver : ℕ := 0
  reported : ℕ := 0
  servers : NetworkEndpoint → Server
  /-- The socket of the client's connection at the server. -/
  socketOf : NetworkEndpoint → Option ℕ := fun _ => none

/-- `TransService` goes on, the network's thread takes a frame of it or can write, the connection
is the next that the server accepts, a server goes on, some bytes get to the server or to the client, or
`TransService` gets a frame. -/
inductive DeploymentAction
  | trans (action : TransService.Action)
  | writeRawData (result : SocketWrite) (freshHeader : SerializeHeader)
  | socketWrite (endpoint : NetworkEndpoint) (result : SocketWrite)
  | connect (endpoint : NetworkEndpoint)
  | server (endpoint : NetworkEndpoint) (action : ServerAction)
  | carry (endpoint : NetworkEndpoint) (n : ℕ)
  | socketRead (endpoint : NetworkEndpoint) (n : ℕ)
  | receive (fresh : EnvelopeResponseTransfer)

/-- Whether bytes arrive at the socket. -/
def ServerAction.arrivesAt (socket : Option ℕ) : ServerAction → Bool
  | loop (.arrive k _) => socket = some k
  | _ => false

namespace Deployment

/-- Before any request. -/
def init : Deployment where
  trans := TransService.init
  servers := fun _ => .init

variable (serverFd eventFd : NetworkEndpoint → ℕ) (host : Endian) (text : SerializeField → Bytes)

/-- A server goes on. -/
def stepServer (s : Deployment) (endpoint : NetworkEndpoint) (action : ServerAction) : Deployment :=
  { s with
    servers := Function.update s.servers endpoint
      ((s.servers endpoint).step (serverFd endpoint) (eventFd endpoint) host text action) }

/-- One step. What is not possible changes nothing. Bytes arrive at a connection's sockets
only from its other side. -/
def step (s : Deployment) : DeploymentAction → Deployment
  | .trans (.receive _ _) => s
  | .trans action => { s with trans := TransService.step host text s.trans action }
  | .writeRawData result freshHeader =>
    match s.trans.sent[s.handedOver]? with
    | none => s
    -- nothing is emitted for a request that cannot be built
    | some (_, .error _) => { s with handedOver := s.handedOver + 1 }
    | some (endpoint, .ok data) =>
      { s with
        handedOver := s.handedOver + 1
        network := s.network.step host (.onWriteRawData endpoint data result freshHeader) }
  | .socketWrite endpoint result => { s with network := s.network.step host (.onSocketWrite endpoint result) }
  | .connect endpoint =>
    match s.socketOf endpoint with
    | some _ => s
    | none =>
      { s with socketOf := Function.update s.socketOf endpoint (some (s.servers endpoint).loop.accepted) }
  | .server endpoint action =>
    if action.arrivesAt (s.socketOf endpoint) then s else s.stepServer serverFd eventFd host text endpoint action
  | .carry endpoint n =>
    match s.socketOf endpoint with
    | none => s
    | some k =>
      let data := ((s.network.taken endpoint).drop ((s.servers endpoint).loop.sockets k).incoming.length).take n
      s.stepServer serverFd eventFd host text endpoint (.loop (.arrive k data))
  | .socketRead endpoint n =>
    match s.socketOf endpoint with
    | none => s
    | some k =>
      let data :=
        (((s.servers endpoint).loop.sockets k).outgoing.drop (s.network.received endpoint).length).take n
      { s with network := s.network.step host (.onSocketRead endpoint data) }
  | .receive fresh =>
    match s.network.ready[s.reported]? with
    | none => s
    | some (_, frame) =>
      { s with
        reported := s.reported + 1
        trans := TransService.step host text s.trans (.receive fresh frame) }

end Deployment

end ProjectTrans
