import Mathlib.Logic.Function.Basic
import ProjectTrans.Model.Network.ReactorMailBox

/-!
# The event loop (`network/event_loop/posix_epoll_event_loop`)

One thread runs the loop; business threads put responses into the mailbox and write the
eventfd. The loop's thread is at one place of one handler (`Handler`), and a step takes it
to the next place where it calls the system or takes the mailbox's lock. What the kernel
decides is input: the events it reports, the descriptors it hands out, and how many bytes
a socket has or takes.
-/

namespace ProjectTrans

open Wire

/-- `epoll_event::events`, as far as the loop uses it. -/
structure EpollEvents where
  epollIn : Bool := false
  epollOut : Bool := false
  epollRdHup : Bool := false
  epollErr : Bool := false
  epollHup : Bool := false
  deriving DecidableEq, Repr

/-- The events a client is registered for. -/
def EpollEvents.client (epollOut : Bool) : EpollEvents :=
  { epollIn := true, epollOut := epollOut, epollRdHup := true, epollErr := true, epollHup := true }

/-- An event of a batch. It carries a descriptor; we also keep the socket this was when the
event was reported. -/
structure Event where
  fd : ℕ
  events : EpollEvents
  reportedFor : Option ℕ
  deriving DecidableEq, Repr

/-- Where the loop's thread is. `visits` are the connections that the loop of
`notify_event` has not come to yet, if it is that loop that called `writable_event`. -/
inductive Handler
  | idle
  | accepting
  | draining
  | visiting (visits : List ℕ)
  | popping (fd : ℕ) (frames : List PosixFrame) (visits : Option (List ℕ))
  | flushing (fd : ℕ) (frames : List PosixFrame) (visits : Option (List ℕ))
  | reading (fd : ℕ) (isWritable : Bool)
  | delivering (origin fd : ℕ) (frames : List PosixFrame) (isWritable : Bool)
  deriving DecidableEq, Repr

/-- A connection as the kernel and the peer see it. -/
structure Socket where
  /-- What the peer has sent, and what of it has not been read. -/
  incoming : Bytes := []
  unread : Bytes := []
  /-- The peer sends no more. -/
  isShutdown : Bool := false
  /-- What the socket has taken for the peer. -/
  outgoing : Bytes := []
  deriving DecidableEq, Repr

/-- `PosixEpollEventLoop`, the mailbox, the eventfd, and the sockets; and what has happened. -/
structure EventLoop where
  connectCounter : UInt64 := 0
  connectContexts : AList fun _ : ℕ => ConnectContext
  interest : ℕ → Option EpollEvents := fun _ => none
  mailBox : ReactorMailBox
  eventCount : ℕ := 0
  batch : List Event := []
  handler : Handler := .idle
  /-- Business threads that have pushed a frame and not yet written the eventfd. -/
  signalling : ℕ := 0
  sockets : ℕ → Socket := fun _ => {}
  accepted : ℕ := 0
  /-- Frames put into a queue, frames given to a socket, and requests put into the queue. -/
  pushed : List PosixFrame := []
  handed : List (ℕ × PosixFrame) := []
  requests : List Received := []
  /-- The sockets removed, each with what its peer had sent by then. -/
  removed : List (ℕ × Bytes) := []
  /-- Events applied to a connection: the socket of the event, and that of the connection. -/
  applied : List (Option ℕ × ℕ) := []

/-- What the system returns to the loop's thread. -/
inductive Input
  | go
  /-- `accept` has a connection; its descriptor is registered, or the socket is closed again. -/
  | accept (fd : ℕ) (isRegistered : Bool) (freshHeader : SerializeHeader)
  | noConnection
  /-- The order in which the loop of `notify_event` comes to the connections. -/
  | order (fds : List ℕ)
  | read (result : SysResult)
  /-- What is visited next if the connection is erased under the loop of `notify_event`. -/
  | write (results : List SysResult) (resume : List ℕ)
  deriving DecidableEq

/-- `epoll_wait` returns, the loop's thread goes on, a peer sends or sends no more, a
business thread takes a request, pushes a frame or writes the eventfd. -/
inductive LoopAction
  | wait (batch : List (ℕ × EpollEvents))
  | io (input : Input)
  | arrive (socket : ℕ) (data : Bytes)
  | shutdown (socket : ℕ)
  | take
  | push (frame : PosixFrame)
  | signal
  deriving DecidableEq

namespace EventLoop

/-- Before the first connection. -/
def init : EventLoop := { connectContexts := ∅, mailBox := { toClientQueues := ∅ } }

section Handlers

variable (s : EventLoop)

/-- `remove_connect`. -/
def removeConnect (fd : ℕ) : EventLoop :=
  match s.connectContexts.lookup fd with
  | none => { s with interest := Function.update s.interest fd none }
  | some context =>
    { s with
      interest := Function.update s.interest fd none
      mailBox := s.mailBox.removeToClientQueue context.connectId
      connectContexts := s.connectContexts.erase fd
      removed := s.removed ++ [(context.socket, (s.sockets context.socket).incoming)] }

/-- A new connection of `acceptable_event`. -/
def addConnect (fd : ℕ) (freshHeader : SerializeHeader) : EventLoop :=
  { s with
    connectCounter := s.connectCounter + 1
    connectContexts := s.connectContexts.insert fd
      { connectId := s.connectCounter, socket := s.accepted, frameAssembler := .new freshHeader,
        writeBuffer := [] }
    interest := Function.update s.interest fd (some (.client false))
    mailBox := s.mailBox.addToClientQueue s.connectCounter
    accepted := s.accepted + 1 }

/-- Note that an event is applied to the connection of its descriptor. -/
def noteApplied (event : Event) : EventLoop :=
  match s.connectContexts.lookup event.fd with
  | none => s
  | some context => { s with applied := s.applied ++ [(event.reportedFor, context.socket)] }

/-- `writable_event` is over: back to `run`, or to the loop of `notify_event`. -/
def afterWrite : Option (List ℕ) → Handler
  | none => .idle
  | some visits => .visiting visits

/-- `readable_event` is over. -/
def afterRead (fd : ℕ) (isWritable : Bool) : Handler := if isWritable then .popping fd [] none else .idle

variable (serverFd eventFd : ℕ)

/-- The body of the loop of `run`, up to the handler. -/
def dispatch (event : Event) : EventLoop :=
  if event.fd = serverFd then { s with handler := .accepting }
  else if event.fd = eventFd then { s with handler := .draining }
  else if event.events.epollHup || event.events.epollErr || event.events.epollRdHup then
    (s.noteApplied event).removeConnect event.fd
  else if event.events.epollIn then
    { s.noteApplied event with handler := .reading event.fd event.events.epollOut }
  else if event.events.epollOut then { s.noteApplied event with handler := .popping event.fd [] none }
  else s

/-- `acceptable_event`, one round. The kernel hands out descriptors that are not in use. -/
def accepting : Input → EventLoop
  | .accept fd isRegistered freshHeader =>
    if fd ∈ s.connectContexts ∨ fd = serverFd ∨ fd = eventFd then s
    else if isRegistered then s.addConnect fd freshHeader
    else { s with handler := .idle }
  | .noConnection => { s with handler := .idle }
  | _ => s

/-- The first loop of `notify_event`: read the eventfd until there is nothing in it. -/
def draining : Input → EventLoop
  | .order fds =>
    if s.eventCount ≠ 0 then { s with eventCount := 0 }
    else if fds.Perm s.connectContexts.keys then { s with handler := .visiting fds }
    else s
  | _ => s

/-- The second loop of `notify_event`. -/
def visiting : List ℕ → EventLoop
  | [] => { s with handler := .idle }
  | fd :: visits => { s with handler := .popping fd [] (some visits) }

/-- The loop of `writable_event`, one frame. -/
def popping (fd : ℕ) (frames : List PosixFrame) (visits : Option (List ℕ)) : EventLoop :=
  match s.connectContexts.lookup fd with
  | none => { s with handler := afterWrite visits }
  | some context =>
    match s.mailBox.popFromToClientQueue context.connectId with
    | some (frame, mailBox) => { s with mailBox := mailBox, handler := .popping fd (frames ++ [frame]) visits }
    | none => { s with handler := .flushing fd frames visits }

/-- The socket has taken so many of the bytes that were to be written. -/
def handOver (context : ConnectContext) (frames : List PosixFrame) (hasWrite : ℕ) : EventLoop :=
  { s with
    sockets := Function.update s.sockets context.socket
      { s.sockets context.socket with
        outgoing := (s.sockets context.socket).outgoing ++ (context.toWrite frames).take hasWrite }
    handed := s.handed ++ frames.map fun frame => (context.socket, frame) }

/-- The rest of `writable_event`. Nothing is defined about the loop of `notify_event` after
its connection is erased; `resume` stands for it. -/
def flushing (fd : ℕ) (frames : List PosixFrame) (visits : Option (List ℕ)) : Input → EventLoop
  | .write results resume =>
    match s.connectContexts.lookup fd with
    | none => { s with handler := afterWrite visits }
    | some context =>
      match context.write frames results with
      | .error _ => s
      | .ok (context', hasWrite, status) =>
        let s := s.handOver context frames hasWrite
        if status = .error then
          { s.removeConnect fd with handler := afterWrite (visits.map fun _ => resume) }
        else
          { s with
            connectContexts := s.connectContexts.insert fd context'
            interest := Function.update s.interest fd (some (.client context'.hasPendingWrite))
            handler := afterWrite visits }
  | _ => s

/-- `BUFFER_SIZE` of `read`. -/
def readSize : ℕ := 1024

variable (host : Endian)

/-- The frames that are complete once the socket has nothing more. -/
def finishReading (fd : ℕ) (isWritable : Bool) (context : ConnectContext) : EventLoop :=
  match context.readFrames host with
  | .error _ => s
  | .ok (frames, context') =>
    { s with
      connectContexts := s.connectContexts.insert fd context'
      handler := .delivering context.socket fd frames isWritable }

/-- `readable_event` up to the mailbox, one call of `read_some`. A socket returns some bytes
while it has any; then it would block, or is at its end. -/
def reading (fd : ℕ) (isWritable : Bool) : Input → EventLoop
  | .read result =>
    match s.connectContexts.lookup fd with
    | none => { s with handler := afterRead fd isWritable }
    | some context =>
      let socket := s.sockets context.socket
      match result, socket.unread with
      | .failed, _ => { s.removeConnect fd with handler := afterRead fd isWritable }
      | .interrupted, _ => s
      | .bytes n, byte :: unread =>
        let size := max 1 (min n readSize)
        { s with
          sockets := Function.update s.sockets context.socket
            { socket with unread := (byte :: unread).drop size }
          connectContexts := s.connectContexts.insert fd (context.pushChunk ((byte :: unread).take size)) }
      | .bytes _, [] => if socket.isShutdown then s.finishReading host fd isWritable context else s
      | .again, _ :: _ => s
      | .again, [] => s.finishReading host fd isWritable context
  | _ => s

/-- The loop of `push_to_server_frame`, one frame. -/
def delivering (origin fd : ℕ) (isWritable : Bool) : List PosixFrame → EventLoop
  | [] => { s with handler := afterRead fd isWritable }
  | frame :: frames =>
    match s.mailBox.pushToServerFrame ⟨origin, frame⟩ with
    | none => s
    | some mailBox =>
      { s with
        mailBox := mailBox
        requests := s.requests ++ [⟨origin, frame⟩]
        handler := .delivering origin fd frames isWritable }

/-- The loop's thread goes on. -/
def io (input : Input) : EventLoop :=
  match s.handler with
  | .idle =>
    match s.batch with
    | [] => s
    | event :: batch => { s with batch := batch }.dispatch serverFd eventFd event
  | .accepting => s.accepting serverFd eventFd input
  | .draining => s.draining input
  | .visiting visits => s.visiting visits
  | .popping fd frames visits => s.popping fd frames visits
  | .flushing fd frames visits => s.flushing fd frames visits input
  | .reading fd isWritable => s.reading host fd isWritable input
  | .delivering origin fd frames isWritable => s.delivering origin fd isWritable frames

/-- The event as it is reported: one for each descriptor that is registered. -/
def report (event : ℕ × EpollEvents) : Event :=
  ⟨event.1, event.2, (s.connectContexts.lookup event.1).map ConnectContext.socket⟩

end Handlers

/-- One step. What is not possible changes nothing. -/
def step (serverFd eventFd : ℕ) (host : Endian) (s : EventLoop) : LoopAction → EventLoop
  | .wait batch =>
    if s.handler = .idle ∧ s.batch = [] ∧ (batch.map Prod.fst).Nodup ∧
        ∀ event ∈ batch, event.1 = serverFd ∨ event.1 = eventFd ∨ event.1 ∈ s.connectContexts then
      { s with batch := batch.map s.report }
    else s
  | .io input => s.io serverFd eventFd host input
  | .arrive socket data =>
    if socket < s.accepted ∧ !(s.sockets socket).isShutdown then
      { s with
        sockets := Function.update s.sockets socket
          { s.sockets socket with
            incoming := (s.sockets socket).incoming ++ data
            unread := (s.sockets socket).unread ++ data } }
    else s
  | .shutdown socket =>
    { s with sockets := Function.update s.sockets socket { s.sockets socket with isShutdown := true } }
  | .take =>
    match s.mailBox.popFromToServerFrame with
    | none => s
    | some (_, mailBox) => { s with mailBox := mailBox }
  | .push frame =>
    match s.mailBox.pushToClientFrame frame with
    | none => s
    | some mailBox =>
      { s with mailBox := mailBox, pushed := s.pushed ++ [frame], signalling := s.signalling + 1 }
  | .signal =>
    if s.signalling = 0 then s
    else { s with signalling := s.signalling - 1, eventCount := s.eventCount + 1 }

end EventLoop

end ProjectTrans
