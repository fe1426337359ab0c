import Mathlib.Data.List.AList
import ProjectTrans.Model.Network.ConnectContext

/-!
# The mailbox between the event loop and the business threads (`network/runtime/reactor_mail_box`)

Requests go into one queue, responses into one queue for each live connection. Each
operation holds the lock throughout, so it is one step.
-/

namespace ProjectTrans

/-- A request in the queue. The program knows the connection it came from by the id in the
frame; here we also keep its socket. -/
structure Received where
  origin : ℕ
  frame : PosixFrame
  deriving DecidableEq, Repr

/-- `ReactorMailBox`, without the handle of the eventfd. -/
structure ReactorMailBox where
  toServerFrameQueue : List Received := []
  toClientQueues : AList fun _ : UInt64 => List PosixFrame

namespace ReactorMailBox

/-- The capacity of the queue to the server: that of the member, which the constructor's
assignment does not change. -/
def toServerCapacity : ℕ := 50

variable (m : ReactorMailBox)

/-- `add_to_client_queue`. -/
def addToClientQueue (connectId : UInt64) : ReactorMailBox :=
  { m with toClientQueues := m.toClientQueues.insert connectId [] }

/-- `remove_to_client_queue`. -/
def removeToClientQueue (connectId : UInt64) : ReactorMailBox :=
  { m with toClientQueues := m.toClientQueues.erase connectId }

/-- `push_to_client_frame` up to the eventfd, which is written unless there is no queue. -/
def pushToClientFrame (frame : PosixFrame) : Option ReactorMailBox :=
  (m.toClientQueues.lookup frame.connectId).map fun queue =>
    { m with toClientQueues := m.toClientQueues.insert frame.connectId (queue ++ [frame]) }

/-- `push_to_server_frame`, unless it has to wait. -/
def pushToServerFrame (received : Received) : Option ReactorMailBox :=
  if m.toServerFrameQueue.length < toServerCapacity then
    some { m with toServerFrameQueue := m.toServerFrameQueue ++ [received] }
  else none

/-- `pop_from_to_client_queue`. -/
def popFromToClientQueue (connectId : UInt64) : Option (PosixFrame × ReactorMailBox) :=
  match m.toClientQueues.lookup connectId with
  | some (frame :: queue) =>
    some (frame, { m with toClientQueues := m.toClientQueues.insert connectId queue })
  | _ => none

/-- `pop_from_to_server_frame`, unless it has to wait. -/
def popFromToServerFrame : Option (Received × ReactorMailBox) :=
  match m.toServerFrameQueue with
  | [] => none
  | received :: queue => some (received, { m with toServerFrameQueue := queue })

end ReactorMailBox

end ProjectTrans
