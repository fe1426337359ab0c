import ProjectTrans.Model.Codec.FrameAssembler

/-!
# One connection (`network/context/connect_context`, `network/handle/posix_socket_handle`)

What a connection keeps between two events: the assembler of the frames it receives, and
the bytes the socket has not taken yet. The results of the system's calls are inputs.
-/

namespace ProjectTrans

open Wire

/-- `PosixFrame`. -/
structure PosixFrame where
  connectId : UInt64
  data : Bytes
  deriving DecidableEq, Repr

/-- The bytes of frames, one behind another. -/
def PosixFrame.bytes (frames : List PosixFrame) : Bytes := frames.flatMap PosixFrame.data

/-- `StatusLevel`. -/
inductive StatusLevel
  | ok
  | branch
  | error
  | unknown
  deriving DecidableEq, Repr

/-- What `read` or `write` returns: a number of bytes, or an error number. `again` is one of
the branch set, `failed` any other than `EINTR`. -/
inductive SysResult
  | bytes (n : ℕ)
  | interrupted
  | again
  | failed
  deriving DecidableEq, Repr

/-- `PosixSocketHandle::write`: how much the socket has taken, and the status. It takes no
more than it is given; behind the last result it would block. -/
def PosixSocketHandle.write (size : ℕ) : ℕ → List SysResult → ℕ × StatusLevel
  | hasWrite, results =>
    if hasWrite < size then
      match results with
      | [] => (hasWrite, .branch)
      | .bytes n :: results => write size (hasWrite + min n (size - hasWrite)) results
      | .interrupted :: results => write size hasWrite results
      | .again :: _ => (hasWrite, .branch)
      | .failed :: _ => (hasWrite, .error)
    else (hasWrite, .ok)
  termination_by structural _ results => results

/-- `ConnectContext`. The socket of its handle is known by a number of its own: the handle's
descriptor is used again for other sockets. -/
structure ConnectContext where
  connectId : UInt64
  socket : ℕ
  frameAssembler : FrameAssembler
  writeBuffer : Bytes
  deriving DecidableEq, Repr

namespace ConnectContext

variable (c : ConnectContext)

/-- The bytes `write` gives to the socket. -/
def toWrite (frames : List PosixFrame) : Bytes := c.writeBuffer ++ PosixFrame.bytes frames

/-- `write`, and how much the socket has taken. The number of bytes to erase goes through
an `int`; nothing is defined about erasing a negative number of them. -/
def write (frames : List PosixFrame) (results : List SysResult) : Checked (ConnectContext × ℕ × StatusLevel) :=
  let buffer := c.toWrite frames
  let c := { c with writeBuffer := buffer }
  match PosixSocketHandle.write buffer.length 0 results with
  | (hasWrite, .error) => .ok (c, hasWrite, .error)
  | (hasWrite, status) =>
    if hasWrite = 0 then .ok (c, 0, status)
    else
      let totalWrite := (Int32.ofNat hasWrite).toInt
      if totalWrite < 0 then .error (.outOfRange 0 hasWrite buffer.length)
      else .ok ({ c with writeBuffer := buffer.drop totalWrite.toNat }, hasWrite, .ok)

/-- `has_pending_write`. -/
def hasPendingWrite : Bool := !c.writeBuffer.isEmpty

/-- A chunk that `read` has got. -/
def pushChunk (chunk : Bytes) : ConnectContext :=
  { c with frameAssembler := c.frameAssembler.pushData chunk }

/-- The loop of `read` that takes the frames out of the assembler, for at most so many. -/
def popFrames (host : Endian) : ℕ → FrameAssembler → Checked (List Bytes × FrameAssembler)
  | 0, a => .ok ([], a)
  | n + 1, a => do
    let (frame, a) ← a.popFrame host
    match frame with
    | none => return ([], a)
    | some frame =>
      let (frames, a) ← popFrames host n a
      return (frame :: frames, a)

/-- What `read` returns once the socket has nothing more. There are fewer frames than bytes
in the assembler, but for one whose header it has already taken. -/
def readFrames (host : Endian) : Checked (List PosixFrame × ConnectContext) := do
  let (frames, a) ← popFrames host (c.frameAssembler.buffer.length + 2) c.frameAssembler
  return (frames.map fun data => ⟨c.connectId, data⟩, { c with frameAssembler := a })

end ConnectContext

end ProjectTrans
