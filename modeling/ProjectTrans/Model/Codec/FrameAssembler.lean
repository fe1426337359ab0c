import ProjectTrans.Model.Codec.SerializeCodec

/-!
# The frame assembler (`network/codec/frame_assembler`)

Received bytes go into a buffer; `pop_frame` first takes a header out of it, keeps that
across calls, and hands on the frame once the body is there. The vector of the current
frame is reused from one frame to the next.
-/

namespace ProjectTrans

open Wire

/-- `FrameAssembler`. -/
structure FrameAssembler where
  buffer : Bytes
  currentFrame : Bytes
  currentFrameIndex : ℕ
  currentHeader : SerializeHeader
  isGotHeader : Bool
  deriving DecidableEq, Repr

namespace FrameAssembler

/-- A new assembler; its header member is not initialised. -/
def new (currentHeader : SerializeHeader) : FrameAssembler := ⟨[], [], 0, currentHeader, false⟩

/-- `push_data`. -/
def pushData (a : FrameAssembler) (data : Bytes) : FrameAssembler := { a with buffer := a.buffer ++ data }

/-- `pop_data`. -/
def popData (a : FrameAssembler) (size : ℕ) : Bytes × FrameAssembler :=
  (a.buffer.take size, { a with buffer := a.buffer.drop size })

/-- `clear_current_frame`. -/
def clearCurrentFrame (a : FrameAssembler) : FrameAssembler :=
  { a with currentFrameIndex := 0, isGotHeader := false }

/-- The loops that copy bytes of `src` from index `j` on to the places `i` up to `limit`. -/
def copyUpTo (dst : Bytes) (i limit : ℕ) (src : Bytes) (j : ℕ) : Checked Bytes :=
  if i < limit then do
    let p ← readAt src j (limit - i)
    writeAt dst i p
  else .ok dst

/-- The first half of `pop_frame`: make sure that there is a current header. -/
def takeHeader (host : Endian) (a : FrameAssembler) : Checked (Bool × FrameAssembler) := do
  if a.isGotHeader then
    return (true, a)
  if a.buffer.length < headerSize then
    return (false, a)
  let (headerData, a) := a.popData headerSize
  let frame ←
    copyUpTo (growTo a.currentFrame headerSize) a.currentFrameIndex headerSize headerData a.currentFrameIndex
  let a := { a with currentFrame := frame, currentFrameIndex := max a.currentFrameIndex headerSize }
  match ← SerializeHeader.fromSerializedByteArray host headerData with
  | none => return (false, a.clearCurrentFrame)
  | some header => return (true, { a with currentHeader := header, isGotHeader := true })

/-- The second half of `pop_frame`: complete the frame of the current header. -/
def takeBody (a : FrameAssembler) : Checked (Option Bytes × FrameAssembler) := do
  if a.buffer.length < a.currentHeader.messageLength.toNat then
    return (none, a)
  let (bodyData, a) := a.popData a.currentHeader.messageLength.toNat
  let frameSize := u32 (headerSize + a.currentHeader.messageLength.toNat)
  let frame ← copyUpTo (growTo a.currentFrame frameSize) a.currentFrameIndex frameSize bodyData 0
  let a := { a with
    currentFrame := resize frame frameSize, currentFrameIndex := max a.currentFrameIndex frameSize }
  let a := a.clearCurrentFrame
  return (some a.currentFrame, a)

/-- `pop_frame`. -/
def popFrame (host : Endian) (a : FrameAssembler) : Checked (Option Bytes × FrameAssembler) := do
  let (ready, a) ← a.takeHeader host
  if ready then a.takeBody else return (none, a)

end FrameAssembler

end ProjectTrans
