import ProjectTrans.Model.Server.BusinessRuntime
import ProjectTrans.Model.Server.SimpleServer

/-!
# Blocks of files

What the server answers to a request for a block of a file. The vector it reads into has
the requested size, and keeps its zeros behind what the file has.

`blockRead_exact_iff`: the answer is what the file has **exactly when** nothing is
requested, or the file has all of it. The simple server cuts the request first, and its
answers are always exact (`SimpleServer.readBlock_exact`).
-/

namespace ProjectTrans

open Wire

variable {content data : Bytes} {offset size : Int64}

/-- The bytes of a file from an offset on, at most so many: none outside the file. -/
def fileBytes (content : Bytes) (offset size : Int64) : Bytes :=
  if offset < 0 ∨ size ≤ 0 then [] else (content.drop offset.toInt.toNat).take size.toInt.toNat

/-- The file has that many bytes at that offset. -/
def InFile (content : Bytes) (offset size : Int64) : Prop :=
  0 ≤ offset ∧ 0 < size ∧ offset.toInt + size.toInt ≤ content.length

instance : Decidable (InFile content offset size) := inferInstanceAs (Decidable (_ ∧ _ ∧ _))

theorem inFile_iff : InFile content offset size ↔
    0 ≤ offset.toInt ∧ 0 < size.toInt ∧ offset.toInt + size.toInt ≤ content.length := by
  unfold InFile
  rw [Int64.le_iff_toInt_le, Int64.lt_iff_toInt_lt, Int64.toInt_zero]

/-- There are as many bytes as asked for only where nothing was asked for, or all is in the file. -/
theorem fileBytes_length_eq_iff (hsize : 0 ≤ size) :
    (fileBytes content offset size).length = size.toInt.toNat ↔ size = 0 ∨ InFile content offset size := by
  have hzero : size = 0 ↔ size.toInt = 0 := by rw [← Int64.toInt_inj, Int64.toInt_zero]
  rw [Int64.le_iff_toInt_le, Int64.toInt_zero] at hsize
  rw [hzero, inFile_iff]
  unfold fileBytes
  split
  · rename_i hout
    rw [Int64.lt_iff_toInt_lt, Int64.le_iff_toInt_le, Int64.toInt_zero] at hout
    rw [List.length_nil]
    omega
  · rename_i hinside
    rw [Int64.lt_iff_toInt_lt, Int64.le_iff_toInt_le, Int64.toInt_zero] at hinside
    rw [List.length_take, List.length_drop]
    omega

namespace BusinessRuntime

/-- A vector is as long after a read as before. -/
theorem readInto_length (content data : Bytes) (offset : Int64) :
    (readInto content offset data).length = data.length := by
  unfold readInto
  split
  · rfl
  · rw [List.length_append, List.length_drop, List.length_take]
    omega

/-- A read that fills the vector leaves nothing of what was in it. -/
theorem readInto_eq_fileBytes (h : InFile content offset size) (hdata : data.length = size.toInt.toNat) :
    readInto content offset data = fileBytes content offset size := by
  obtain ⟨hoffset, hsize, hend⟩ := h
  have hfull : ((content.drop offset.toInt.toNat).take data.length).length = data.length := by
    rw [Int64.le_iff_toInt_le, Int64.toInt_zero] at hoffset
    rw [List.length_take, List.length_drop]
    omega
  have hneg : ¬offset < 0 := Int64.not_lt.2 hoffset
  have hinside : ¬(offset < 0 ∨ size ≤ 0) := not_or.2 ⟨hneg, Int64.not_le.2 hsize⟩
  unfold readInto fileBytes
  rw [if_neg hneg, if_neg hinside]
  dsimp only
  rw [hfull, List.drop_length, List.append_nil, hdata]

/-- A block response without data. -/
def emptyBlock (blockRequest : BlockRequestTransfer) : BlockResponseTransfer where
  blockId := blockRequest.blockId
  fileId := blockRequest.fileId
  taskId := blockRequest.taskId
  offset := blockRequest.offset
  blockSize := 0
  data := []

/-- The response to a block of a file that is found and opens. -/
def blockResponse (content : Bytes) (blockRequest : BlockRequestTransfer) : Checked BlockResponseTransfer := do
  let buffer ← zeros blockRequest.blockSize
  return { emptyBlock blockRequest with
    blockSize := blockRequest.blockSize, data := readInto content blockRequest.offset buffer }

/-- The response to a block request, from the entity that was found: its file is read, if it opens. -/
def blockAnswer (openFile : Bytes → Option Bytes) (blockRequest : BlockRequestTransfer) :
    Option ServerFileInfo → Checked BlockResponseTransfer
  | none => .ok (emptyBlock blockRequest)
  | some fileEntity =>
    match openFile fileEntity.resourcePath with
    | none => do
      let _ ← zeros blockRequest.blockSize
      return emptyBlock blockRequest
    | some content => blockResponse content blockRequest

/-- The frame of a block response. -/
def blockFrame (host : Endian) (requestId : Int64) (connectId : UInt64) (response : BlockResponseTransfer) :
    Checked PosixFrame := do
  let data ← ServerMessageCodec.buildBlockResponseByteArray host response requestId
  return ⟨connectId, data⟩

variable {host : Endian} {files : FileService} {blockRequest : BlockRequestTransfer} {requestId : Int64}
  {connectId : UInt64} {fileEntity : ServerFileInfo}

/-- What is pushed is the frame of that response. -/
theorem handleBlockRequest_answer (blockRequest : BlockRequestTransfer) :
    handleBlockRequest host files blockRequest requestId connectId =
      blockAnswer files.openFile blockRequest (files.getById blockRequest.fileId.toInt32) >>=
        blockFrame host requestId connectId := by
  unfold handleBlockRequest blockAnswer blockResponse
  cases files.getById blockRequest.fileId.toInt32 with
  | none => rfl
  | some fileEntity =>
    dsimp only
    -- the vector is made before the file is opened
    cases zeros blockRequest.blockSize with
    | error e => cases files.openFile fileEntity.resourcePath <;> rfl
    | ok buffer => cases files.openFile fileEntity.resourcePath <;> rfl

theorem handleBlockRequest_eq (hfound : files.getById blockRequest.fileId.toInt32 = some fileEntity)
    (hopen : files.openFile fileEntity.resourcePath = some content) :
    handleBlockRequest host files blockRequest requestId connectId =
      blockResponse content blockRequest >>= blockFrame host requestId connectId := by
  rw [handleBlockRequest_answer, hfound]
  unfold blockAnswer
  dsimp only
  rw [hopen]

/-- A response has exactly the requested bytes of a file, and their number. -/
structure ExactRead (content : Bytes) (blockRequest : BlockRequestTransfer) (response : BlockResponseTransfer) :
    Prop where
  data : response.data = fileBytes content blockRequest.offset blockRequest.blockSize
  blockSize : response.blockSize.toInt = response.data.length

/-- The server answers exactly: without a fault, with the bytes of the file. -/
def AnswersExactly (content : Bytes) (blockRequest : BlockRequestTransfer) : Prop :=
  ∃ response, blockResponse content blockRequest = .ok response ∧ ExactRead content blockRequest response

/-- The answer is exact exactly when nothing is requested, or all of it is in the file. -/
theorem answersExactly_iff : AnswersExactly content blockRequest ↔
    blockRequest.blockSize = 0 ∨ InFile content blockRequest.offset blockRequest.blockSize := by
  by_cases hneg : blockRequest.blockSize < 0
  · -- no vector has a negative size
    have hfault : blockResponse content blockRequest = .error
        (.lengthError blockRequest.blockSize.toUInt64.toNat) := by
      unfold blockResponse zeros
      rw [if_pos hneg]
      rfl
    constructor
    · rintro ⟨response, hresponse, -⟩
      rw [hfault] at hresponse
      cases hresponse
    · rintro (hzero | ⟨-, hpos, -⟩)
      · rw [hzero] at hneg
        exact absurd hneg Int64.lt_irrefl
      · exact absurd (Int64.lt_trans hneg hpos) Int64.lt_irrefl
  · have hsize : 0 ≤ blockRequest.blockSize := Int64.not_lt.1 hneg
    -- the vector has the size that was asked for, and stays zero behind what is read
    have hresponse : blockResponse content blockRequest = .ok ⟨blockRequest.blockId, blockRequest.fileId,
        blockRequest.taskId, blockRequest.offset, blockRequest.blockSize,
        readInto content blockRequest.offset (List.replicate blockRequest.blockSize.toInt.toNat 0)⟩ := by
      unfold blockResponse zeros
      rw [if_neg hneg]
      rfl
    have hlength : (readInto content blockRequest.offset
        (List.replicate blockRequest.blockSize.toInt.toNat 0)).length = blockRequest.blockSize.toInt.toNat := by
      rw [readInto_length, List.length_replicate]
    rw [← fileBytes_length_eq_iff hsize]
    constructor
    · rintro ⟨response, hok, hdata, -⟩
      rw [hresponse] at hok
      obtain rfl := Except.ok.inj hok
      rw [← hdata]
      exact hlength
    · intro hfull
      refine ⟨_, hresponse, ?_, ?_⟩
      · rcases (fileBytes_length_eq_iff hsize).1 hfull with hzero | hin
        · rw [hzero] at hfull hlength ⊢
          have hnothing := List.eq_nil_of_length_eq_zero hlength
          exact hnothing.trans (List.eq_nil_of_length_eq_zero hfull).symm
        · exact readInto_eq_fileBytes hin List.length_replicate
      · rw [Int64.le_iff_toInt_le, Int64.toInt_zero] at hsize
        show blockRequest.blockSize.toInt = ((readInto content blockRequest.offset _).length : ℤ)
        rw [hlength]
        omega

/-- **Blocks read by the server.** For every content of a file that is found and opens, and
every requested offset and size: the response that is pushed is exact, exactly when nothing
is requested or all of it is in the file. -/
theorem blockRead_exact_iff (host : Endian) (files : FileService) (blockRequest : BlockRequestTransfer)
    (requestId : Int64) (connectId : UInt64) {fileEntity : ServerFileInfo} {content : Bytes}
    (hfound : files.getById blockRequest.fileId.toInt32 = some fileEntity)
    (hopen : files.openFile fileEntity.resourcePath = some content) :
    handleBlockRequest host files blockRequest requestId connectId =
        blockResponse content blockRequest >>= blockFrame host requestId connectId ∧
      (AnswersExactly content blockRequest ↔
        blockRequest.blockSize = 0 ∨ InFile content blockRequest.offset blockRequest.blockSize) :=
  ⟨handleBlockRequest_eq hfound hopen, answersExactly_iff⟩

/-- A file of one byte under the path `f`. -/
def oneByteFile : FileService where
  getById _ := some ⟨1, ascii "f", ascii "f", 1, []⟩
  openFile path := if path = ascii "f" then some [0x41] else none

theorem blockRead_exact_iff_one :
    handleBlockRequest .little oneByteFile ⟨3, 1, 2, 0, 1⟩ 7 9 =
        blockResponse [0x41] ⟨3, 1, 2, 0, 1⟩ >>= blockFrame .little 7 9 ∧
      (AnswersExactly [0x41] ⟨3, 1, 2, 0, 1⟩ ↔ (1 : Int64) = 0 ∨ InFile [0x41] 0 1) :=
  blockRead_exact_iff .little oneByteFile ⟨3, 1, 2, 0, 1⟩ 7 9 rfl rfl

/-- Two bytes of it are a byte and a zero that is not in the file; and a negative size faults. -/
theorem lastBlock_padded :
    blockResponse [0x41] ⟨3, 1, 2, 0, 2⟩ = .ok ⟨3, 1, 2, 0, 2, [0x41, 0]⟩ ∧
      ¬AnswersExactly [0x41] ⟨3, 1, 2, 0, 2⟩ ∧
      handleBlockRequest .little oneByteFile ⟨3, 1, 2, 0, -1⟩ 7 9 = .error (.lengthError (2 ^ 64 - 1)) := by
  refine ⟨by decide, ?_, by decide⟩
  rw [answersExactly_iff]
  decide

end BusinessRuntime

namespace SimpleServer

/-- A value that is not below zero. -/
theorem toInt_atLeast_zero (x : Int64) : (if x < 0 then 0 else x).toInt = max x.toInt 0 := by
  split
  · rename_i hneg
    rw [Int64.lt_iff_toInt_lt, Int64.toInt_zero] at hneg
    rw [Int64.toInt_zero]
    omega
  · rename_i hpos
    rw [Int64.lt_iff_toInt_lt, Int64.toInt_zero] at hpos
    omega

/-- A value that is not above another. -/
theorem toInt_atMost (x y : Int64) : (if x > y then y else x).toInt = min x.toInt y.toInt := by
  split
  · rename_i hgt
    rw [gt_iff_lt, Int64.lt_iff_toInt_lt] at hgt
    omega
  · rename_i hle
    rw [gt_iff_lt, Int64.lt_iff_toInt_lt] at hle
    omega

/-- The simple server answers exactly, at the offset it answers with. -/
theorem readBlock_exact (content : Bytes) (hlength : content.length < 2 ^ 63) (offset size : Int64) :
    (readBlock (some (.ofNat content.length)) (some content) offset size).data =
        fileBytes content (readBlock (some (.ofNat content.length)) (some content) offset size).offset size ∧
      (readBlock (some (.ofNat content.length)) (some content) offset size).blockSize.toInt =
        (readBlock (some (.ofNat content.length)) (some content) offset size).data.length := by
  have hfile : (Int64.ofNat content.length).toInt = content.length := Int64.toInt_ofNat_of_lt hlength
  -- the offset is moved into the file
  obtain ⟨start, hstart⟩ : ∃ start : Int64, start = if (if offset < 0 then 0 else offset) > .ofNat content.length
      then .ofNat content.length else if offset < 0 then 0 else offset := ⟨_, rfl⟩
  have hstartInt : start.toInt = min (max offset.toInt 0) content.length := by
    rw [hstart, toInt_atMost, toInt_atLeast_zero, hfile]
  -- the size is cut to what is behind it
  have hrest : (Int64.ofNat content.length - start).toInt = content.length - start.toInt := by
    rw [Int64.toInt_sub, hfile, Int.bmod_eq_of_le]
    all_goals omega
  obtain ⟨count, hcount⟩ : ∃ count : Int64, count =
      if (if size < 0 then 0 else size) >
          (if Int64.ofNat content.length - start < 0 then 0 else .ofNat content.length - start)
        then (if Int64.ofNat content.length - start < 0 then 0 else .ofNat content.length - start)
        else if size < 0 then 0 else size := ⟨_, rfl⟩
  have hcountInt : count.toInt = min (max size.toInt 0) (content.length - start.toInt) := by
    rw [hcount, toInt_atMost, toInt_atLeast_zero, toInt_atLeast_zero, hrest]
    omega
  have hread : readBlock (some (.ofNat content.length)) (some content) offset size =
      ⟨start, .ofNat ((content.drop start.toInt.toNat).take count.toInt.toNat).length,
        (content.drop start.toInt.toNat).take count.toInt.toNat⟩ := by
    rw [hcount, hstart]
    rfl
  rw [hread]
  refine ⟨?_, Int64.toInt_ofNat_of_lt ?_⟩
  · unfold fileBytes
    dsimp only
    split
    · rename_i hout
      rw [Int64.lt_iff_toInt_lt, Int64.le_iff_toInt_le, Int64.toInt_zero] at hout
      have hnone : count.toInt.toNat = 0 := by omega
      rw [hnone, List.take_zero]
    · rename_i hinside
      rw [Int64.lt_iff_toInt_lt, Int64.le_iff_toInt_le, Int64.toInt_zero] at hinside
      have hall : (content.drop start.toInt.toNat).length = content.length - start.toInt.toNat := List.length_drop
      rw [List.take_eq_take_iff]
      omega
  · rw [List.length_take, List.length_drop]
    omega

end SimpleServer

end ProjectTrans
