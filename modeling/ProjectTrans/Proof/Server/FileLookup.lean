import ProjectTrans.Model.Server.ServerFileInfoRepository
import ProjectTrans.Lib.Table
import ProjectTrans.Proof.Database.Execution
import ProjectTrans.Proof.Server.BlockRead

/-!
# Files by their ids

A request names a file by a 64-bit id, and the table keeps 64-bit ids; in between the id is
narrowed to 32 bits, and a row of the narrowed id is answered from (`answeredRow`).

`fileLookup_iff`: requests for an id are answered from the row of that id, and with not
found without one, **exactly when** the id fits 32 bits, or there is neither a row of the
id nor one of the narrowed id.
-/

namespace ProjectTrans

open Wire
open Sql (Value)

/-- A row of the table. -/
structure FileInfoRow where
  fileId : Int64
  fileName : Bytes
  resourcePath : Bytes
  fileSize : Int64
  md5Code : Bytes
  deriving DecidableEq

/-- The entity of a row. -/
def ServerFileInfo.ofRow (row : FileInfoRow) : ServerFileInfo where
  fileId := row.fileId.toInt32
  fileName := cString row.fileName
  resourcePath := cString row.resourcePath
  fileSize := row.fileSize.toUInt64.toUInt32
  md5Code := cString row.md5Code

/-! ## The table -/

namespace ServerFileInfoRepository

/-- The values of a row. -/
def encode (row : FileInfoRow) : Sql.Row :=
  [.integer row.fileId, .text row.fileName, .text row.resourcePath, .integer row.fileSize, .text row.md5Code]

/-- Rows under their ids. -/
def coding : Sql.Coding FileInfoRow where
  columns := columns
  keyName := "file_id".toList
  key := (·.fileId)
  encode := encode
  admits := fun _ => rfl
  keyed := fun _ => rfl
  hasKey := by decide +kernel
  unique := by decide +kernel
  notNull := fun c hc row => Sql.exists_cell hc (Nat.le_refl 5) (by simp [encode])

def columnNames : List Text := columns.map (·.name)

/-- The statement that is run for an id. -/
theorem read_selectById :
    Sql.read (selectById columnNames) =
      some (.select columnNames tableName (some (.test coding.keyName .eq))) := by
  decide +kernel

/-- What a row sets, field by field. -/
theorem foldlM_setField (row : FileInfoRow) :
    (List.zipWith SqliteDriver.columnCell columnNames (encode row)).foldlM setField ⟨-1, [], [], 0, []⟩ =
      some (.ofRow row) := by
  have hcells : List.zipWith SqliteDriver.columnCell columnNames (encode row) =
      [SqliteDriver.columnCell "file_id".toList (.integer row.fileId),
        SqliteDriver.columnCell "file_name".toList (.text row.fileName),
        SqliteDriver.columnCell "resource_path".toList (.text row.resourcePath),
        SqliteDriver.columnCell "file_size".toList (.integer row.fileSize),
        SqliteDriver.columnCell "md5_code".toList (.text row.md5Code)] := rfl
  have hfileId : ∀ (f : ServerFileInfo) v, setField f (SqliteDriver.columnCell "file_id".toList (.integer v)) =
    some { f with fileId := v.toInt32 } := fun _ _ => rfl
  have hfileName : ∀ (f : ServerFileInfo) v, setField f (SqliteDriver.columnCell "file_name".toList (.text v)) =
    some { f with fileName := cString v } := fun _ _ => rfl
  have hpath : ∀ (f : ServerFileInfo) v, setField f (SqliteDriver.columnCell "resource_path".toList (.text v)) =
    some { f with resourcePath := cString v } := fun _ _ => rfl
  have hfileSize : ∀ (f : ServerFileInfo) v, setField f
    (SqliteDriver.columnCell "file_size".toList (.integer v)) =
    some { f with fileSize := v.toUInt64.toUInt32 } := fun _ _ => rfl
  have hmd5Code : ∀ (f : ServerFileInfo) v, setField f (SqliteDriver.columnCell "md5_code".toList (.text v)) =
    some { f with md5Code := cString v } := fun _ _ => rfl
  rw [hcells]
  simp only [List.foldlM_cons, List.foldlM_nil, Option.bind_eq_bind, Option.bind_some, hfileId, hfileName, hpath,
    hfileSize, hmd5Code]
  rfl

variable (widen : UInt32 → UInt64) (owned : Bool) {db : Sql.Database} (choice : Sql.Choice)
  {rows : List FileInfoRow}

/-- **`get_by_id`** returns the entity of the row of an id. -/
theorem getById_eq (hdb : db tableName = some (coding.table rows)) (hkeys : (rows.map (·.fileId)).Nodup)
    (fileId : Int32) :
    getById widen owned ⟨true⟩ db choice fileId =
      some (db, (rows.find? fun row => row.fileId = fileId.toInt64).map .ofRow) := by
  have hselects : ∀ row ∈ rows, Sql.selects coding.columns (some (.test coding.keyName .eq))
      [.integer fileId.toInt64] (coding.encode row) = some (decide (row.fileId = fileId.toInt64)) :=
    fun _ _ => rfl
  have hall : ∀ row, columnNames.mapM (Sql.cell coding.columns (coding.encode row)) = some (coding.encode row) :=
    fun _ => rfl
  obtain ⟨found, hperm, hexec⟩ := Sql.Coding.exec_select choice hdb hselects hall
  have hprepares : Prepares (.ok (some ((Statement.prepare (selectById columnNames)).bindAll
      [⟨getDataType Int32, .int32 fileId, []⟩])))
      (.select columnNames tableName (some (.test coding.keyName .eq))) [⟨getDataType Int32, .int32 fileId,
        []⟩] :=
    ⟨_, rfl, read_selectById⟩
  have hquery := query_rows widen owned choice hprepares rfl hexec
  -- the first row becomes the entity; without rows there is none
  have hfirst : ofFirstRow (SqliteDriver.queryCells columnNames (found.map encode)) =
      some (found.head?.map .ofRow) := by
    cases found with
    | nil => rfl
    | cons row found =>
      show ((List.zipWith SqliteDriver.columnCell columnNames (encode row)).foldlM setField _ >>= _) = _
      rw [foldlM_setField]
      rfl
  have hexecuted : SqliteDriver.executeQuery widen owned db choice
      ((Statement.prepare (selectById columnNames)).bind ⟨getDataType Int32, .int32 fileId, []⟩) =
        some (db, SqliteDriver.queryCells columnNames (found.map encode)) := hquery
  have hnames : (coding.table rows).columns.map (·.name) = columnNames := rfl
  have hinit : ¬(!(⟨true⟩ : ServerFileInfoRepository).isInit) = true := by decide
  unfold getById
  rw [if_neg hinit, hdb]
  simp only [Option.bind_eq_bind, Option.bind_some, hnames, hexecuted, hfirst]
  rw [Table.head?_of_perm_filter hkeys hperm]
  rfl

end ServerFileInfoRepository

/-! ## Narrowed ids -/

/-- The id fits 32 bits. -/
def FitsInt32 (fileId : Int64) : Prop := -2 ^ 31 ≤ fileId.toInt ∧ fileId.toInt < 2 ^ 31

theorem toInt64_toInt32_eq_self_iff (fileId : Int64) : fileId.toInt32.toInt64 = fileId ↔ FitsInt32 fileId := by
  have hnarrow : fileId.toInt32.toInt64.toInt = fileId.toInt.bmod (2 ^ 32) := by
    rw [Int32.toInt_toInt64, Int64.toInt_toInt32]
  unfold FitsInt32
  rw [← Int64.toInt_inj, hnarrow]
  constructor
  · intro h
    rw [← h]
    constructor
    · exact Int.le_bmod (by decide)
    · exact Int.bmod_lt (by decide)
  · rintro ⟨hlow, hhigh⟩
    exact Int.bmod_eq_of_le (by omega) (by omega)

/-- The row a request for an id is answered from. -/
def answeredRow (rows : List FileInfoRow) (fileId : Int64) : Option FileInfoRow :=
  rows.find? fun row => row.fileId = fileId.toInt32.toInt64

/-- The row of an id is the one that is found, and none is found exactly without one. -/
structure FoundById (rows : List FileInfoRow) (fileId : Int64) (found : Option FileInfoRow) : Prop where
  row : ∀ row ∈ rows, row.fileId = fileId → found = some row
  notFound : found = none ↔ ∀ row ∈ rows, row.fileId ≠ fileId

/-- The id is not confused with another of the table. -/
def Unconfused (rows : List FileInfoRow) (fileId : Int64) : Prop :=
  FitsInt32 fileId ∨ ∀ row ∈ rows, row.fileId ≠ fileId ∧ row.fileId ≠ fileId.toInt32.toInt64

theorem answeredRow_eq_none {rows : List FileInfoRow} {fileId : Int64} :
    answeredRow rows fileId = none ↔ ∀ row ∈ rows, row.fileId ≠ fileId.toInt32.toInt64 := by
  unfold answeredRow
  rw [List.find?_eq_none]
  simp only [decide_eq_true_eq, ne_eq]

/-- The row of the id is answered from exactly when the id is not confused with another. -/
theorem foundById_answeredRow_iff {rows : List FileInfoRow} (hkeys : (rows.map (·.fileId)).Nodup)
    (fileId : Int64) : FoundById rows fileId (answeredRow rows fileId) ↔ Unconfused rows fileId := by
  unfold Unconfused
  rw [← toInt64_toInt32_eq_self_iff]
  constructor
  · intro hfound
    by_cases hfits : fileId.toInt32.toInt64 = fileId
    · exact Or.inl hfits
    · -- a row of either id would be answered from, or missed
      have habsent : ∀ row ∈ rows, row.fileId ≠ fileId := by
        intro row hrow hid
        have hanswered := List.find?_some (hfound.row row hrow hid)
        rw [decide_eq_true_eq, hid] at hanswered
        exact hfits hanswered.symm
      have hnarrow := answeredRow_eq_none.1 (hfound.notFound.2 habsent)
      exact Or.inr fun row hrow => ⟨habsent row hrow, hnarrow row hrow⟩
  · rintro (hfits | hnone)
    · constructor
      · intro row hrow hid
        cases hfind : answeredRow rows fileId with
        | none => exact absurd (hid.trans hfits.symm) (answeredRow_eq_none.1 hfind row hrow)
        | some row' =>
          have hid' := List.find?_some hfind
          rw [decide_eq_true_eq, hfits] at hid'
          -- keys are distinct, so the row that is found is this one
          rw [List.inj_on_of_nodup_map hkeys (List.mem_of_find?_eq_some hfind) hrow (hid'.trans hid.symm)]
      · rw [answeredRow_eq_none, hfits]
    · constructor
      · intro row hrow hid
        exact absurd hid (hnone row hrow).1
      · rw [answeredRow_eq_none]
        exact ⟨fun _ row hrow => (hnone row hrow).1, fun _ row hrow => (hnone row hrow).2⟩

/-! ## The answers -/

namespace BusinessRuntime

/-- The response to a download request, from the entity that was found. -/
def downloadAnswer (downloadRequest : DownloadRequestTransfer) : Option ServerFileInfo → DownloadResponseTransfer
  | none =>
    { fileId := downloadRequest.fileId, taskId := downloadRequest.taskId, fileName := [], fileSize := 0,
      md5Code := [] }
  | some fileEntity =>
    { fileId := fileEntity.fileId.toInt64
      taskId := downloadRequest.taskId
      fileName := fileEntity.fileName
      fileSize := fileEntity.fileSize.toUInt64.toInt64
      md5Code := fileEntity.md5Code }

/-- The frame of a download response. -/
def downloadFrame (host : Endian) (requestId : Int64) (connectId : UInt64) (response : DownloadResponseTransfer) :
    Checked PosixFrame := do
  let data ← ServerMessageCodec.buildDownloadResponseByteArray host response requestId
  return ⟨connectId, data⟩

variable (host : Endian) (files : FileService) (requestId : Int64) (connectId : UInt64)

theorem handleDownloadRequest_eq (downloadRequest : DownloadRequestTransfer) :
    handleDownloadRequest host files downloadRequest requestId connectId =
      downloadFrame host requestId connectId
        (downloadAnswer downloadRequest (files.getById downloadRequest.fileId.toInt32)) := by
  unfold handleDownloadRequest
  cases files.getById downloadRequest.fileId.toInt32 with
  | none => rfl
  | some fileEntity => rfl

variable (widen : UInt32 → UInt64) (owned : Bool) {db : Sql.Database} (choice : Sql.Choice)
  {rows : List FileInfoRow}

/-- The file service asks the repository, which has been initialised. -/
def AsksRepository (files : FileService) (db : Sql.Database) : Prop :=
  ∀ fileId, ServerFileInfoRepository.getById widen owned ⟨true⟩ db choice fileId = some (db, files.getById fileId)

/-- The answers to requests for an id come from this row. -/
structure AnswersFrom (fileId : Int64) (row : Option FileInfoRow) : Prop where
  download : ∀ downloadRequest : DownloadRequestTransfer, downloadRequest.fileId = fileId →
    handleDownloadRequest host files downloadRequest requestId connectId =
      downloadFrame host requestId connectId (downloadAnswer downloadRequest (row.map .ofRow))
  block : ∀ blockRequest : BlockRequestTransfer, blockRequest.fileId = fileId →
    handleBlockRequest host files blockRequest requestId connectId =
      blockAnswer files.openFile blockRequest (row.map .ofRow) >>= blockFrame host requestId connectId

/-- **Files looked up by the server.** For every table of files and every id of 64 bits,
requests are answered from `answeredRow`, and that is the row of the id, or none where there
is none, exactly when the id is not confused with another. -/
theorem fileLookup_iff (hdb : db ServerFileInfoRepository.tableName =
    some (ServerFileInfoRepository.coding.table rows))
    (hkeys : (rows.map (·.fileId)).Nodup) (hfiles : AsksRepository widen owned choice files db) (fileId : Int64) :
    AnswersFrom host files requestId connectId fileId (answeredRow rows fileId) ∧
      (FoundById rows fileId (answeredRow rows fileId) ↔ Unconfused rows fileId) := by
  have hanswered : files.getById fileId.toInt32 = (answeredRow rows fileId).map .ofRow := by
    -- the service is asked for the narrowed id
    have hget := hfiles fileId.toInt32
    rw [ServerFileInfoRepository.getById_eq widen owned choice hdb hkeys] at hget
    exact (congrArg Prod.snd (Option.some.inj hget)).symm
  refine ⟨⟨?_, ?_⟩, foundById_answeredRow_iff hkeys fileId⟩
  · rintro downloadRequest rfl
    rw [handleDownloadRequest_eq, hanswered]
  · rintro blockRequest rfl
    rw [handleBlockRequest_answer, hanswered]

/-- A table of two files. -/
def twoFiles : List FileInfoRow :=
  [⟨1, ascii "f", ascii "d/f", 5, []⟩, ⟨2, ascii "g", ascii "d/g", 3, ascii "0a"⟩]

def twoFilesTable : Sql.Database :=
  Function.update (fun _ => none) ServerFileInfoRepository.tableName
    (some (ServerFileInfoRepository.coding.table twoFiles))

theorem twoFilesTable_file :
    twoFilesTable ServerFileInfoRepository.tableName = some (ServerFileInfoRepository.coding.table twoFiles) :=
  Function.update_self ..

def twoFilesService : FileService where
  getById fileId := (twoFiles.find? fun row => row.fileId = fileId.toInt64).map .ofRow
  openFile path := if path = ascii "d/g" then some [0x41, 0x42, 0x43] else none

/-- The database gives rows in reverse, and the id 3 to a new one. -/
def lastFirst : Sql.Choice := ⟨3, List.reverse, List.reverse_perm⟩

/-- The second file is found, and its row is the one under its id. -/
theorem fileLookup_iff_two :
    answeredRow twoFiles 2 = some ⟨2, ascii "g", ascii "d/g", 3, ascii "0a"⟩ ∧
      AnswersFrom .little twoFilesService 7 9 2 (answeredRow twoFiles 2) ∧
      (FoundById twoFiles 2 (answeredRow twoFiles 2) ↔ Unconfused twoFiles 2) :=
  ⟨by decide, fileLookup_iff .little twoFilesService 7 9 (fun _ => 0) true lastFirst twoFilesTable_file
    (by decide)
    (fun fileId =>
      ServerFileInfoRepository.getById_eq (fun _ => 0) true lastFirst twoFilesTable_file (by decide) fileId) 2⟩

/-- A table of one file. -/
def oneFile : List FileInfoRow := [⟨1, ascii "f", ascii "f", 5, []⟩]

def oneFileService : FileService where
  getById fileId := (oneFile.find? fun row => row.fileId = fileId.toInt64).map .ofRow
  openFile _ := none

/-- A request for the id 2 ^ 32 + 1 is answered from the row of the id 1. -/
theorem narrowedId_confused :
    answeredRow oneFile 4294967297 = oneFile.head? ∧
      handleDownloadRequest .little oneFileService ⟨4294967297, 2⟩ 7 9 =
        downloadFrame .little 7 9 ⟨1, 2, ascii "f", 5, []⟩ ∧
      ¬FoundById oneFile 4294967297 (answeredRow oneFile 4294967297) := by
  have hkeys : (oneFile.map (·.fileId)).Nodup := by decide
  refine ⟨by decide, rfl, ?_⟩
  rw [foundById_answeredRow_iff hkeys]
  unfold Unconfused FitsInt32
  decide

end BusinessRuntime

end ProjectTrans
