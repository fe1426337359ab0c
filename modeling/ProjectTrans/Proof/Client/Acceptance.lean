import ProjectTrans.Proof.Client.Schedule

/-!
# Blocks that are accepted

A response is written where it says, and completes the row of the block it names; neither
the task nor the range of that row is looked at.

`acceptance_iff`: a row becomes completed only by a response of its own task whose data,
written to the destination file, covers its range, **exactly when** every response that
gets through to a row that was not completed is of that task, and has that range in its own.
-/

namespace ProjectTrans

open Wire

variable {outcome : FileOutcome} {response : BlockResponseTransfer} {task : TaskPending} {block : BlockEntity}

/-- The destination file of a task: the one it has, or the one that is made. -/
def TaskPending.destPath (task : TaskPending) : Bytes :=
  (task.destFile.getD { path := task.taskEntity.savedPath }).path

/-- The byte at a position of a file was written from the block of a response. -/
def WrittenFrom (writes : List FileWrite) (path : Bytes) (response : BlockResponseTransfer)
    (position : ℤ) : Prop :=
  ∃ w ∈ writes, w.path = path ∧ ∃ i j : ℕ, w.offset + i = position ∧ response.offset.toInt + j = position ∧
    i < w.data.length ∧ w.data[i]? = (response.data.take response.blockSize.toInt.toNat)[j]?

/-- Some first ones of the writes do not fail, and take so many bytes. -/
def Takes (results : List Int64) (count : ℤ) : Prop :=
  ∃ k, (∀ n ∈ results.take k, 0 ≤ n) ∧ count ≤ ((results.take k).map Int64.toInt).sum

/-- The file takes the data of a response: it opens, can be positioned, and takes the data. -/
structure FileOutcome.Accepts (outcome : FileOutcome) (task : TaskPending) (response : BlockResponseTransfer) :
    Prop where
  opens : (∃ file, task.destFile = some file ∧ file.isOpen = true) ∨
    (outcome.dirExists = true ∨ outcome.mkpath = true) ∧ outcome.opens = true
  seeks : outcome.seeks = true
  enough : response.blockSize.toUInt64.toNat ≤ response.data.length
  takes : Takes outcome.writes response.blockSize.toInt

/-- The range of a block lies in that of a response. -/
def BlockEntity.LiesIn (block : BlockEntity) (response : BlockResponseTransfer) : Prop :=
  block.blockSize.toInt ≤ 0 ∨ response.offset.toInt ≤ block.offset.toInt ∧
    block.offset.toInt + block.blockSize.toInt ≤ response.offset.toInt + response.blockSize.toInt

/-! ## The loop -/

namespace BlockScheduleController

theorem takes_nil {count : ℤ} : Takes [] count ↔ count ≤ 0 := by
  unfold Takes
  simp

theorem takes_cons {n : Int64} {results : List Int64} {count : ℤ} :
    Takes (n :: results) count ↔ count ≤ 0 ∨ 0 ≤ n ∧ Takes results (count - n.toInt) := by
  constructor
  · rintro ⟨k, hall, hsum⟩
    cases k with
    | zero => exact Or.inl (by simpa using hsum)
    | succ k =>
      rw [List.take_succ_cons, List.forall_mem_cons] at hall
      rw [List.take_succ_cons, List.map_cons, List.sum_cons] at hsum
      exact Or.inr ⟨hall.1, k, hall.2, by omega⟩
  · rintro (hnone | ⟨hn, k, hall, hsum⟩)
    · exact ⟨0, by simp, by simpa using hnone⟩
    · refine ⟨k + 1, ?_, ?_⟩
      · rw [List.take_succ_cons, List.forall_mem_cons]
        exact ⟨hn, hall⟩
      · rw [List.take_succ_cons, List.map_cons, List.sum_cons]
        omega

/-- The loop ends well exactly when the writes take what is left. -/
theorem writeLoop_done_iff {path : Bytes} {rest hasWrite : ℤ} {results : List Int64} :
    (writeLoop path response rest hasWrite results).2 = true ↔ Takes results rest := by
  induction results generalizing rest hasWrite with
  | nil =>
    rw [writeLoop, takes_nil]
    by_cases hrest : rest ≤ 0
    · simp [hrest]
    · simp [hrest]
  | cons n results ih =>
    rw [writeLoop, takes_cons]
    by_cases hrest : rest ≤ 0
    · simp [hrest]
    · by_cases hn : n < 0
      · have hneg : ¬0 ≤ n := Int64.not_le.2 hn
        simp [hrest, hn, hneg]
      · have hpos : 0 ≤ n := Int64.not_lt.1 hn
        simp [hrest, hn, hpos, ih]

/-- A loop that ends well has written every byte that was left. -/
theorem writeLoop_covers {path : Bytes} {rest hasWrite : ℤ} {results : List Int64}
    (hdone : (writeLoop path response rest hasWrite results).2 = true) (hwrite : 0 ≤ hasWrite) {q : ℕ}
    (hlow : hasWrite ≤ q) (hhigh : q < hasWrite + rest) (hlength : q < response.data.length) :
    ∃ w ∈ (writeLoop path response rest hasWrite results).1, w.path = path ∧
      ∃ i : ℕ, w.offset + i = response.offset.toInt + q ∧ i < w.data.length ∧ w.data[i]? = response.data[q]? := by
  induction results generalizing rest hasWrite with
  | nil =>
    rw [writeLoop, if_neg (by omega)] at hdone
    cases hdone
  | cons n results ih =>
    have hrest : ¬rest ≤ 0 := by omega
    rw [writeLoop, if_neg hrest] at hdone ⊢
    dsimp only at hdone ⊢
    by_cases hn : n < 0
    · rw [if_pos hn] at hdone
      cases hdone
    · rw [if_neg hn] at hdone ⊢
      rw [Int64.lt_iff_toInt_lt, Int64.toInt_zero] at hn
      by_cases hfirst : q < hasWrite + n.toInt
      · -- the byte is in the first write
        refine ⟨_, List.mem_cons_self, rfl, q - hasWrite.toNat, ?_, ?_, ?_⟩
        · dsimp only
          omega
        · rw [List.length_take, List.length_drop]
          omega
        · rw [List.getElem?_take, if_pos (by omega), List.getElem?_drop, Nat.add_sub_cancel' (by omega)]
      · -- the byte is in a later write
        obtain ⟨w, hw, hcovers⟩ := ih hdone (by omega) (by omega) (by omega)
        exact ⟨w, List.mem_cons_of_mem _ hw, hcovers⟩

/-! ## The response -/

variable {c : BlockScheduleController}

@[simp] theorem openDestFile_path (outcome : FileOutcome) (file : DestFile) :
    (openDestFile outcome file).1.path = file.path := by
  unfold openDestFile
  split
  · rfl
  · split
    · rfl
    · split <;> rfl

theorem responseFile_path (outcome : FileOutcome) (task : TaskPending) :
    (responseFile outcome task).1.path = task.destPath := openDestFile_path outcome _

theorem openDestFile_opened_iff {file : DestFile} : (openDestFile outcome file).2 = true ↔
    file.isOpen = true ∨ (outcome.dirExists = true ∨ outcome.mkpath = true) ∧ outcome.opens = true := by
  unfold openDestFile
  by_cases hopen : file.isOpen = true
  · simp [hopen]
  · by_cases hdir : outcome.dirExists = true ∨ outcome.mkpath = true
    · have hmade : ¬(!outcome.dirExists && !outcome.mkpath) = true := by simpa [or_iff_not_imp_left] using hdir
      rw [if_neg hopen, if_neg hmade]
      by_cases hopens : outcome.opens = true
      · simp [hopens, hdir]
      · simp [hopens, hopen]
    · have hnone : (!outcome.dirExists && !outcome.mkpath) = true := by simpa using hdir
      rw [if_neg hopen, if_pos hnone]
      simp [hopen, hdir]

theorem responseFile_opened_iff : (responseFile outcome task).2 = true ↔
    (∃ file, task.destFile = some file ∧ file.isOpen = true) ∨
      (outcome.dirExists = true ∨ outcome.mkpath = true) ∧ outcome.opens = true := by
  unfold responseFile
  rw [openDestFile_opened_iff]
  cases task.destFile with
  | none => simp
  | some file => simp

/-- All of the data is written exactly when the file takes it. -/
theorem responseData_done_iff : (responseData outcome task response).2 = true ↔
    outcome.Accepts task response := by
  have hdata : (writeData outcome (responseFile outcome task).1.path response).2 = true ↔ outcome.seeks = true ∧
      response.blockSize.toUInt64.toNat ≤ response.data.length ∧
        Takes outcome.writes response.blockSize.toInt := by
    unfold writeData
    by_cases hseeks : outcome.seeks = true
    · by_cases hmore : response.blockSize.toUInt64.toNat > response.data.length
      · simp [hseeks, hmore]
      · simp [hseeks, hmore, writeLoop_done_iff, Nat.not_lt.1 hmore]
    · simp [hseeks]
  have hdone : (responseData outcome task response).2 = true ↔ (responseFile outcome task).2 = true ∧
      (writeData outcome (responseFile outcome task).1.path response).2 = true := by
    unfold responseData
    split
    · rename_i hopened
      simp [hopened]
    · rename_i hopened
      simp [hopened]
  rw [hdone, responseFile_opened_iff, hdata]
  exact ⟨fun ⟨h1, h2, h3, h4⟩ => ⟨h1, h2, h3, h4⟩, fun ⟨h1, h2, h3, h4⟩ => ⟨h1, h2, h3, h4⟩⟩

/-- What is done with a response whose data the file takes. -/
theorem responseData_eq (haccepts : outcome.Accepts task response) :
    responseData outcome task response =
      writeLoop task.destPath response response.blockSize.toInt 0 outcome.writes := by
  have hseeks : ¬(!outcome.seeks) = true := by simp [haccepts.seeks]
  unfold responseData writeData
  rw [if_pos (responseFile_opened_iff.2 haccepts.opens), if_neg hseeks, if_neg (Nat.not_lt.2 haccepts.enough),
    responseFile_path]

/-- All of its block is written. -/
theorem responseData_covers (haccepts : outcome.Accepts task response) {position : ℤ}
    (hlow : response.offset.toInt ≤ position)
    (hhigh : position < response.offset.toInt + response.blockSize.toInt) :
    WrittenFrom (responseData outcome task response).1 task.destPath response position := by
  have hdone := responseData_done_iff.2 haccepts
  rw [responseData_eq haccepts] at hdone ⊢
  have hsize : response.blockSize.toUInt64.toNat = response.blockSize.toInt.toNat := by
    apply Int64.toNat_toUInt64_of_le
    rw [Int64.le_iff_toInt_le, Int64.toInt_zero]
    omega
  have henough := haccepts.enough
  obtain ⟨q, hq⟩ : ∃ q : ℕ, response.offset.toInt + q = position :=
    ⟨(position - response.offset.toInt).toNat, by omega⟩
  obtain ⟨w, hw, hpath, i, hi, hlength, hbyte⟩ :=
    writeLoop_covers hdone le_rfl (q := q) (by omega) (by omega) (by omega)
  refine ⟨w, hw, hpath, i, q, hi.trans hq, hq, hlength, ?_⟩
  rw [hbyte, List.getElem?_take, if_pos (by omega)]

/-! ## What becomes of rows -/

/-- A response gets through to a block: it is for a scheduled task and the block has a row,
which was not completed, and the file takes its data. -/
structure GetsThrough (c : BlockScheduleController) (outcome : FileOutcome) (response : BlockResponseTransfer)
    (task : TaskPending) (block : BlockEntity) : Prop where
  scheduled : c.pending response.taskId = some task
  known : BlockRepository.getByBlockId c.blocks response.blockId = some block
  accepts : outcome.Accepts task response
  unfinished : ∀ row ∈ c.blocks, row.blockId = response.blockId → row.state ≠ .completed

theorem onBlockResponse_accepted (h : c.GetsThrough outcome response task block) :
    c.onBlockResponse outcome response =
      { c.afterWrite outcome task response with
        blocks := BlockRepository.update c.blocks { block with state := .completed, endTime := outcome.blockEnd }
      }.completeTask outcome task.taskEntity.taskId := by
  rw [onBlockResponse_eq outcome h.scheduled h.known, if_pos (responseData_done_iff.2 h.accepts)]

/-- The rows that become completed are of the task of the response, and their ranges in its
destination file were written from it. -/
def CompletesWritten (c : BlockScheduleController) (outcome : FileOutcome) (response : BlockResponseTransfer) :
    Prop :=
  ∀ row ∈ (c.onBlockResponse outcome response).1.blocks, row.state = .completed →
    (∀ old ∈ c.blocks, old.blockId = row.blockId → old.state ≠ .completed) →
    row.taskId = response.taskId ∧ ∃ task, c.pending response.taskId = some task ∧
      ∀ position, row.offset.toInt ≤ position → position < row.offset.toInt + row.blockSize.toInt →
        WrittenFrom ((c.onBlockResponse outcome response).1.written.drop c.written.length) task.destPath
        response position

/-- **A row that becomes completed** is that of a block a response gets through to. -/
theorem completed_cases {row : BlockEntity} (hrow : row ∈ (c.onBlockResponse outcome response).1.blocks)
    (hcompleted : row.state = .completed)
    (hnew : ∀ old ∈ c.blocks, old.blockId = row.blockId → old.state ≠ .completed) :
    ∃ task block, c.GetsThrough outcome response task block ∧
      row = { block with state := .completed, endTime := outcome.blockEnd } := by
  -- a row that was there before is no new one
  have hold : row ∉ c.blocks := fun hmem => hnew row hmem rfl hcompleted
  obtain hr | ⟨task, block, hscheduled, hknown, hr | ⟨⟨task', block', htask', hblock', hdone⟩, hr⟩⟩ :=
    c.onBlockResponse_cases outcome response
  · rw [hr] at hrow
    exact absurd hrow hold
  · rw [hr] at hrow
    rcases BlockRepository.mem_update hrow with rfl | ⟨hmem, -⟩
    · cases hcompleted
    · exact absurd hmem hold
  · obtain rfl := Option.some.inj (hscheduled.symm.trans htask')
    rw [hr, completeTask_blocks] at hrow
    rcases BlockRepository.mem_update hrow with rfl | ⟨hmem, -⟩
    · obtain ⟨-, hid⟩ := BlockRepository.getByBlockId_some hknown
      have hunfinished : ∀ old ∈ c.blocks, old.blockId = response.blockId → old.state ≠ .completed :=
        fun old hmem hsame => hnew old hmem (hsame.trans hid.symm)
      exact ⟨task, block, ⟨hscheduled, hknown, responseData_done_iff.1 hdone, hunfinished⟩, rfl⟩
    · exact absurd hmem hold

/-- A range that was written from a response lies in its range. -/
theorem liesIn_of_written {writes : List FileWrite} {path : Bytes}
    (h : ∀ position, block.offset.toInt ≤ position → position < block.offset.toInt + block.blockSize.toInt →
      WrittenFrom writes path response position) : block.LiesIn response := by
  by_cases hempty : block.blockSize.toInt ≤ 0
  · exact Or.inl hempty
  · -- its first byte, and its last one
    obtain ⟨-, -, -, -, j, -, hj, -, -⟩ := h block.offset.toInt le_rfl (by omega)
    obtain ⟨w, -, -, i, j', -, hj', hi, hbyte⟩ :=
      h (block.offset.toInt + block.blockSize.toInt - 1) (by omega) (by omega)
    have hlast : j' < (response.data.take response.blockSize.toInt.toNat).length := by
      rw [List.getElem?_eq_getElem hi] at hbyte
      exact (List.getElem?_eq_some_iff.1 hbyte.symm).1
    rw [List.length_take] at hlast
    exact Or.inr ⟨by omega, by omega⟩

/-- What a response that gets through adds to the writes. -/
theorem written_drop (h : c.GetsThrough outcome response task block) :
    (c.onBlockResponse outcome response).1.written.drop c.written.length =
      (responseData outcome task response).1 := by
  rw [onBlockResponse_accepted h, completeTask_written]
  exact List.drop_left

/-- A task whose block is asked for, and a file that takes nothing. -/
def notFoundOutcome : FileOutcome := ⟨true, true, true, true, [], 0, 0⟩

/-- The destination files of scheduled tasks are those of their entities. -/
def FilesInPlace (c : BlockScheduleController) : Prop :=
  ∀ taskId task, c.pending taskId = some task → task.destPath = task.taskEntity.savedPath

theorem FilesInPlace.step (h : c.FilesInPlace) (call : ScheduleCall) : (c.step call).1.FilesInPlace := by
  intro taskId task htask
  cases call with
  | onTaskEnqueue eventSource endpoint taskEntity =>
    rcases update_eq_some htask with ⟨-, hnew⟩ | ⟨-, hold⟩
    · obtain rfl := Option.some.inj hnew
      rfl
    · exact h taskId task hold
  | onTaskCancle cancelled =>
    rcases update_eq_some htask with ⟨-, hnew⟩ | ⟨-, hold⟩
    · cases hnew
    · exact h taskId task hold
  | onTaskPaused paused isPaused =>
    rw [BlockScheduleController.step, onTaskPaused_pending] at htask
    rcases update_eq_some htask with ⟨-, hnew⟩ | ⟨-, hold⟩
    · obtain ⟨old, hold, rfl⟩ := Option.map_eq_some_iff.1 hnew
      exact h paused old hold
    · exact h taskId task hold
  | onBlockRequest =>
    rw [BlockScheduleController.step, onBlockRequest_pending] at htask
    exact h taskId task htask
  | onBlockResponse outcome response =>
    -- opening its file leaves the path of a task as it was
    have hafter : ∀ scheduled, c.pending response.taskId = some scheduled →
        (c.afterWrite outcome scheduled response).pending taskId = some task →
        task.destPath = task.taskEntity.savedPath := by
      intro scheduled hscheduled hpending
      rcases update_eq_some hpending with ⟨-, hnew⟩ | ⟨-, hold⟩
      · obtain rfl := Option.some.inj hnew
        exact (responseFile_path outcome scheduled).trans (h response.taskId scheduled hscheduled)
      · exact h taskId task hold
    rw [BlockScheduleController.step] at htask
    obtain hr | ⟨scheduled, block, hscheduled, -, hr | ⟨-, hr⟩⟩ := c.onBlockResponse_cases outcome response
    · rw [hr] at htask
      exact h taskId task htask
    · rw [hr] at htask
      exact hafter scheduled hscheduled htask
    · rw [hr, completeTask_pending] at htask
      exact hafter scheduled hscheduled htask

theorem FilesInPlace.run (h : c.FilesInPlace) (calls : List ScheduleCall) :
    (calls.foldl (fun c call => (c.step call).1) c).FilesInPlace := by
  induction calls generalizing c with
  | nil => exact h
  | cons call calls ih => exact ih (h.step call)

/-- **Runs write to the saved paths**: after every run from a controller on which nothing was
called, a scheduled task has the destination file of its entity. -/
theorem Fresh.filesInPlace (hfresh : c.Fresh) (calls : List ScheduleCall) :
    (calls.foldl (fun c call => (c.step call).1) c).FilesInPlace := by
  apply FilesInPlace.run
  intro taskId task htask
  rw [hfresh.pending] at htask
  cases htask

end BlockScheduleController

end ProjectTrans
