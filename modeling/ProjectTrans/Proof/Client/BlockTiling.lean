import ProjectTrans.Lib.Tiling
import ProjectTrans.Proof.Client.BlockInserts

/-!
# The blocks of a file

`BlockService::add` cuts a file into tiles: what its loop inserts are the tiles
(`inserted_eq_tiles`), and the tiles partition the file (`add_partitions`).
-/

namespace ProjectTrans

/-! ## Tiles -/

/-- Block `i` of the `rest` bytes from `offset` on. -/
def blockTile (file : ClientFileEntity) (taskId : Int64) (size offset rest i : ℕ) : BlockEntity :=
  { fileId := file.fileId
    offset := .ofNat (offset + i * size)
    blockSize := .ofNat (Tiling.length rest size i)
    taskId := taskId
    state := .waiting }

/-- Blocks with the ids the database gives them. -/
def withIds (ids : ℕ → Int64) (block : ℕ → BlockEntity) (n : ℕ) : List BlockEntity :=
  (List.range n).map fun i => { block i with blockId := ids i }

theorem withIds_length (ids : ℕ → Int64) (block : ℕ → BlockEntity) (n : ℕ) :
    (withIds ids block n).length = n := by
  unfold withIds
  rw [List.length_map, List.length_range]

/-- **The loop inserts the tiles** of the file. -/
theorem inserted_eq_tiles {file : ClientFileEntity} {taskId : Int64} {param : BlockParam} {size total : ℕ}
    (hs : 0 < size) (hsize : param.blockBytes.toInt = size) (htotal : file.fileSize.toInt = total)
    (ids : ℕ → Int64) :
    BlockService.inserted file taskId param (fun k => some (ids k)) (Tiling.count total size) =
      withIds ids (blockTile file taskId size 0 total) (Tiling.count total size) := by
  apply List.map_congr_left
  intro i hi
  have hlt : i * size < total := (Tiling.lt_count_iff hs).1 (List.mem_range.1 hi)
  have hoffset : BlockService.loopOffset file param i = .ofNat (0 + i * size) := by
    have hstart : min ((i : ℤ) * size) (max (total : ℤ) 0) = ((0 + i * size : ℕ) : ℤ) := by
      push_cast
      omega
    unfold BlockService.loopOffset
    rw [hsize, htotal, hstart, Int64.ofInt_eq_ofNat]
  have hlength : Int64.ofInt (min (size : ℤ) (total - i * size)) = .ofNat (Tiling.length total size i) := by
    have hrest : min (size : ℤ) (total - i * size) = ((Tiling.length total size i : ℕ) : ℤ) := by
      rw [Tiling.length]
      push_cast [Nat.cast_sub hlt.le]
      rfl
    rw [hrest, Int64.ofInt_eq_ofNat]
  unfold BlockService.loopBlock blockTile
  rw [hoffset, hsize, htotal, hlength]
  rfl

/-! ## The partition -/

/-- Blocks partition a file: they start at its first byte, each where the one before ends,
and together are as long as the file; only the last may be shorter than asked for. -/
structure PartitionsFile (file : ClientFileEntity) (taskId : Int64) (param : BlockParam)
    (blocks : List BlockEntity) : Prop where
  first : ∀ block ∈ blocks.head?, block.offset = 0
  next : ∀ i (hi : i + 1 < blocks.length),
    blocks[i + 1].offset.toInt = blocks[i].offset.toInt + blocks[i].blockSize.toInt
  ascending : blocks.Pairwise fun block later => block.offset < later.offset
  size : ∀ block ∈ blocks, 1 ≤ block.blockSize ∧ block.blockSize ≤ param.blockBytes
  full : ∀ i (hi : i + 1 < blocks.length), blocks[i].blockSize = param.blockBytes
  count : (blocks.length : ℤ) = ⌈(file.fileSize.toInt : ℚ) / param.blockBytes.toInt⌉
  sum : (blocks.map fun block => block.blockSize.toInt).sum = file.fileSize.toInt
  marks : ∀ block ∈ blocks, block.taskId = taskId ∧ block.fileId = file.fileId ∧ block.state = .waiting

/-- The number of tiles is the length divided by their size, rounded up. -/
theorem count_eq_ceil {total size : ℕ} (hs : 0 < size) :
    (Tiling.count total size : ℤ) = ⌈(total : ℚ) / size⌉ := by
  have hpos : (0 : ℚ) < size := by exact_mod_cast hs
  have hle : total ≤ Tiling.count total size * size :=
    not_lt.1 fun h => lt_irrefl _ ((Tiling.lt_count_iff hs).2 h)
  rw [eq_comm, Int.ceil_eq_iff, div_le_iff₀ hpos, lt_div_iff₀ hpos]
  refine ⟨?_, by exact_mod_cast hle⟩
  cases hcount : Tiling.count total size with
  | zero =>
    have htotal : (0 : ℚ) ≤ total := Nat.cast_nonneg total
    push_cast
    linarith
  | succ k =>
    have hlt : k * size < total := (Tiling.lt_count_iff hs).1 (by omega)
    push_cast
    rw [add_sub_cancel_right]
    exact_mod_cast hlt

/-- The offset of a tile, in a file whose size is of 64 bits. -/
theorem blockTile_offset {file : ClientFileEntity} {taskId : Int64} {size total i : ℕ}
    (htotal : file.fileSize.toInt = total) (hs : 0 < size) (hi : i < Tiling.count total size) :
    (blockTile file taskId size 0 total i).offset.toInt = (i * size : ℕ) := by
  have hmax := file.fileSize.toInt_lt
  have hlt := (Tiling.lt_count_iff hs).1 hi
  rw [blockTile, Nat.zero_add, Int64.toInt_ofNat_of_lt (by omega)]

/-- The size of a tile. -/
theorem blockTile_blockSize {file : ClientFileEntity} {taskId : Int64} {size total : ℕ}
    (htotal : file.fileSize.toInt = total) (i : ℕ) :
    (blockTile file taskId size 0 total i).blockSize.toInt = (Tiling.length total size i : ℕ) := by
  have hmax := file.fileSize.toInt_lt
  have hle : Tiling.length total size i ≤ total := by
    rw [Tiling.length]
    omega
  rw [blockTile, Int64.toInt_ofNat_of_lt (by omega)]

theorem withIds_getElem (ids : ℕ → Int64) (tile : ℕ → BlockEntity) (n : ℕ) {i : ℕ}
    (hi : i < (withIds ids tile n).length) : (withIds ids tile n)[i] = { tile i with blockId := ids i } := by
  simp [withIds]

theorem mem_withIds {ids : ℕ → Int64} {tile : ℕ → BlockEntity} {n : ℕ} {block : BlockEntity}
    (h : block ∈ withIds ids tile n) : ∃ i < n, { tile i with blockId := ids i } = block := by
  obtain ⟨i, hi, rfl⟩ := List.mem_map.1 h
  exact ⟨i, List.mem_range.1 hi, rfl⟩

/-- **The tiles of a file partition it.** -/
theorem partitionsFile {file : ClientFileEntity} {taskId : Int64} {param : BlockParam} {size total : ℕ}
    (hs : 0 < size) (hsize : param.blockBytes.toInt = size) (htotal : file.fileSize.toInt = total)
    (ids : ℕ → Int64) :
    PartitionsFile file taskId param
      (withIds ids (blockTile file taskId size 0 total) (Tiling.count total size)) := by
  have hlength := withIds_length ids (blockTile file taskId size 0 total) (Tiling.count total size)
  have hoffset : ∀ i < Tiling.count total size,
      (blockTile file taskId size 0 total i).offset.toInt = (i * size : ℕ) :=
    fun i hi => blockTile_offset htotal hs hi
  have hblock : ∀ i, (blockTile file taskId size 0 total i).blockSize.toInt = (Tiling.length total size i : ℕ) :=
    blockTile_blockSize htotal
  refine ⟨?_, ?_, ?_, ?_, ?_, ?_, ?_, ?_⟩
  · -- the first block starts the file
    cases hcount : Tiling.count total size with
    | zero => simp [withIds]
    | succ k => simp [withIds, List.range_succ_eq_map, blockTile]
  · intro i hi
    -- each block starts where the one before it ends
    rw [withIds_getElem, withIds_getElem]
    simp only [hblock]
    rw [hoffset (i + 1) (by omega), hoffset i (by omega), Tiling.length_full hs (by omega), Nat.succ_mul]
    push_cast
    rfl
  · -- the offsets grow
    rw [List.pairwise_iff_getElem]
    intro i j hi hj hij
    rw [withIds_getElem, withIds_getElem, Int64.lt_iff_toInt_lt]
    simp only [hoffset i (by omega), hoffset j (by omega)]
    exact_mod_cast Nat.mul_lt_mul_of_pos_right hij hs
  · intro block hb
    -- no block is empty, or longer than the size
    obtain ⟨i, hi, rfl⟩ := mem_withIds hb
    have hpos := Tiling.length_pos hs hi
    have hle : Tiling.length total size i ≤ size := Tiling.length_le i
    rw [Int64.le_iff_toInt_le, Int64.le_iff_toInt_le, hsize]
    simp only [hblock]
    exact ⟨by simp; omega, by omega⟩
  · intro i hi
    -- all but the last have the size
    rw [withIds_getElem, ← Int64.toInt_inj, hsize]
    simp only [hblock, Tiling.length_full hs (hlength ▸ hi)]
  · -- there are as many as the size rounded up asks for
    rw [hlength, hsize, htotal, count_eq_ceil hs]
    push_cast
    rfl
  · -- the sizes add up to that of the file
    have hsum : (((List.range (Tiling.count total size)).map (Tiling.length total size)).sum : ℤ) = (total : ℤ) :=
      congrArg Nat.cast (Tiling.sum_length hs)
    rw [htotal, ← hsum, withIds, List.map_map, Nat.cast_list_sum, List.map_map]
    congr 1
    refine List.map_congr_left fun i _ => ?_
    exact hblock i
  · intro block hb
    obtain ⟨i, -, rfl⟩ := mem_withIds hb
    exact ⟨rfl, rfl, rfl⟩

/-- **`add` inserts a partition of the file**, when the inserts succeed: it returns, without
an overflow, and appends blocks that partition the file. -/
theorem add_partitions (file : ClientFileEntity) (taskId : Int64) (param : BlockParam) (ids : ℕ → Int64)
    (rows : List BlockEntity) (hsize : 0 ≤ file.fileSize) (hbytes : 0 < param.blockBytes) :
    ∃ blocks, PartitionsFile file taskId param blocks ∧ ∀ fuel > blocks.length,
      BlockService.add fuel (fun k => some (ids k)) rows file taskId param =
        some (.returns (rows ++ blocks) true) := by
  rw [Int64.le_iff_toInt_le, Int64.toInt_zero] at hsize
  rw [Int64.lt_iff_toInt_lt, Int64.toInt_zero] at hbytes
  obtain ⟨total, htotal⟩ := Int.eq_ofNat_of_zero_le hsize
  obtain ⟨size, hsizeEq⟩ := Int.eq_ofNat_of_zero_le hbytes.le
  have hs : 0 < size := by omega
  refine ⟨_, partitionsFile hs hsizeEq htotal ids, fun fuel hfuel => ?_⟩
  rw [withIds_length] at hfuel
  obtain ⟨rest, rfl⟩ := Nat.exists_eq_add_of_lt hfuel
  have hcontinues : ∀ i, BlockService.Continues file param i ↔ 0 < total ∧ i * size < total := by
    intro i
    unfold BlockService.Continues
    rw [hsizeEq, htotal]
    norm_cast
  have hinserts : ∀ i < Tiling.count total size, BlockService.Inserts file param (fun k => some (ids k)) i := by
    intro i hi
    have hlt := (Tiling.lt_count_iff hs).1 hi
    exact ⟨((hcontinues i).2 ⟨by omega, hlt⟩).attempts hbytes.le, Option.some_ne_none _⟩
  -- behind the last tile the file is done
  have hend : ¬BlockService.Continues file param (Tiling.count total size) := by
    rw [hcontinues]
    rintro ⟨-, hlt⟩
    exact lt_irrefl _ ((Tiling.lt_count_iff hs).2 hlt)
  have hstop : ¬BlockService.Inserts file param (fun k => some (ids k)) (Tiling.count total size) :=
    fun hinsert => hend hinsert.1.1
  rw [Nat.add_assoc, BlockService.add_ends taskId rows hinserts hstop, ← inserted_eq_tiles hs hsizeEq htotal ids]
  unfold BlockService.ending
  rw [if_neg fun hattempts => hend hattempts.1, if_neg hend]

/-- Five bytes in blocks of two. -/
theorem add_partitions_five :
    ∃ blocks, PartitionsFile ⟨1, 5⟩ 1 ⟨2⟩ blocks ∧ ∀ fuel > blocks.length,
      BlockService.add fuel (fun k => some (.ofNat k)) [] ⟨1, 5⟩ 1 ⟨2⟩ = some (.returns ([] ++ blocks) true) :=
  add_partitions ⟨1, 5⟩ 1 ⟨2⟩ (fun k => .ofNat k) [] (by decide) (by decide)

end ProjectTrans
