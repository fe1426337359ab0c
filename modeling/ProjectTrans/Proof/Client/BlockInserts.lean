import Mathlib.Tactic
import ProjectTrans.Model.Client.Block

/-!
# The inserts of `BlockService::add`, one after another

What the loop has done after so many inserts (`add_run`), for any size of blocks and
whatever the inserts return, and where it ends (`add_ends`).

`add_false_iff`: the call fails where an insert fails, and the blocks inserted before stay.
`add_endsWell_iff`: the call ends without an overflow **exactly when** the file is empty,
the size of a block is positive, or an insert fails in time.
-/

namespace ProjectTrans

/-! ## Signed arithmetic -/

theorem int64_add_toInt {a b : Int64} (hlo : -2 ^ 63 ≤ a.toInt + b.toInt) (hhi : a.toInt + b.toInt < 2 ^ 63) :
    (a + b).toInt = a.toInt + b.toInt := by
  rw [Int64.toInt_add, Int.bmod_eq_of_le] <;> omega

theorem int64_sub_toInt {a b : Int64} (hlo : -2 ^ 63 ≤ a.toInt - b.toInt) (hhi : a.toInt - b.toInt < 2 ^ 63) :
    (a - b).toInt = a.toInt - b.toInt := by
  rw [Int64.toInt_sub, Int.bmod_eq_of_le] <;> omega

/-- A sum that is not an overflow is the sum. -/
theorem addInt64_eq_some {a b c : Int64} : addInt64 a b = some c ↔ c.toInt = a.toInt + b.toInt := by
  unfold addInt64
  have h1 := c.le_toInt
  have h2 := c.toInt_lt
  split
  · rename_i h
    rw [Option.some.injEq, eq_comm, ← Int64.toInt_inj, int64_add_toInt h.1 h.2]
  · simp only [reduceCtorEq, false_iff]
    omega

theorem subInt64_eq_some {a b c : Int64} : subInt64 a b = some c ↔ c.toInt = a.toInt - b.toInt := by
  unfold subInt64
  have h1 := c.le_toInt
  have h2 := c.toInt_lt
  split
  · rename_i h
    rw [Option.some.injEq, eq_comm, ← Int64.toInt_inj, int64_sub_toInt h.1 h.2]
  · simp only [reduceCtorEq, false_iff]
    omega

/-! ## The loop -/

namespace BlockService

variable (file : ClientFileEntity) (taskId : Int64) (param : BlockParam) (assigned : ℕ → Option Int64)

/-- The loop comes to block `k` as long as there is a rest of the file behind `k` full blocks. -/
def Continues (k : ℕ) : Prop :=
  0 < file.fileSize.toInt ∧ k * param.blockBytes.toInt < file.fileSize.toInt

/-- Neither the rest of the file nor the end of block `k` is out of range. -/
def InRange (k : ℕ) : Prop :=
  file.fileSize.toInt - k * param.blockBytes.toInt < 2 ^ 63 ∧ -2 ^ 63 ≤ (k + 1) * param.blockBytes.toInt

/-- Insert `k` is tried. -/
def Attempts (k : ℕ) : Prop := Continues file param k ∧ InRange file param k

/-- Insert `k` is tried and succeeds. -/
def Inserts (k : ℕ) : Prop := Attempts file param k ∧ assigned k ≠ none

/-- Insert `k` is the one that fails. -/
def FailsAt (k : ℕ) : Prop := Attempts file param k ∧ assigned k = none ∧ ∀ i < k, assigned i ≠ none

instance (k : ℕ) : Decidable (Continues file param k) := inferInstanceAs (Decidable (_ ∧ _))

instance (k : ℕ) : Decidable (InRange file param k) := inferInstanceAs (Decidable (_ ∧ _))

instance (k : ℕ) : Decidable (Attempts file param k) := inferInstanceAs (Decidable (_ ∧ _))

instance (k : ℕ) : Decidable (Inserts file param assigned k) := inferInstanceAs (Decidable (_ ∧ _))

/-- The offset after `k` inserts. -/
def loopOffset (k : ℕ) : Int64 := .ofInt (min (k * param.blockBytes.toInt) (max file.fileSize.toInt 0))

/-- Block `k` of the loop. -/
def loopBlock (k : ℕ) : BlockEntity where
  fileId := file.fileId
  offset := loopOffset file param k
  blockSize := .ofInt (min param.blockBytes.toInt (file.fileSize.toInt - k * param.blockBytes.toInt))
  taskId := taskId
  state := .waiting

/-- The rows of the first inserts. -/
def inserted (k : ℕ) : List BlockEntity :=
  (List.range k).map fun i => { loopBlock file taskId param i with blockId := (assigned i).getD 0 }

theorem inserted_succ (k : ℕ) : inserted file taskId param assigned (k + 1) =
    inserted file taskId param assigned k ++
      [{ loopBlock file taskId param k with blockId := (assigned k).getD 0 }] := by
  unfold inserted
  rw [List.range_succ, List.map_append, List.map_singleton]

theorem inserted_length (k : ℕ) : (inserted file taskId param assigned k).length = k := by
  unfold inserted
  rw [List.length_map, List.length_range]

variable {file taskId param assigned} {k n : ℕ}

/-- Blocks of no negative size stay in range. -/
theorem Continues.attempts (h : Continues file param k) (hbytes : 0 ≤ param.blockBytes.toInt) :
    Attempts file param k := by
  have hnonneg : 0 ≤ k * param.blockBytes.toInt := mul_nonneg (by omega) hbytes
  have hfile := file.fileSize.toInt_lt
  exact ⟨h, by omega, by rw [add_mul]; omega⟩

/-- Inserts are tried in order. -/
theorem Attempts.of_le (h : Attempts file param k) (hle : n ≤ k) : Attempts file param n := by
  obtain ⟨⟨hpos, hmore⟩, hsub, hadd⟩ := h
  have hcast : (n : ℤ) ≤ k := by exact_mod_cast hle
  by_cases hsign : 0 ≤ param.blockBytes.toInt
  · have hmono : n * param.blockBytes.toInt ≤ k * param.blockBytes.toInt := mul_le_mul_of_nonneg_right hcast hsign
    exact Continues.attempts ⟨hpos, by omega⟩ hsign
  · have hanti : k * param.blockBytes.toInt ≤ n * param.blockBytes.toInt :=
      mul_le_mul_of_nonpos_right hcast (by omega)
    have hnonpos : n * param.blockBytes.toInt ≤ 0 := mul_nonpos_of_nonneg_of_nonpos (by omega) (by omega)
    rw [add_mul] at hadd
    exact ⟨⟨hpos, by omega⟩, by omega, by rw [add_mul]; omega⟩

/-- The offset does not leave the range of 64 bits before the loop does. -/
theorem loopOffset_toInt (h : ∀ i < k, Attempts file param i) :
    (loopOffset file param k).toInt = min (k * param.blockBytes.toInt) (max file.fileSize.toInt 0) := by
  have hhigh := file.fileSize.toInt_lt
  have hlow : -2 ^ 63 ≤ k * param.blockBytes.toInt := by
    cases k with
    | zero => simp
    | succ k =>
      have hadd := (h k (Nat.lt_succ_self k)).2.2
      exact_mod_cast hadd
  exact Int64.toInt_ofInt_of_le (by omega) (by omega)

/-- **One insert of the loop**: the table gets the block, or the call fails. -/
theorem addLoop_attempts (h : Attempts file param k) (fuel : ℕ) (later : ℕ → Option Int64)
    (rows : List BlockEntity) : addLoop file taskId param (fuel + 1) later (loopOffset file param k) rows =
      match later 0 with
      | some blockId =>
        addLoop file taskId param fuel (fun j => later (j + 1)) (loopOffset file param (k + 1))
          (rows ++ [{ loopBlock file taskId param k with blockId := blockId }])
      | none => some (.returns rows false) := by
  obtain ⟨⟨hpos, hmore⟩, hsub, hadd⟩ := id h
  have hfile := file.fileSize.toInt_lt
  have hbytes := param.blockBytes.le_toInt
  have hoffset := loopOffset_toInt fun i hi => h.of_le (Nat.le_of_lt hi)
  have hnext := loopOffset_toInt fun i (hi : i < k + 1) => h.of_le (Nat.le_of_lt_succ hi)
  push_cast at hnext
  rw [add_mul] at hadd hnext
  -- the rest of the file, and the part of it that is the block
  have hrest : (Int64.ofInt (file.fileSize.toInt - k * param.blockBytes.toInt)).toInt =
      file.fileSize.toInt - k * param.blockBytes.toInt := Int64.toInt_ofInt_of_le (by omega) (by omega)
  have hsize :
      (Int64.ofInt (min param.blockBytes.toInt (file.fileSize.toInt - k * param.blockBytes.toInt))).toInt =
        min param.blockBytes.toInt (file.fileSize.toInt - k * param.blockBytes.toInt) :=
    Int64.toInt_ofInt_of_le (by omega) (by omega)
  have hlt : loopOffset file param k < file.fileSize := by
    rw [Int64.lt_iff_toInt_lt]
    omega
  have hsubtract : subInt64 file.fileSize (loopOffset file param k) =
      some (.ofInt (file.fileSize.toInt - k * param.blockBytes.toInt)) := subInt64_eq_some.2 (by omega)
  have hblock : (if Int64.ofInt (file.fileSize.toInt - k * param.blockBytes.toInt) ≥ param.blockBytes
      then param.blockBytes else .ofInt (file.fileSize.toInt - k * param.blockBytes.toInt)) =
        Int64.ofInt (min param.blockBytes.toInt (file.fileSize.toInt - k * param.blockBytes.toInt)) := by
    rw [← Int64.toInt_inj, hsize]
    split
    · rename_i hle
      rw [ge_iff_le, Int64.le_iff_toInt_le] at hle
      omega
    · rename_i hle
      rw [ge_iff_le, Int64.le_iff_toInt_le] at hle
      omega
  have hadded : addInt64 (loopOffset file param k)
      (.ofInt (min param.blockBytes.toInt (file.fileSize.toInt - k * param.blockBytes.toInt))) =
        some (loopOffset file param (k + 1)) := addInt64_eq_some.2 (by omega)
  rw [addLoop]
  simp only [if_pos hlt, hsubtract, hblock, hadded]
  cases later 0 with
  | none => rfl
  | some blockId => rfl

/-- A rest or an end of a block that is out of range is an overflow. -/
theorem addLoop_overflow (hcontinues : Continues file param k) (hrange : ¬InRange file param k)
    (hoffset : (loopOffset file param k).toInt = min (k * param.blockBytes.toInt) (max file.fileSize.toInt 0))
    (fuel : ℕ) (later : ℕ → Option Int64) (rows : List BlockEntity) :
    addLoop file taskId param (fuel + 1) later (loopOffset file param k) rows = some .overflow := by
  obtain ⟨hpos, hmore⟩ := hcontinues
  have hlt : loopOffset file param k < file.fileSize := by
    rw [Int64.lt_iff_toInt_lt]
    omega
  rw [addLoop, if_pos hlt]
  cases hsubtract : subInt64 file.fileSize (loopOffset file param k) with
  | none => rfl
  | some rest =>
    have hrest := subInt64_eq_some.1 hsubtract
    have hfits := rest.toInt_lt
    -- the rest is in range, so the size of a block is negative, and its end is not
    have hend : (k + 1) * param.blockBytes.toInt < -2 ^ 63 := by
      by_contra hadd
      exact hrange ⟨by omega, by omega⟩
    rw [add_mul, one_mul] at hend
    have hneg : param.blockBytes.toInt < 0 := by
      by_contra hsign
      have hnonneg : 0 ≤ k * param.blockBytes.toInt := mul_nonneg (by omega) (by omega)
      omega
    have hblock : rest ≥ param.blockBytes := by
      rw [ge_iff_le, Int64.le_iff_toInt_le]
      omega
    have hadded : addInt64 (loopOffset file param k) param.blockBytes = none := by
      cases hsum : addInt64 (loopOffset file param k) param.blockBytes with
      | none => rfl
      | some next =>
        have hnext := addInt64_eq_some.1 hsum
        have hlow := next.le_toInt
        omega
    simp only [if_pos hblock, hadded]

/-- **The loop after some inserts** goes on behind them. -/
theorem add_run (rows : List BlockEntity) (h : ∀ i < n, Inserts file param assigned i) (fuel : ℕ) :
    add (n + fuel) assigned rows file taskId param =
      addLoop file taskId param fuel (fun j => assigned (n + j)) (loopOffset file param n)
        (rows ++ inserted file taskId param assigned n) := by
  induction n generalizing fuel with
  | zero =>
    have hzero : loopOffset file param 0 = 0 := by
      rw [← Int64.toInt_inj, loopOffset_toInt (by simp)]
      simp
    have hassigned : (fun j => assigned (0 + j)) = assigned := by
      funext j
      rw [Nat.zero_add]
    rw [hzero, hassigned, Nat.zero_add]
    show _ = addLoop file taskId param fuel assigned 0 (rows ++ [])
    rw [List.append_nil]
    rfl
  | succ n ih =>
    obtain ⟨hattempts, hsome⟩ := h n (Nat.lt_succ_self n)
    obtain ⟨blockId, hassigned⟩ := Option.ne_none_iff_exists'.1 hsome
    -- the loop is entered again with one insert more behind it
    have hlater : (fun j => assigned (n + (j + 1))) = fun j => assigned (n + 1 + j) := by
      funext j
      rw [Nat.add_right_comm, Nat.add_assoc]
    rw [Nat.add_right_comm, Nat.add_assoc, ih (fun i hi => h i (Nat.lt_succ_of_lt hi)),
      addLoop_attempts hattempts]
    dsimp only
    rw [Nat.add_zero, hassigned, hlater, inserted_succ, hassigned, ← List.append_assoc]
    rfl

/-- Without fuel for the next insert the call has not returned. -/
theorem add_of_inserts (rows : List BlockEntity) (h : ∀ i < n, Inserts file param assigned i) :
    add n assigned rows file taskId param = none := by
  rw [← Nat.add_zero n, add_run rows h]
  rfl

/-- An insert that is tried and not made fails. -/
theorem failsAt_of_stop (hbefore : ∀ i < n, Inserts file param assigned i)
    (hstop : ¬Inserts file param assigned n)
    (hattempts : Attempts file param n) : FailsAt file param assigned n := by
  have hfails : assigned n = none := by
    by_contra hsome
    exact hstop ⟨hattempts, hsome⟩
  exact ⟨hattempts, hfails, fun i hi => (hbefore i hi).2⟩

/-- The inserts before the one that fails are made. -/
theorem FailsAt.inserts (h : FailsAt file param assigned k) : ∀ i < k, Inserts file param assigned i :=
  fun i hi => ⟨h.1.of_le (Nat.le_of_lt hi), h.2.2 i hi⟩

theorem FailsAt.not_inserts (h : FailsAt file param assigned k) : ¬Inserts file param assigned k :=
  fun hinserts => hinserts.2 h.2.1

/-- How the loop ends where it does not insert. -/
def ending (file : ClientFileEntity) (taskId : Int64) (param : BlockParam) (assigned : ℕ → Option Int64)
    (rows : List BlockEntity) (n : ℕ) : AddResult :=
  if Attempts file param n then .returns (rows ++ inserted file taskId param assigned n) false
  else if Continues file param n then .overflow
  else .returns (rows ++ inserted file taskId param assigned n) true

/-- **The end of the loop**, at the first insert that is not made. -/
theorem add_ends (taskId : Int64) (rows : List BlockEntity) (h : ∀ i < n, Inserts file param assigned i)
    (hn : ¬Inserts file param assigned n) (fuel : ℕ) :
    add (n + (fuel + 1)) assigned rows file taskId param = some (ending file taskId param assigned rows n) := by
  rw [add_run rows h]
  unfold ending
  by_cases hattempts : Attempts file param n
  · rw [if_pos hattempts, addLoop_attempts hattempts]
    dsimp only
    rw [Nat.add_zero, (failsAt_of_stop h hn hattempts).2.1]
  · have hoffset := loopOffset_toInt fun i hi => (h i hi).1
    rw [if_neg hattempts]
    by_cases hcontinues : Continues file param n
    · rw [if_pos hcontinues, addLoop_overflow hcontinues (fun hrange => hattempts ⟨hcontinues, hrange⟩) hoffset]
    · have hend : ¬loopOffset file param n < file.fileSize := by
        rw [Int64.lt_iff_toInt_lt, hoffset]
        unfold Continues at hcontinues
        cases n with
        | zero =>
          push_cast at hcontinues ⊢
          omega
        | succ m =>
          -- the file is not empty, or no insert would have been made
          have hpos := (h 0 (Nat.succ_pos m)).1.1.1
          omega
      rw [if_neg hcontinues, addLoop, if_neg hend]

/-- **What the call does** with so much fuel: it inserts as long as it lasts, or it has ended
where an insert was not made. -/
theorem add_cases (file : ClientFileEntity) (taskId : Int64) (param : BlockParam) (assigned : ℕ → Option Int64)
    (rows : List BlockEntity) (fuel : ℕ) :
    (∀ i < fuel, Inserts file param assigned i) ∧ add fuel assigned rows file taskId param = none ∨
      ∃ n < fuel, (∀ i < n, Inserts file param assigned i) ∧ ¬Inserts file param assigned n ∧
        add fuel assigned rows file taskId param = some (ending file taskId param assigned rows n) := by
  by_cases hall : ∀ i < fuel, Inserts file param assigned i
  · exact Or.inl ⟨hall, add_of_inserts rows hall⟩
  · right
    have hexists : ∃ n, n < fuel ∧ ¬Inserts file param assigned n := by simpa using hall
    -- the first insert that is not made
    obtain ⟨hlt, hstop⟩ := Nat.find_spec hexists
    have hbefore : ∀ i < Nat.find hexists, Inserts file param assigned i := by
      intro i hi
      by_contra hnot
      exact Nat.find_min hexists hi ⟨hi.trans hlt, hnot⟩
    obtain ⟨rest, hrest⟩ := Nat.exists_eq_add_of_lt hlt
    refine ⟨Nat.find hexists, hlt, hbefore, hstop, ?_⟩
    have hends := add_ends taskId rows hbefore hstop rest
    rw [← Nat.add_assoc, ← hrest] at hends
    exact hends

/-! ## Calls that fail -/

/-- **Failed calls.** The call returns false where an insert that it comes to fails, and the
table then has the blocks that were inserted before it; so it is the same as before exactly
when the first insert fails. -/
theorem add_false_iff (file : ClientFileEntity) (taskId : Int64) (param : BlockParam)
    (assigned : ℕ → Option Int64) (rows rows' : List BlockEntity) (fuel : ℕ) :
    (add fuel assigned rows file taskId param = some (.returns rows' false) ↔
        ∃ k < fuel, FailsAt file param assigned k ∧ rows' = rows ++ inserted file taskId param assigned k) ∧
      ∀ k, rows ++ inserted file taskId param assigned k = rows ↔ k = 0 := by
  refine ⟨⟨?_, ?_⟩, ?_⟩
  · intro hfalse
    rcases add_cases file taskId param assigned rows fuel with
      ⟨-, hnone⟩ | ⟨n, hn, hbefore, hstop, hended⟩
    · rw [hnone] at hfalse
      cases hfalse
    · rw [hended] at hfalse
      have hending := Option.some.inj hfalse
      unfold ending at hending
      -- it ends because an insert fails, or because there is nothing more to insert
      by_cases hattempts : Attempts file param n
      · rw [if_pos hattempts] at hending
        exact ⟨n, hn, failsAt_of_stop hbefore hstop hattempts, (AddResult.returns.inj hending).1.symm⟩
      · rw [if_neg hattempts] at hending
        split at hending
        · cases hending
        · exact absurd (AddResult.returns.inj hending).2 (by decide)
  · rintro ⟨k, hk, hfails, rfl⟩
    obtain ⟨rest, rfl⟩ := Nat.exists_eq_add_of_lt hk
    rw [Nat.add_assoc, add_ends taskId rows hfails.inserts hfails.not_inserts]
    unfold ending
    rw [if_pos hfails.1]
  · intro k
    rw [List.append_right_eq_self, ← List.length_eq_zero_iff, inserted_length]

/-- The second insert of a file of five bytes fails, and the first block stays. -/
theorem firstBlock_stays :
    add 2 (fun k => if k = 0 then some 1 else none) [] ⟨1, 5⟩ 1 ⟨2⟩ =
      some (.returns [⟨1, 1, 1, 0, 2, .waiting, 0, 0⟩] false) := by
  decide

/-! ## Calls that end -/

/-- The call ends, and never in an overflow. -/
structure EndsWell (file : ClientFileEntity) (taskId : Int64) (param : BlockParam) (assigned : ℕ → Option Int64)
    (rows : List BlockEntity) : Prop where
  terminates : ∃ fuel, add fuel assigned rows file taskId param ≠ none
  noOverflow : ∀ fuel, add fuel assigned rows file taskId param ≠ some .overflow

/-- The loop does not end in an overflow where it is in range. -/
theorem ending_ne_overflow_iff (rows : List BlockEntity) :
    ending file taskId param assigned rows n ≠ .overflow ↔ (Continues file param n → Attempts file param n) := by
  unfold ending
  by_cases hattempts : Attempts file param n
  · simp [hattempts]
  · by_cases hcontinues : Continues file param n
    · simp [hattempts, hcontinues]
    · simp [hattempts, hcontinues]

/-- It ends well exactly when there is an insert that is not made, and the loop is in range there. -/
theorem endsWell_iff_stop (rows : List BlockEntity) : EndsWell file taskId param assigned rows ↔
    ∃ n, (∀ i < n, Inserts file param assigned i) ∧ ¬Inserts file param assigned n ∧
      (Continues file param n → Attempts file param n) := by
  constructor
  · rintro ⟨⟨fuel, hterminates⟩, hnoOverflow⟩
    rcases add_cases file taskId param assigned rows fuel with ⟨-, hnone⟩ | ⟨n, -, hbefore, hstop, hended⟩
    · exact absurd hnone hterminates
    · have hending : ending file taskId param assigned rows n ≠ .overflow := by
        intro hoverflow
        exact hnoOverflow fuel (by rw [hended, hoverflow])
      exact ⟨n, hbefore, hstop, (ending_ne_overflow_iff rows).1 hending⟩
  · rintro ⟨n, hbefore, hstop, hrange⟩
    have hends := add_ends taskId rows hbefore hstop 0
    refine ⟨⟨n + (0 + 1), by rw [hends]; exact Option.some_ne_none _⟩, ?_⟩
    intro fuel hoverflow
    rcases add_cases file taskId param assigned rows fuel with ⟨-, hnone⟩ | ⟨m, -, hbefore', hstop', hended⟩
    · rw [hnone] at hoverflow
      cases hoverflow
    · -- there is only one insert where the loop can end
      have hsame : m = n := by
        rcases Nat.lt_trichotomy m n with hlt | heq | hgt
        · exact absurd (hbefore m hlt) hstop'
        · exact heq
        · exact absurd (hbefore' n hgt) hstop
      subst hsame
      rw [hended] at hoverflow
      exact (ending_ne_overflow_iff rows).2 hrange (Option.some.inj hoverflow)

/-- Without progress there is always more to do. -/
theorem continues_of_nonpos (hpos : 0 < file.fileSize.toInt) (hbytes : param.blockBytes.toInt ≤ 0) (k : ℕ) :
    Continues file param k := by
  have hnonpos : k * param.blockBytes.toInt ≤ 0 := mul_nonpos_of_nonneg_of_nonpos (by omega) hbytes
  exact ⟨hpos, by omega⟩

/-- Blocks of bytes use up the file. -/
theorem not_continues_of_pos (hbytes : 0 < param.blockBytes.toInt) :
    ¬Continues file param file.fileSize.toInt.toNat := by
  rintro ⟨hpos, hmore⟩
  have hfull : (file.fileSize.toInt.toNat : ℤ) ≤ file.fileSize.toInt.toNat * param.blockBytes.toInt :=
    le_mul_of_one_le_right (by omega) (by omega)
  omega

/-- **Termination.** For every file, size of blocks, table and results of the inserts: the
call ends without an overflow exactly when the file is empty, the size of a block is
positive, or an insert that it comes to fails. -/
theorem add_endsWell_iff (file : ClientFileEntity) (taskId : Int64) (param : BlockParam)
    (assigned : ℕ → Option Int64) (rows : List BlockEntity) :
    EndsWell file taskId param assigned rows ↔
      file.fileSize ≤ 0 ∨ 0 < param.blockBytes ∨ ∃ k, FailsAt file param assigned k := by
  rw [endsWell_iff_stop, Int64.le_iff_toInt_le, Int64.lt_iff_toInt_lt, Int64.toInt_zero]
  constructor
  · rintro ⟨n, hbefore, hstop, hrange⟩
    by_cases hempty : file.fileSize.toInt ≤ 0
    · exact Or.inl hempty
    · by_cases hbytes : 0 < param.blockBytes.toInt
      · exact Or.inr (Or.inl hbytes)
      · have hcontinues : Continues file param n := continues_of_nonpos (by omega) (by omega) n
        exact Or.inr (Or.inr ⟨n, failsAt_of_stop hbefore hstop (hrange hcontinues)⟩)
  · intro hcond
    -- up to an insert that is not made, the loop has stayed in range
    obtain ⟨m, hstop, hrange⟩ : ∃ m, ¬Inserts file param assigned m ∧
        ∀ n ≤ m, Continues file param n → Attempts file param n := by
      rcases hcond with hempty | hbytes | ⟨k, hfails⟩
      · have hnever : ∀ n, ¬Continues file param n := fun n hcontinues => absurd hcontinues.1 (by omega)
        exact ⟨0, fun hinserts => hnever 0 hinserts.1.1, fun n _ hcontinues => absurd hcontinues (hnever n)⟩
      · exact ⟨_, fun hinserts => not_continues_of_pos hbytes hinserts.1.1,
          fun n _ hcontinues => hcontinues.attempts hbytes.le⟩
      · exact ⟨k, hfails.not_inserts, fun n hn _ => hfails.1.of_le hn⟩
    have hexists : ∃ n, ¬Inserts file param assigned n := ⟨m, hstop⟩
    have hbefore : ∀ i < Nat.find hexists, Inserts file param assigned i := by
      intro i hi
      by_contra hnot
      exact Nat.find_min hexists hi hnot
    exact ⟨Nat.find hexists, hbefore, Nat.find_spec hexists, hrange _ (Nat.find_min' hexists hstop)⟩

/-- Blocks of no bytes are inserted without end, and blocks of a negative size run out of range. -/
theorem noBytes_endless :
    (∀ fuel, add fuel (fun _ => some 1) [] ⟨1, 5⟩ 1 ⟨0⟩ = none) ∧
      add 2 (fun _ => some 1) [] ⟨1, 5⟩ 1 ⟨-9223372036854775807⟩ = some .overflow ∧
      ¬EndsWell ⟨1, 5⟩ 1 ⟨0⟩ (fun _ => some 1) [] := by
  have hendless : ∀ fuel, add fuel (fun _ => some 1) [] ⟨1, 5⟩ 1 ⟨0⟩ = none := by
    intro fuel
    apply add_of_inserts
    intro i _
    refine ⟨⟨⟨by decide, ?_⟩, ?_, ?_⟩, Option.some_ne_none _⟩
    all_goals simp
  refine ⟨hendless, by decide, ?_⟩
  rintro ⟨⟨fuel, hterminates⟩, -⟩
  exact hterminates (hendless fuel)

end BlockService

end ProjectTrans
