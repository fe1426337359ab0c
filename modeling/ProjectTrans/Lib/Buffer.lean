import ProjectTrans.Lib.Bytes

/-!
# Checked access to byte vectors

Reads and writes of a byte vector that fault when they leave it. `readAt_iff`
says what a read that does not fault returns; `writeAt_append` is a write right
behind what has been written so far; `laidOut_iff_liesAt` turns a sequence of
parts found one behind another into one prefix.
-/

namespace Wire

/-- An operation the program has no defined result for. -/
inductive Fault
  | outOfRange (index count size : ℕ)
  | nullPointer
  | lengthError (size : ℕ)
  | brokenObject
  | negativeLength (length : Int)
  | badVariantAccess
  deriving DecidableEq, Repr

/-- A computation that may run into a fault. -/
abbrev Checked := Except Fault

/-- What a sequence of two checked computations needs to succeed. -/
theorem Checked.bind_eq_ok {α β : Type} {x : Checked α} {f : α → Checked β} {b : β} :
    (x >>= f) = .ok b ↔ ∃ a, x = .ok a ∧ f a = .ok b := by
  cases x with
  | error e => simp [bind, Except.bind]
  | ok a => simp [bind, Except.bind]

@[simp] theorem Checked.ok_bind {α β : Type} (a : α) (f : α → Checked β) :
    ((.ok a : Checked α) >>= f) = f a := rfl

@[simp] theorem Checked.pure_eq {α : Type} (a : α) : (pure a : Checked α) = .ok a := rfl

/-- The `n` bytes from index `i`. -/
def readAt (bs : Bytes) (i n : ℕ) : Checked Bytes :=
  if i + n ≤ bs.length then .ok ((bs.drop i).take n) else .error (.outOfRange i n bs.length)

/-- Overwrite the bytes from index `i` with `p`. -/
def writeAt (bs : Bytes) (i : ℕ) (p : Bytes) : Checked Bytes :=
  if i + p.length ≤ bs.length then .ok (bs.take i ++ p ++ bs.drop (i + p.length))
  else .error (.outOfRange i p.length bs.length)

/-- Overwrite with the parts, one behind another from index `i` on. -/
def writeAll (bs : Bytes) : ℕ → List Bytes → Checked Bytes
  | _, [] => .ok bs
  | i, p :: ps => do
    let bs ← writeAt bs i p
    writeAll bs (u32 (i + p.length)) ps

/-- Cut a vector to `n` bytes, or fill it up with zeros. -/
def resize (bs : Bytes) (n : ℕ) : Bytes := bs.take n ++ List.replicate (n - bs.length) 0

/-- Grow a vector to `n` bytes if it is shorter. -/
def growTo (bs : Bytes) (n : ℕ) : Bytes := if bs.length < n then resize bs n else bs

/-- The bytes `p` occupy the positions of `bs` from `i` on. -/
def LiesAt (bs : Bytes) (i : ℕ) (p : Bytes) : Prop := ∃ pre post, bs = pre ++ p ++ post ∧ pre.length = i

/-- The parts lie in `bs` one behind another from index `i` on, the index being
an unsigned 32-bit number. -/
def LaidOut (bs : Bytes) : ℕ → List Bytes → Prop
  | _, [] => True
  | i, p :: ps => LiesAt bs i p ∧ LaidOut bs (u32 (i + p.length)) ps

theorem liesAt_length {bs p : Bytes} {i : ℕ} (h : LiesAt bs i p) : i + p.length ≤ bs.length := by
  obtain ⟨pre, post, rfl, rfl⟩ := h
  simp only [List.length_append]; omega

/-- **A read** returns what lies at its index, and only that. -/
theorem readAt_iff {bs p : Bytes} {i n : ℕ} :
    readAt bs i n = .ok p ↔ p.length = n ∧ LiesAt bs i p := by
  unfold readAt
  constructor
  · intro h
    split at h
    · rename_i hle
      obtain rfl : (bs.drop i).take n = p := by simpa using h
      have hn : ((bs.drop i).take n).length = n := by simp; omega
      refine ⟨hn, bs.take i, (bs.drop i).drop n, ?_, by simp; omega⟩
      rw [List.append_assoc, List.take_append_drop, List.take_append_drop]
    · simp at h
  · rintro ⟨rfl, h⟩
    have hle := liesAt_length h
    obtain ⟨pre, post, rfl, rfl⟩ := h
    rw [if_pos hle, List.append_assoc, List.drop_left, List.take_left]

theorem readAt_ok {bs : Bytes} {i n : ℕ} (h : i + n ≤ bs.length) :
    readAt bs i n = .ok ((bs.drop i).take n) := if_pos h

theorem liesAt_append {bs p q : Bytes} {i : ℕ} :
    LiesAt bs i (p ++ q) ↔ LiesAt bs i p ∧ LiesAt bs (i + p.length) q := by
  constructor
  · rintro ⟨pre, post, rfl, rfl⟩
    exact ⟨⟨pre, q ++ post, by simp, rfl⟩, ⟨pre ++ p, post, by simp, by simp⟩⟩
  · rintro ⟨⟨pre, post, rfl, rfl⟩, ⟨pre', post', h, hl⟩⟩
    have h' : pre ++ p ++ post = (pre ++ p) ++ (q ++ post') ∧ pre' = pre ++ p := by
      have hpre : pre' = pre ++ p := by
        have := congrArg (List.take (pre ++ p).length) h
        rw [List.take_left, List.append_assoc, List.take_append_of_le_length (by simp [hl]),
          List.take_of_length_le (by simp [hl])] at this
        exact this.symm
      exact ⟨by rw [h, hpre, List.append_assoc], hpre⟩
    exact ⟨pre, post', by rw [h'.1]; simp, rfl⟩

theorem liesAt_nil {bs : Bytes} {i : ℕ} (h : i ≤ bs.length) : LiesAt bs i [] :=
  ⟨bs.take i, bs.drop i, by simp, by simp [h]⟩

theorem laidOut_append (bs : Bytes) : ∀ (ps qs : List Bytes) (i : ℕ), i < 2 ^ 32 →
    (LaidOut bs i (ps ++ qs) ↔ LaidOut bs i ps ∧ LaidOut bs (u32 (i + ps.flatten.length)) qs) := by
  intro ps
  induction ps with
  | nil => intro qs i hi; simp [LaidOut, u32_of_lt hi]
  | cons p ps ih =>
    intro qs i _
    have hj : u32 (u32 (i + p.length) + ps.flatten.length) = u32 (i + (p :: ps).flatten.length) := by
      simp only [u32, List.flatten_cons, List.length_append]; omega
    simp only [List.cons_append, LaidOut, ih qs _ (u32_lt _), hj, and_assoc]

/-- **Before the place `2^32`**, parts one behind another are one string. -/
theorem laidOut_iff_liesAt {bs : Bytes} : ∀ (ps : List Bytes) (i : ℕ), i ≤ bs.length →
    i + ps.flatten.length < 2 ^ 32 → (LaidOut bs i ps ↔ LiesAt bs i ps.flatten) := by
  intro ps
  induction ps with
  | nil => intro i hi _; simp [LaidOut, liesAt_nil hi]
  | cons p ps ih =>
    intro i hi hlt
    rw [List.flatten_cons, List.length_append] at hlt
    rw [List.flatten_cons, liesAt_append]
    simp only [LaidOut]
    refine and_congr_right fun hp => ?_
    have hle := liesAt_length hp
    rw [u32_of_lt (by omega)]
    exact ih _ hle (by omega)

/-- **In a vector shorter than `2^32`** no index wraps, so parts one behind another are
one string. -/
theorem laidOut_iff_liesAt_of_short {bs : Bytes} (hlt : bs.length < 2 ^ 32) : ∀ (ps : List Bytes) (i : ℕ),
    i ≤ bs.length → (LaidOut bs i ps ↔ LiesAt bs i ps.flatten) := by
  intro ps
  induction ps with
  | nil => intro i hi; simp [LaidOut, liesAt_nil hi]
  | cons p ps ih =>
    intro i _
    rw [List.flatten_cons, liesAt_append]
    simp only [LaidOut]
    refine and_congr_right fun hp => ?_
    have hle := liesAt_length hp
    rw [u32_of_lt (by omega)]
    exact ih _ hle

/-- What lies at a place is in front of the rest from that place on. -/
theorem liesAt_drop {bs p : Bytes} {i : ℕ} (hi : i ≤ bs.length) : LiesAt (bs.drop i) 0 p ↔ LiesAt bs i p := by
  constructor
  · rintro ⟨pre, post, h, hpre⟩
    obtain rfl := List.eq_nil_of_length_eq_zero hpre
    refine ⟨bs.take i, post, ?_, by simp [hi]⟩
    rw [List.append_assoc, ← List.nil_append p, ← h, List.take_append_drop]
  · rintro ⟨pre, post, rfl, rfl⟩
    exact ⟨[], post, by simp, rfl⟩

/-! ## Writing -/

@[simp] theorem resize_length (bs : Bytes) (n : ℕ) : (resize bs n).length = n := by
  simp [resize]; omega

theorem resize_of_le {bs : Bytes} {n : ℕ} (h : n ≤ bs.length) : resize bs n = bs.take n := by
  simp [resize, Nat.sub_eq_zero_of_le h]

/-- Resizing is growing, then cutting. -/
theorem resize_eq_take (bs : Bytes) (n : ℕ) : resize bs n = (growTo bs n).take n := by
  unfold growTo
  split
  · rw [List.take_of_length_le (by rw [resize_length])]
  · rw [resize_of_le (by omega)]

theorem growTo_length (bs : Bytes) (n : ℕ) : (growTo bs n).length = max bs.length n := by
  unfold growTo; split <;> simp <;> omega

/-- Growing keeps what is there. -/
theorem growTo_eq (bs : Bytes) (n : ℕ) : ∃ z, growTo bs n = bs ++ z := by
  unfold growTo
  split
  · rename_i h; exact ⟨List.replicate (n - bs.length) 0, by rw [resize, List.take_of_length_le h.le]⟩
  · exact ⟨[], by simp⟩

theorem growTo_of_le {bs : Bytes} {n : ℕ} (h : n ≤ bs.length) : growTo bs n = bs :=
  if_neg (by omega)

/-- A write that does not fault stays inside, and leaves the length. -/
theorem writeAt_fits {bs p out : Bytes} {i : ℕ} (h : writeAt bs i p = .ok out) :
    i + p.length ≤ bs.length ∧ out.length = bs.length := by
  unfold writeAt at h
  split at h
  · rename_i hfit
    obtain rfl : bs.take i ++ p ++ bs.drop (i + p.length) = out := by simpa using h
    refine ⟨hfit, ?_⟩
    simp only [List.length_append, List.length_take, List.length_drop]
    omega
  · cases h

/-- **A write behind what has been written.** -/
theorem writeAt_append {pre rest p : Bytes} (h : p.length ≤ rest.length) :
    writeAt (pre ++ rest) pre.length p = .ok (pre ++ p ++ rest.drop p.length) := by
  unfold writeAt
  rw [if_pos (by simp; omega), List.take_left]
  simp [List.drop_append]

/-- **Parts written behind what has been written**, while they fit. -/
theorem writeAll_append (ps : List Bytes) : ∀ (pre rest : Bytes), ps.flatten.length ≤ rest.length →
    pre.length + rest.length < 2 ^ 32 →
    writeAll (pre ++ rest) pre.length ps = .ok (pre ++ ps.flatten ++ rest.drop ps.flatten.length) := by
  induction ps with
  | nil => intro pre rest _ _; simp [writeAll]
  | cons p ps ih =>
    intro pre rest hfit hlt
    rw [List.flatten_cons, List.length_append] at hfit
    have hpre : u32 (pre.length + p.length) = (pre ++ p).length := by
      rw [List.length_append, u32_of_lt (by omega)]
    rw [writeAll, writeAt_append (by omega), Checked.ok_bind, hpre,
      ih _ _ (by rw [List.length_drop]; omega) (by rw [List.length_append, List.length_drop]; omega)]
    simp [List.drop_drop]

/-- Overwriting leaves the length. -/
theorem writeAll_length (ps : List Bytes) : ∀ {bs out : Bytes} {i : ℕ},
    writeAll bs i ps = .ok out → out.length = bs.length := by
  induction ps with
  | nil => intro bs out i h; rw [Except.ok.inj h]
  | cons p ps ih =>
    intro bs out i h
    obtain ⟨bs₁, hwrite, hrest⟩ := Checked.bind_eq_ok.1 h
    rw [ih hrest, (writeAt_fits hwrite).2]

/-- Parts written over the front. -/
theorem writeAll_zero {ps : List Bytes} {old rest : Bytes} (h : ps.flatten.length = old.length)
    (hlt : old.length + rest.length < 2 ^ 32) :
    writeAll (old ++ rest) 0 ps = .ok (ps.flatten ++ rest) := by
  have := writeAll_append ps [] (old ++ rest) (by simp [h]) (by simpa using hlt)
  rw [List.nil_append, List.length_nil, List.nil_append] at this
  rw [this, h, List.drop_left]

end Wire
