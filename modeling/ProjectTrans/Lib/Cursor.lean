import ProjectTrans.Lib.Buffer

/-!
# Going through a byte vector front to back

A `Cursor` fills a vector part by part and grows it when needed; a `Reader` takes
a vector apart and gives up when it is too short. Both count in 32 bits.
`Cursor.fill_eq` and `Reader.next_startAt` are what they do when nothing wraps.
-/

namespace Wire

/-- The vector being filled, the place of the next write and the room needed so far. -/
structure Cursor where
  data : Bytes
  index : ℕ
  needSize : ℕ

/-- Make room for `size` more bytes, write `p` at the index and move past it. -/
def Cursor.put (c : Cursor) (size : ℕ) (p : Bytes) : Checked Cursor := do
  let needSize := u32 (c.needSize + size)
  let data ← writeAt (growTo c.data needSize) c.index p
  return ⟨data, u32 (c.index + p.length), needSize⟩

/-- Leave `size` bytes as they are. -/
def Cursor.skip (c : Cursor) (size : ℕ) : Cursor :=
  let needSize := u32 (c.needSize + size)
  ⟨growTo c.data needSize, u32 (c.index + size), needSize⟩

/-- The place of the next read and the bytes needed so far. -/
structure Reader where
  index : ℕ
  needSize : ℕ

/-- The reader that has read everything before index `i`. -/
def Reader.startAt (i : ℕ) : Reader := ⟨i, i⟩

/-- The next `size` bytes, or nothing when the vector is too short for them. -/
def Reader.next (data : Bytes) (r : Reader) (size : ℕ) : OptionT Checked (Bytes × Reader) :=
  let needSize := u32 (r.needSize + size)
  if data.length < needSize then failure
  else do
    let p ← readAt data r.index size
    return (p, ⟨u32 (r.index + size), needSize⟩)

/-- The cursor has written `w` into a vector of `n` bytes and stands behind it. -/
structure Cursor.Wrote (c : Cursor) (w : Bytes) (n : ℕ) : Prop where
  data : ∃ rest, c.data = w ++ rest
  length : c.data.length = n
  index : c.index = w.length
  needSize : c.needSize = w.length

/-- A part that fits is written behind what is there. -/
theorem Cursor.put_wrote {c : Cursor} {w p : Bytes} {n : ℕ} (h : c.Wrote w n)
    (hfit : w.length + p.length ≤ n) (hn : n < 2 ^ 32) :
    ∃ c', c.put p.length p = .ok c' ∧ c'.Wrote (w ++ p) n := by
  obtain ⟨⟨rest, hd⟩, hl, hi, hs⟩ := h
  have hrest : rest.length = n - w.length := by rw [← hl, hd]; simp
  have hneed : u32 (c.needSize + p.length) = w.length + p.length := by rw [hs, u32_of_lt (by omega)]
  have hwrite : writeAt (growTo c.data (w.length + p.length)) c.index p =
      .ok (w ++ p ++ rest.drop p.length) := by
    rw [growTo_of_le (by omega), hd, hi]
    exact writeAt_append (by omega)
  refine ⟨⟨w ++ p ++ rest.drop p.length, w.length + p.length, w.length + p.length⟩, ?_, ?_⟩
  · have hidx : u32 (c.index + p.length) = w.length + p.length := by rw [hi, u32_of_lt (by omega)]
    unfold Cursor.put
    simp only [hneed]
    rw [hwrite, Checked.ok_bind, hidx]
    rfl
  · exact ⟨⟨_, rfl⟩, by simp; omega, by simp, by simp⟩

/-- The parts go in one behind another as long as they fit. -/
theorem Cursor.puts_wrote {n : ℕ} (hn : n < 2 ^ 32) : ∀ (ps : List Bytes) {c : Cursor} {w : Bytes},
    c.Wrote w n → (w ++ ps.flatten).length ≤ n →
    ∃ c', ps.foldlM (fun c p => c.put p.length p) c = .ok c' ∧ c'.Wrote (w ++ ps.flatten) n := by
  intro ps
  induction ps with
  | nil => intro c w h _; exact ⟨c, rfl, by simpa using h⟩
  | cons p ps ih =>
    intro c w h hfit
    rw [List.flatten_cons, ← List.append_assoc] at hfit ⊢
    have hp : w.length + p.length ≤ n := by
      rw [List.length_append, List.length_append] at hfit; omega
    obtain ⟨c1, e1, h1⟩ := put_wrote h hp hn
    obtain ⟨c2, e2, h2⟩ := ih h1 hfit
    exact ⟨c2, by rw [List.foldlM_cons, e1, Checked.ok_bind, e2], h2⟩

/-- A cursor at the end of its vector has written all of it. -/
theorem Cursor.Wrote.data_eq {c : Cursor} {w : Bytes} {n : ℕ} (h : c.Wrote w n) (hw : w.length = n) :
    c.data = w := by
  obtain ⟨⟨rest, hd⟩, hl, -, -⟩ := h
  have hlen := congrArg List.length hd
  rw [List.length_append] at hlen
  have hrest : rest = [] := List.eq_nil_of_length_eq_zero (by omega)
  rw [hd, hrest, List.append_nil]

/-- Bytes left as they are behind a full vector are zeros. -/
theorem Cursor.skip_wrote {c : Cursor} {w : Bytes} {n k : ℕ} (h : c.Wrote w n) (hw : w.length = n)
    (hn : n + k < 2 ^ 32) : (c.skip k).Wrote (w ++ List.replicate k 0) (n + k) := by
  have hdata := h.data_eq hw
  have hneed : u32 (c.needSize + k) = n + k := by rw [h.needSize, hw, u32_of_lt hn]
  have hindex : u32 (c.index + k) = n + k := by rw [h.index, hw, u32_of_lt hn]
  have hgrow : growTo c.data (n + k) = w ++ List.replicate k 0 := by
    rw [hdata]
    rcases Nat.eq_zero_or_pos k with rfl | hk
    · rw [growTo_of_le (by omega), List.replicate_zero, List.append_nil]
    · unfold growTo resize
      rw [if_pos (by omega), List.take_of_length_le (by omega), hw, Nat.add_sub_cancel_left]
  have hlength : (w ++ List.replicate k (0 : UInt8)).length = n + k := by
    rw [List.length_append, List.length_replicate, hw]
  unfold Cursor.skip
  dsimp only
  rw [hneed, hindex, hgrow]
  exact ⟨⟨[], by rw [List.append_nil]⟩, hlength, hlength.symm, hlength.symm⟩

/-- **Filling a vector of the right size** with parts leaves exactly the parts. -/
theorem Cursor.fill_eq {n : ℕ} (ps : List Bytes) (h : ps.flatten.length = n) (hn : n < 2 ^ 32) :
    (ps.foldlM (fun (c : Cursor) p => c.put p.length p) ⟨List.replicate n 0, 0, 0⟩ >>=
      fun c => (pure c.data : Checked Bytes)) = .ok ps.flatten := by
  have h0 : Cursor.Wrote ⟨List.replicate n 0, 0, 0⟩ [] n := ⟨⟨_, rfl⟩, by simp, rfl, rfl⟩
  obtain ⟨c, e, hc⟩ := Cursor.puts_wrote hn ps h0 (by simpa using h.le)
  rw [e, Checked.ok_bind, hc.data_eq (by simpa using h)]
  rfl

/-- A part that was written lies before the place `2^32`, however the needed size was counted. -/
theorem Cursor.put_fits {c c' : Cursor} {size : ℕ} {p : Bytes} (h : c.put size p = .ok c')
    (hl : c.data.length < 2 ^ 32) :
    c.index + p.length < 2 ^ 32 ∧ c'.index = c.index + p.length ∧ c'.data.length < 2 ^ 32 := by
  obtain ⟨data, hwrite, hc'⟩ := Checked.bind_eq_ok.1 h
  obtain ⟨hfit, hlength⟩ := writeAt_fits hwrite
  have hroom := growTo_length c.data (u32 (c.needSize + size))
  have hneed := u32_lt (c.needSize + size)
  have hlt : c.index + p.length < 2 ^ 32 := by omega
  obtain rfl : Cursor.mk data (u32 (c.index + p.length)) (u32 (c.needSize + size)) = c' := by simpa using hc'
  exact ⟨hlt, u32_of_lt hlt, by dsimp only; omega⟩

/-- Parts that were all written end before the place `2^32`. -/
theorem Cursor.puts_fit (ps : List Bytes) : ∀ {c c' : Cursor},
    ps.foldlM (fun c p => c.put p.length p) c = .ok c' → c.data.length < 2 ^ 32 → c.index < 2 ^ 32 →
    c.index + ps.flatten.length < 2 ^ 32 := by
  induction ps with
  | nil => intro c c' _ _ hi; simpa using hi
  | cons p ps ih =>
    intro c c' h hl _
    rw [List.foldlM_cons, Checked.bind_eq_ok] at h
    obtain ⟨c₁, hput, hrest⟩ := h
    obtain ⟨hlt, hindex, hl₁⟩ := put_fits hput hl
    have hps := ih hrest hl₁ (by omega)
    rw [List.flatten_cons, List.length_append]
    omega

/-- **Only what is shorter than `2^32`** can be filled into a vector. -/
theorem Cursor.fill_fits {n : ℕ} {ps : List Bytes} {bs : Bytes} (hn : n < 2 ^ 32)
    (h : (ps.foldlM (fun (c : Cursor) p => c.put p.length p) ⟨List.replicate n 0, 0, 0⟩ >>=
      fun c => (pure c.data : Checked Bytes)) = .ok bs) : ps.flatten.length < 2 ^ 32 := by
  obtain ⟨c, hputs, -⟩ := Checked.bind_eq_ok.1 h
  have hfit := puts_fit ps hputs (by simpa using hn) (by norm_num)
  simpa using hfit

/-! ## Reading -/

/-- What a sequence of two readings needs to succeed. -/
theorem Checked.optionBind_eq {α β : Type} {x : OptionT Checked α} {f : α → OptionT Checked β} {a : α}
    (h : x.run = .ok (some a)) : (x >>= f).run = (f a).run := by
  simp only [OptionT.run_bind, h]
  rfl

/-- What a sequence of two readings that succeeded has read. -/
theorem Checked.optionBind_some {α β : Type} {x : OptionT Checked α} {f : α → OptionT Checked β} {b : β}
    (h : (x >>= f).run = .ok (some b)) : ∃ a, x.run = .ok (some a) ∧ (f a).run = .ok (some b) := by
  rw [OptionT.run_bind] at h
  obtain ⟨a, ha, h⟩ := Checked.bind_eq_ok.1 h
  cases a with
  | none => cases h
  | some a => exact ⟨a, ha, h⟩

/-- Nothing comes of a sequence of two readings whose first gives up. -/
theorem Checked.optionBind_none {α β : Type} {x : OptionT Checked α} {f : α → OptionT Checked β}
    (h : x.run = .ok none) : (x >>= f).run = .ok none := by
  simp only [OptionT.run_bind, h]
  rfl

/-- A sequence of two readings whose first faults. -/
theorem Checked.optionBind_error {α β : Type} {x : OptionT Checked α} {f : α → OptionT Checked β} {e : Fault}
    (h : x.run = .error e) : (x >>= f).run = .error e := by
  simp only [OptionT.run_bind, h]
  rfl

/-- As many bytes are read as were asked for. -/
theorem Reader.next_length {data p : Bytes} {r r' : Reader} {n : ℕ}
    (h : (r.next data n).run = .ok (some (p, r'))) : p.length = n := by
  unfold Reader.next at h
  dsimp only at h
  split at h
  · cases h
  · obtain ⟨q, hq, h⟩ := Checked.optionBind_some h
    obtain ⟨q', hq', h'⟩ := Checked.bind_eq_ok.1 hq
    cases h
    cases h'
    exact (readAt_iff.1 hq').1

/-- **The next reading** gives up when the size counted in 32 bits exceeds the vector, and
leaves the vector when only the real one does. -/
theorem Reader.next_cases (data : Bytes) (i n : ℕ) :
    (data.length < u32 (i + n) ∧ ((Reader.startAt i).next data n).run = .ok none) ∨
    (u32 (i + n) ≤ data.length ∧ i + n ≤ data.length ∧ ∃ p, p.length = n ∧ LiesAt data i p ∧
      ((Reader.startAt i).next data n).run = .ok (some (p, Reader.startAt (u32 (i + n))))) ∨
    (u32 (i + n) ≤ data.length ∧ data.length < i + n ∧
      ∃ e, ((Reader.startAt i).next data n).run = .error e) := by
  unfold Reader.next Reader.startAt
  dsimp only
  by_cases hneed : data.length < u32 (i + n)
  · rw [if_pos hneed]
    exact Or.inl ⟨hneed, rfl⟩
  rw [if_neg hneed]
  by_cases hfit : i + n ≤ data.length
  · obtain ⟨hn, hlies⟩ := readAt_iff.1 (readAt_ok hfit)
    refine Or.inr (Or.inl ⟨by omega, hfit, _, hn, hlies, ?_⟩)
    rw [readAt_ok hfit]
    rfl
  · refine Or.inr (Or.inr ⟨by omega, by omega, .outOfRange i n data.length, ?_⟩)
    unfold readAt
    rw [if_neg hfit]
    rfl

/-- Before the place `2^32` nothing is read from outside. -/
theorem Reader.next_inside (data : Bytes) {i n : ℕ} (hlt : i + n < 2 ^ 32) :
    ((Reader.startAt i).next data n).run = .ok none ∨
    ∃ p, p.length = n ∧ LiesAt data i p ∧
      ((Reader.startAt i).next data n).run = .ok (some (p, Reader.startAt (i + n))) := by
  have hcount : u32 (i + n) = i + n := u32_of_lt hlt
  rcases Reader.next_cases data i n with ⟨-, h⟩ | ⟨-, -, p, hn, hlies, h⟩ | ⟨hfit, hshort, -⟩
  · exact Or.inl h
  · rw [hcount] at h
    exact Or.inr ⟨p, hn, hlies, h⟩
  · omega

/-- **What lies at the reader's place** is read next. -/
theorem Reader.next_startAt {data p : Bytes} {i n : ℕ} (h : LiesAt data i p) (hn : p.length = n)
    (hd : i + n < 2 ^ 32) :
    ((Reader.startAt i).next data n).run = .ok (some (p, Reader.startAt (i + n))) := by
  have hle := liesAt_length h
  have hidx : u32 (i + n) = i + n := u32_of_lt (by omega)
  have hr : readAt data i n = .ok p := readAt_iff.2 ⟨hn, h⟩
  unfold Reader.next Reader.startAt
  simp only [hidx]
  rw [if_neg (by omega), hr]
  rfl

end Wire
