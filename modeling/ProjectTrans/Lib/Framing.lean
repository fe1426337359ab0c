import Mathlib.Tactic

/-!
# Streams of frames

A frame is a header of fixed size and a body whose length the header tells. A reader
holds the part of a stream it has not handed on yet; chunks are pushed and frames are
popped in any order. `run_stream`: whatever the chunks and the order, what is popped is
the stream's frames in order, and once the whole stream is pushed every pop hands on the
next one. `frames` are the complete frames of a stream, taken off it at once.
-/

namespace Framing

variable {α : Type*}

/-- A frame format. -/
structure Format (α : Type*) where
  headerSize : ℕ
  bodyLength : List α → ℕ

variable (F : Format α)

/-- A header, and as many bytes behind it as it tells. -/
def IsFrame (f : List α) : Prop :=
  F.headerSize ≤ f.length ∧ f.length = F.headerSize + F.bodyLength (f.take F.headerSize)

/-- What is there of a frame of which something is missing. -/
def Partial (p : List α) : Prop := ∃ missing, missing ≠ [] ∧ IsFrame F (p ++ missing)

/-- The first frame of a buffer and what follows it, once all of it is there. -/
def next (buf : List α) : Option (List α × List α) :=
  if F.headerSize + F.bodyLength (buf.take F.headerSize) ≤ buf.length then
    some (buf.splitAt (F.headerSize + F.bodyLength (buf.take F.headerSize)))
  else none

/-- What is done with a reader. -/
inductive Op (α : Type*)
  | push (chunk : List α)
  | pop

/-- One operation on the buffer, and the frames it hands on. -/
def step (buf : List α) : Op α → List α × List (List α)
  | .push chunk => (buf ++ chunk, [])
  | .pop =>
    match next F buf with
    | none => (buf, [])
    | some (f, rest) => (rest, [f])

/-- A run, and all frames it hands on. -/
def run (buf : List α) : List (Op α) → List α × List (List α)
  | [] => (buf, [])
  | op :: ops =>
    let s := step F buf op
    let r := run s.1 ops
    (r.1, s.2 ++ r.2)

/-- The bytes a list of operations pushes. -/
def pushed : List (Op α) → List α
  | [] => []
  | .push chunk :: ops => chunk ++ pushed ops
  | .pop :: ops => pushed ops

@[simp] theorem pushed_pops (n : ℕ) : pushed (List.replicate n (Op.pop : Op α)) = [] := by
  induction n with
  | zero => rfl
  | succ n ih => rw [List.replicate_succ, pushed, ih]

/-- At most so many frames off the front of a buffer, and the rest. -/
def split : ℕ → List α → List (List α) × List α
  | 0, buf => ([], buf)
  | n + 1, buf =>
    match next F buf with
    | none => ([], buf)
    | some (f, rest) =>
      let s := split n rest
      (f :: s.1, s.2)

/-- The complete frames of a stream. -/
def frames (buf : List α) : List (List α) := (split F buf.length buf).1

variable {F}

theorem IsFrame.next_append {f : List α} (h : IsFrame F f) (rest : List α) :
    next F (f ++ rest) = some (f, rest) := by
  obtain ⟨hle, hlen⟩ := h
  have htake : (f ++ rest).take F.headerSize = f.take F.headerSize := List.take_append_of_le_length hle
  unfold next
  rw [htake, ← hlen, if_pos (by simp), List.splitAt_eq, List.take_left, List.drop_left]

/-- What stands at the front of a buffer is a frame. -/
theorem next_eq_some {buf f rest : List α} (h : next F buf = some (f, rest)) : IsFrame F f ∧ f ++ rest = buf := by
  unfold next at h
  split at h
  · rename_i hle
    rw [List.splitAt_eq, Option.some.injEq, Prod.mk.injEq] at h
    obtain ⟨rfl, rfl⟩ := h
    have hhead : F.headerSize ≤ F.headerSize + F.bodyLength (buf.take F.headerSize) := Nat.le_add_right _ _
    refine ⟨⟨?_, ?_⟩, List.take_append_drop _ _⟩
    · rw [List.length_take]
      omega
    · rw [List.take_take, min_eq_left hhead, List.length_take]
      omega
  · exact absurd h (by simp)

/-- Something short of a frame has none at its front. -/
theorem IsFrame.next_short {buf missing : List α} (h : IsFrame F (buf ++ missing)) (hm : missing ≠ []) :
    next F buf = none := by
  obtain ⟨-, hlen⟩ := h
  have hpos := List.length_pos_of_ne_nil hm
  rw [List.length_append] at hlen
  unfold next
  rw [if_neg]
  intro hle
  rw [List.take_append_of_le_length (by omega)] at hlen
  omega

/-- A buffer that goes on as the stream does holds its first frame whole, or not yet. -/
theorem next_stream {buf rest : List α} {todo : List (List α)} {tail : List α}
    (hframes : ∀ f ∈ todo, IsFrame F f) (htail : Partial F tail) (h : buf ++ rest = todo.flatten ++ tail) :
    (∃ f todo' buf', todo = f :: todo' ∧ next F buf = some (f, buf') ∧
        buf' ++ rest = todo'.flatten ++ tail) ∨
      (next F buf = none ∧ (rest = [] → todo = [])) := by
  cases todo with
  | nil =>
    obtain ⟨missing, hm, hframe⟩ := htail
    right
    rw [List.flatten_nil, List.nil_append] at h
    rw [← h, List.append_assoc] at hframe
    -- only a part of a frame is left
    exact ⟨hframe.next_short (by simp [hm]), fun _ => rfl⟩
  | cons f todo =>
    have hf : IsFrame F f := hframes f List.mem_cons_self
    rw [List.flatten_cons, List.append_assoc] at h
    -- the buffer ends within the first frame, or has all of it
    rcases List.append_eq_append_iff.1 h with ⟨missing, rfl, hrest⟩ | ⟨buf', rfl, hrest⟩
    · by_cases hm : missing = []
      · subst hm
        rw [List.append_nil] at hf
        left
        refine ⟨buf, todo, [], by simp, ?_, by simpa using hrest⟩
        simpa using hf.next_append []
      · right
        refine ⟨hf.next_short hm, fun hnil => ?_⟩
        rw [hnil] at hrest
        simp [hm] at hrest
    · left
      exact ⟨f, todo, buf', rfl, hf.next_append buf', hrest.symm⟩

/-- **Frames come out in order** however the stream is cut into chunks and whenever frames
are popped; what has not come out is still there. -/
theorem run_stream (ops : List (Op α)) : ∀ {buf rest : List α} {todo : List (List α)} {tail : List α},
    (∀ f ∈ todo, IsFrame F f) → Partial F tail → buf ++ pushed ops ++ rest = todo.flatten ++ tail →
    ∃ todo', todo = (run F buf ops).2 ++ todo' ∧ (run F buf ops).1 ++ rest = todo'.flatten ++ tail := by
  induction ops with
  | nil =>
    intro buf rest todo tail _ _ h
    exact ⟨todo, rfl, by simpa [pushed, run] using h⟩
  | cons op ops ih =>
    intro buf rest todo tail hframes htail h
    cases op with
    | push chunk =>
      have h' : (buf ++ chunk) ++ pushed ops ++ rest = todo.flatten ++ tail := by
        simpa [pushed, List.append_assoc] using h
      exact ih hframes htail h'
    | pop =>
      rw [pushed, List.append_assoc] at h
      rcases next_stream hframes htail h with ⟨f, todo', buf', rfl, hnext, hrest⟩ | ⟨hnext, -⟩
      · rw [← List.append_assoc] at hrest
        obtain ⟨todo'', htodo, hbuf⟩ :=
          ih (fun g hg => hframes g (List.mem_cons_of_mem _ hg)) htail hrest
        refine ⟨todo'', ?_, ?_⟩
        · simp [run, step, hnext, ← htodo]
        · simpa [run, step, hnext] using hbuf
      · rw [← List.append_assoc] at h
        obtain ⟨todo', htodo, hbuf⟩ := ih hframes htail h
        refine ⟨todo', ?_, ?_⟩
        · simpa [run, step, hnext] using htodo
        · simpa [run, step, hnext] using hbuf

/-- **Once the stream is there** every pop hands on the next frame, and then nothing. -/
theorem run_drain {tail : List α} (htail : Partial F tail) (n : ℕ) : ∀ {todo : List (List α)},
    (∀ f ∈ todo, IsFrame F f) →
    run F (todo.flatten ++ tail) (List.replicate n .pop) = ((todo.drop n).flatten ++ tail, todo.take n) := by
  induction n with
  | zero => intro todo _; rfl
  | succ n ih =>
    intro todo hframes
    rw [List.replicate_succ]
    cases todo with
    | nil =>
      obtain ⟨missing, hm, hframe⟩ := htail
      have hnext : next F tail = none := hframe.next_short hm
      have hrest := @ih [] (by simp)
      simp only [List.flatten_nil, List.nil_append, List.drop_nil, List.take_nil] at hrest ⊢
      simp [run, step, hnext, hrest]
    | cons f todo =>
      have hnext := (hframes f List.mem_cons_self).next_append (todo.flatten ++ tail)
      have hrest := ih fun g hg => hframes g (List.mem_cons_of_mem _ hg)
      rw [List.flatten_cons, List.append_assoc]
      simp [run, step, hnext, hrest]

/-! ## A whole stream at once -/

theorem split_flatten (n : ℕ) : ∀ buf : List α, (split F n buf).1.flatten ++ (split F n buf).2 = buf := by
  induction n with
  | zero => intro buf; rfl
  | succ n ih =>
    intro buf
    unfold split
    split
    · rfl
    · rename_i f rest hnext
      rw [List.flatten_cons, List.append_assoc, ih]
      exact (next_eq_some hnext).2

theorem split_isFrame (n : ℕ) : ∀ buf : List α, ∀ f ∈ (split F n buf).1, IsFrame F f := by
  induction n with
  | zero => intro buf f hf; exact absurd hf List.not_mem_nil
  | succ n ih =>
    intro buf f hf
    unfold split at hf
    split at hf
    · exact absurd hf List.not_mem_nil
    · rename_i g rest hnext
      rcases List.mem_cons.1 hf with rfl | hf
      · exact (next_eq_some hnext).1
      · exact ih rest f hf

/-- No frame is left, if there are fewer frames in the buffer than may be taken. -/
theorem split_done (n : ℕ) : ∀ buf : List α, buf.length < n * F.headerSize → next F (split F n buf).2 = none := by
  induction n with
  | zero => intro buf h; omega
  | succ n ih =>
    intro buf h
    unfold split
    split
    · rename_i hnext
      exact hnext
    · rename_i f rest hnext
      obtain ⟨⟨hle, -⟩, hbuf⟩ := next_eq_some hnext
      have hlen := congrArg List.length hbuf
      rw [List.length_append] at hlen
      rw [Nat.succ_mul] at h
      exact ih rest (by omega)

/-- Frames and what is short of one split in one way only. -/
theorem split_eq {tail : List α} (htail : next F tail = none) {fs : List (List α)} :
    ∀ {n : ℕ}, (∀ f ∈ fs, IsFrame F f) → fs.length ≤ n → split F n (fs.flatten ++ tail) = (fs, tail) := by
  induction fs with
  | nil =>
    intro n _ _
    cases n with
    | zero => rfl
    | succ n => simp [split, htail]
  | cons f fs ih =>
    intro n hfs hn
    obtain ⟨n, rfl⟩ := Nat.exists_eq_succ_of_ne_zero (Nat.ne_of_gt (lt_of_lt_of_le (Nat.succ_pos _) hn))
    have hrest : split F n (fs.flatten ++ tail) = (fs, tail) :=
      ih (fun g hg => hfs g (List.mem_cons_of_mem _ hg)) (Nat.le_of_succ_le_succ hn)
    rw [List.flatten_cons, List.append_assoc, split, (hfs f List.mem_cons_self).next_append]
    simp only [hrest]

/-- **The frames of a stream** are those that were put into it, if nothing else is complete. -/
theorem frames_eq (hheader : 0 < F.headerSize) {tail : List α} (htail : next F tail = none) {fs : List (List α)}
    (hfs : ∀ f ∈ fs, IsFrame F f) : frames F (fs.flatten ++ tail) = fs := by
  have hcount : fs.length ≤ fs.flatten.length := by
    clear htail
    induction fs with
    | nil => exact le_rfl
    | cons f fs ih =>
      have hf := (hfs f List.mem_cons_self).1
      have hrest := ih fun g hg => hfs g (List.mem_cons_of_mem _ hg)
      rw [List.flatten_cons, List.length_append, List.length_cons]
      omega
  rw [frames, split_eq htail hfs (by rw [List.length_append]; omega)]

/-- The frames of a stream leave nothing complete behind. -/
theorem frames_done (hheader : 0 < F.headerSize) (n : ℕ) :
    ∀ buf : List α, buf.length ≤ n → next F (split F n buf).2 = none := by
  induction n with
  | zero =>
    intro buf h
    obtain rfl := List.length_eq_zero_iff.1 (Nat.le_zero.1 h)
    refine if_neg ?_
    show ¬F.headerSize + F.bodyLength _ ≤ 0
    omega
  | succ n ih =>
    intro buf h
    unfold split
    split
    · assumption
    · rename_i f rest hnext
      obtain ⟨⟨hle, -⟩, rfl⟩ := next_eq_some hnext
      rw [List.length_append] at h
      exact ih rest (by omega)

/-- **Frames in front of a stream** are its first frames. -/
theorem frames_append (hheader : 0 < F.headerSize) {fs : List (List α)} (hfs : ∀ f ∈ fs, IsFrame F f)
    (rest : List α) : frames F (fs.flatten ++ rest) = fs ++ frames F rest := by
  have hdone : next F (split F rest.length rest).2 = none := frames_done hheader rest.length rest le_rfl
  have hall : ∀ f ∈ fs ++ frames F rest, IsFrame F f := by
    intro f hf
    rcases List.mem_append.1 hf with hf | hf
    · exact hfs f hf
    · exact split_isFrame _ _ f hf
  have hrest : (frames F rest).flatten ++ (split F rest.length rest).2 = rest := split_flatten _ rest
  have heq := frames_eq hheader hdone hall
  rwa [List.flatten_append, List.append_assoc, hrest] at heq

/-- A stream of frames has these frames. -/
theorem frames_flatten (hheader : 0 < F.headerSize) {fs : List (List α)} (hfs : ∀ f ∈ fs, IsFrame F f) :
    frames F fs.flatten = fs := by
  have happend := frames_append hheader hfs []
  rw [List.append_nil] at happend
  exact happend.trans (List.append_nil fs)

/-- The first bytes of a stream have its first frames. -/
theorem frames_prefix (hheader : 0 < F.headerSize) {buf buf' : List α} (h : buf <+: buf') :
    frames F buf <+: frames F buf' := by
  obtain ⟨more, rfl⟩ := h
  have hsplit : (frames F buf).flatten ++ (split F buf.length buf).2 = buf := split_flatten _ buf
  have hlonger : buf ++ more = (frames F buf).flatten ++ ((split F buf.length buf).2 ++ more) := by
    rw [← List.append_assoc, hsplit]
  have hall : ∀ f ∈ frames F buf, IsFrame F f := split_isFrame _ _
  rw [hlonger, frames_append hheader hall]
  exact List.prefix_append _ _

/-- Behind the frames of a stream there is no other. -/
theorem frames_rest (hheader : 0 < F.headerSize) {buf rest : List α} (h : (frames F buf).flatten ++ rest = buf) :
    next F rest = none := by
  have hsplit : (frames F buf).flatten ++ (split F buf.length buf).2 = buf := split_flatten _ buf
  obtain rfl := List.append_cancel_left (h.trans hsplit.symm)
  exact frames_done hheader buf.length buf le_rfl

/-- The missing part of the last frame completes it. -/
theorem run_complete {tail missing : List α} (h : IsFrame F (tail ++ missing)) :
    run F tail [.push missing, .pop] = ([], [tail ++ missing]) := by
  have hnext := h.next_append []
  rw [List.append_nil] at hnext
  simp [run, step, hnext]

end Framing
