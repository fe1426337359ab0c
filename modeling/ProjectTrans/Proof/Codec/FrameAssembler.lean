import ProjectTrans.Lib.Framing
import ProjectTrans.Model.Codec.FrameAssembler

/-!
# The assembler refines the stream reader

`pending` is what of the received stream has not been handed on: the header taken out
already, if there is one, and the buffer. `popFrame_refines`: a pop is the abstract
reader's pop on the pending bytes; so `run_refines` carries its results over, and
`frames_delivered` states them.
-/

namespace ProjectTrans

open Wire Framing

namespace FrameAssembler

variable (host : Endian)

/-- The frames of the protocol: the body length stands in the header at index 5. -/
def format : Format UInt8 where
  headerSize := headerSize
  bodyLength := fun header => beVal ((header.drop 5).take 4)

/-- The bytes received and not handed on. -/
def pending (a : FrameAssembler) : Bytes :=
  (if a.isGotHeader then a.currentHeader.wire else []) ++ a.buffer

/-- The current frame holds the current header, or is to be filled from the front. -/
structure Inv (a : FrameAssembler) : Prop where
  header : a.isGotHeader = true →
    a.currentFrameIndex = headerSize ∧ a.currentHeader.wire <+: a.currentFrame
  fresh : a.isGotHeader = false → a.currentFrameIndex = 0

theorem bodyLength_wire (h : SerializeHeader) : format.bodyLength h.wire = h.messageLength.toNat := by
  have hlies : LiesAt h.wire 5 (beBytes 4 h.messageLength.toNat) :=
    (SerializeHeader.liesAt_wire.1 ⟨[], [], by simp, rfl⟩).2.2.1
  have hread := readAt_iff.2 ⟨Endian.encode_length .big 4 _, hlies⟩
  rw [readAt_ok (by simp)] at hread
  have hlt : h.messageLength.toNat < 256 ^ 4 := h.messageLength.toNat_lt
  simp only [format, Except.ok.inj hread, beVal_beBytes hlt]

/-- Copying up to a limit both vectors reach. -/
theorem copyUpTo_eq {dst src : Bytes} {i limit j : ℕ} (hi : i ≤ limit) (hs : j + (limit - i) ≤ src.length)
    (hd : limit ≤ dst.length) :
    copyUpTo dst i limit src j = .ok (dst.take i ++ (src.drop j).take (limit - i) ++ dst.drop limit) := by
  unfold copyUpTo
  rcases Nat.lt_or_ge i limit with hlt | hge
  · have hlen : ((src.drop j).take (limit - i)).length = limit - i := by simp; omega
    rw [if_pos hlt, readAt_ok hs, Checked.ok_bind, writeAt, if_pos (by omega), hlen]
    congr 3
    omega
  · have : i = limit := by omega
    subst this
    simp

/-- Sixteen bytes are the wire bytes of the header read from them. -/
theorem header_of_length {data : Bytes} (h : data.length = headerSize) :
    ∃ header : SerializeHeader, data = header.wire ∧
      SerializeHeader.fromSerializedByteArray host data = .ok (some header) := by
  rcases SerializeHeader.fromSerializedByteArray_total host data with ⟨hshort, -⟩ | ⟨-, header, hread⟩
  · rw [h, headerSize] at hshort
    omega
  · obtain ⟨pre, post, hd, hpre⟩ := SerializeHeader.fromSerializedByteArray_iff.1 hread
    have hlen := congrArg List.length hd
    rw [h, List.length_append, List.length_append, hpre, SerializeHeader.wire_length, headerSize] at hlen
    rw [List.eq_nil_of_length_eq_zero hpre, List.eq_nil_of_length_eq_zero (l := post) (by omega)] at hd
    exact ⟨header, by simpa using hd, hread⟩

/-- With sixteen bytes pending there is a current header, and nothing is lost over it. -/
theorem takeHeader_spec {a : FrameAssembler} (h : Inv a) :
    (a.pending.length < headerSize ∧ a.takeHeader host = .ok (false, a)) ∨
      ∃ a', headerSize ≤ a.pending.length ∧ a.takeHeader host = .ok (true, a') ∧ Inv a' ∧
        a'.isGotHeader = true ∧ a'.pending = a.pending := by
  unfold takeHeader
  by_cases hgot : a.isGotHeader = true
  · right
    -- the header was taken before, and is counted as pending
    refine ⟨a, ?_, by rw [if_pos hgot]; rfl, h, hgot, rfl⟩
    rw [pending, if_pos hgot, List.length_append, SerializeHeader.wire_length, headerSize]
    omega
  · have hpending : a.pending = a.buffer := by rw [pending, if_neg hgot, List.nil_append]
    have hindex : a.currentFrameIndex = 0 := h.fresh (by simpa using hgot)
    rw [if_neg hgot, hpending]
    by_cases hshort : a.buffer.length < headerSize
    · left
      exact ⟨hshort, by rw [if_pos hshort]; rfl⟩
    · right
      have htake : (a.buffer.take headerSize).length = headerSize := by simp; omega
      obtain ⟨header, hwire, hread⟩ := header_of_length host htake
      have hgrow := growTo_length a.currentFrame headerSize
      have hcopy : copyUpTo (growTo a.currentFrame headerSize) 0 headerSize (a.buffer.take headerSize) 0 = _ :=
        copyUpTo_eq (Nat.zero_le _) (by omega) (by omega)
      rw [if_neg hshort]
      simp only [popData, hindex]
      rw [hcopy, Checked.ok_bind, hread, Checked.ok_bind]
      refine ⟨_, by omega, rfl, ⟨fun _ => ⟨by simp, ?_⟩, fun hc => by cases hc⟩, rfl, ?_⟩
      · refine ⟨(growTo a.currentFrame headerSize).drop headerSize, ?_⟩
        simp only [List.take_zero, List.nil_append, List.drop_zero, Nat.sub_zero, ← hwire]
        rw [List.take_of_length_le htake.le]
      · rw [pending, if_pos rfl]
        simp only [← hwire, List.take_append_drop]

/-- The frame is complete once its body is in the buffer. -/
theorem takeBody_spec {a : FrameAssembler} (h : Inv a) (hgot : a.isGotHeader = true)
    (hsmall : a.currentHeader.messageLength.toNat ≤ a.buffer.length →
      headerSize + a.currentHeader.messageLength.toNat < 2 ^ 32) :
    (a.buffer.length < a.currentHeader.messageLength.toNat ∧ a.takeBody = .ok (none, a)) ∨
      (a.currentHeader.messageLength.toNat ≤ a.buffer.length ∧
        let frame := a.currentHeader.wire ++ a.buffer.take a.currentHeader.messageLength.toNat
        a.takeBody = .ok (some frame, ⟨a.buffer.drop a.currentHeader.messageLength.toNat, frame, 0,
          a.currentHeader, false⟩)) := by
  obtain ⟨hindex, frest, hframe⟩ := h.header hgot
  unfold takeBody
  set n := a.currentHeader.messageLength.toNat with hn
  rcases Nat.lt_or_ge a.buffer.length n with hshort | hbody
  · left
    exact ⟨hshort, by rw [if_pos hshort]; rfl⟩
  · right
    refine ⟨hbody, ?_⟩
    have hwire : a.currentHeader.wire.length = headerSize := SerializeHeader.wire_length _
    have hgrow := growTo_length a.currentFrame (headerSize + n)
    -- growing keeps the header in front
    have htake : (growTo a.currentFrame (headerSize + n)).take headerSize = a.currentHeader.wire := by
      obtain ⟨z, hz⟩ := growTo_eq a.currentFrame (headerSize + n)
      rw [hz, ← hframe, List.append_assoc, List.take_left' hwire]
    have hcopy : copyUpTo (growTo a.currentFrame (headerSize + n)) headerSize (headerSize + n)
        (a.buffer.take n) 0 = _ := copyUpTo_eq (by omega) (by simp; omega) (by omega)
    have hlen : (a.currentHeader.wire ++ a.buffer.take n).length = headerSize + n := by
      rw [List.length_append, hwire, List.length_take]; omega
    rw [htake, List.drop_zero, Nat.add_sub_cancel_left, List.take_take, min_self] at hcopy
    rw [if_neg (by omega)]
    simp only [popData, hindex, ← hn, u32_of_lt (hsmall hbody)]
    rw [hcopy, Checked.ok_bind, resize_of_le (by rw [List.length_append, hlen]; omega), List.take_left' hlen]
    rfl

/-- **A pop is the stream reader's pop** on the pending bytes. -/
theorem popFrame_refines {a : FrameAssembler} (h : Inv a)
    (hsmall : ∀ f rest, next format a.pending = some (f, rest) → f.length < 2 ^ 32) :
    match next format a.pending with
    | none => ∃ a', a.popFrame host = .ok (none, a') ∧ Inv a' ∧ a'.pending = a.pending
    | some (f, rest) => ∃ a', a.popFrame host = .ok (some f, a') ∧ Inv a' ∧ a'.pending = rest := by
  have hsize : format.headerSize = headerSize := rfl
  unfold popFrame
  rcases takeHeader_spec host h with ⟨hshort, htaken⟩ | ⟨a', hlong, htaken, h', hgot, hpending⟩
  · -- not even a header is there
    have hnext : next format a.pending = none := by
      rw [next, if_neg (by omega)]
    rw [hnext, htaken]
    exact ⟨a, rfl, h, rfl⟩
  · have hpend : a.pending = a'.currentHeader.wire ++ a'.buffer := by rw [← hpending, pending, if_pos hgot]
    have hwire : a'.currentHeader.wire.length = headerSize := SerializeHeader.wire_length _
    set n := a'.currentHeader.messageLength.toNat with hn
    have hnext : next format a.pending =
        if n ≤ a'.buffer.length then some (a'.currentHeader.wire ++ a'.buffer.take n,
          a'.buffer.drop n) else none := by
      rw [next, hsize, hpend, List.take_left' hwire, bodyLength_wire, ← hn, List.length_append, hwire]
      refine if_congr (by omega) ?_ rfl
      rw [List.splitAt_eq, ← hwire, List.take_length_add_append, List.drop_length_add_append]
    -- the size that is added up in 32 bits does not wrap
    have hsmall' : n ≤ a'.buffer.length → headerSize + n < 2 ^ 32 := by
      intro hbody
      have hlen := hsmall _ _ (hnext.trans (if_pos hbody))
      rw [List.length_append, hwire, List.length_take] at hlen
      omega
    rw [htaken, Checked.ok_bind, hnext]
    simp only [if_true]
    rcases takeBody_spec h' hgot hsmall' with ⟨hshort, htaken'⟩ | ⟨hbody, htaken'⟩
    · rw [if_neg (by omega), htaken']
      exact ⟨a', rfl, h', hpending⟩
    · rw [if_pos (by omega), htaken']
      exact ⟨_, rfl, ⟨fun hc => (by cases hc), fun _ => rfl⟩, rfl⟩

/-! ## Runs -/

/-- One call on the assembler, and the frame it hands on, if any. -/
def step (host : Endian) (a : FrameAssembler) : Op UInt8 → Checked (FrameAssembler × List Bytes)
  | .push data => .ok (a.pushData data, [])
  | .pop => do
    let (frame, a) ← a.popFrame host
    return (a, frame.toList)

/-- A sequence of calls, and all frames they hand on. -/
def run (host : Endian) (a : FrameAssembler) : List (Op UInt8) → Checked (FrameAssembler × List Bytes)
  | [] => .ok (a, [])
  | op :: ops => do
    let (a, frames) ← step host a op
    let (a, rest) ← run host a ops
    return (a, frames ++ rest)

/-- A frame as the sender builds it: the body length is in the header, and the whole is
shorter than `2^32`. -/
def WireFrame (f : Bytes) : Prop :=
  f.length < 2 ^ 32 ∧
    ∃ (header : SerializeHeader) (body : Bytes), f = header.wire ++ body ∧
      header.messageLength.toNat = body.length

theorem WireFrame.isFrame {f : Bytes} (h : WireFrame f) : IsFrame format f := by
  obtain ⟨-, header, body, rfl, hbody⟩ := h
  have hwire : header.wire.length = format.headerSize := SerializeHeader.wire_length _
  refine ⟨by rw [List.length_append]; omega, ?_⟩
  rw [List.take_left' hwire, bodyLength_wire, hbody, List.length_append, hwire]

/-- What stands at the front of a stream of such frames is shorter than `2^32`. -/
theorem small_of_stream {buf rest : Bytes} {todo : List Bytes} {tail missing : Bytes}
    (htodo : ∀ f ∈ todo, WireFrame f) (htail : WireFrame (tail ++ missing)) (hmissing : missing ≠ [])
    (h : buf ++ rest = todo.flatten ++ tail) {f more : Bytes} (hnext : next format buf = some (f, more)) :
    f.length < 2 ^ 32 := by
  rcases next_stream (fun f hf => (htodo f hf).isFrame) ⟨missing, hmissing, htail.isFrame⟩ h with
    ⟨g, todo', buf', rfl, hnext', -⟩ | ⟨hnone, -⟩
  · rw [hnext, Option.some.injEq, Prod.mk.injEq] at hnext'
    rw [hnext'.1]
    exact (htodo g List.mem_cons_self).1
  · rw [hnext] at hnone
    exact absurd hnone (by simp)

/-- **The assembler runs as the stream reader does** on a stream of frames. -/
theorem run_refines {tail missing : Bytes} (htail : WireFrame (tail ++ missing)) (hmissing : missing ≠ [])
    (ops : List (Op UInt8)) : ∀ {a : FrameAssembler} {rest : Bytes} {todo : List Bytes}, Inv a →
    (∀ f ∈ todo, WireFrame f) → a.pending ++ pushed ops ++ rest = todo.flatten ++ tail →
    ∃ a', run host a ops = .ok (a', (Framing.run format a.pending ops).2) ∧ Inv a' ∧
      a'.pending = (Framing.run format a.pending ops).1 := by
  induction ops with
  | nil => intro a rest todo h _ _; exact ⟨a, rfl, h, rfl⟩
  | cons op ops ih =>
    intro a rest todo h htodo hstream
    cases op with
    | push data =>
      have hpend : (a.pushData data).pending = a.pending ++ data := (List.append_assoc _ _ _).symm
      have h' : Inv (a.pushData data) := ⟨h.header, h.fresh⟩
      obtain ⟨a', hrun, ha', hp⟩ := ih h' htodo
        (show (a.pushData data).pending ++ pushed ops ++ rest = _ by rw [hpend, ← hstream]; simp [pushed])
      rw [hpend] at hrun hp
      exact ⟨a', by simp [run, step, hrun, Framing.run, Framing.step], ha', hp⟩
    | pop =>
      rw [pushed, List.append_assoc] at hstream
      -- what is in the stream are wire frames, so none is too long
      have hpop := popFrame_refines host h fun _ _ => small_of_stream htodo htail hmissing hstream
      rcases next_stream (fun f hf => (htodo f hf).isFrame) ⟨missing, hmissing, htail.isFrame⟩ hstream with
        ⟨f, todo', buf', rfl, hnext, hrest⟩ | ⟨hnext, -⟩
      · rw [hnext] at hpop
        obtain ⟨a1, hpopped, h1, hp1⟩ := hpop
        obtain ⟨a', hrun, ha', hp⟩ := ih h1 (fun g hg => htodo g (List.mem_cons_of_mem _ hg))
          (by rw [hp1, List.append_assoc]; exact hrest)
        rw [hp1] at hrun hp
        exact ⟨a', by simp [run, step, hpopped, hrun, Framing.run, Framing.step, hnext], ha',
          by simpa [Framing.run, Framing.step, hnext] using hp⟩
      · rw [hnext] at hpop
        obtain ⟨a1, hpopped, h1, hp1⟩ := hpop
        obtain ⟨a', hrun, ha', hp⟩ := ih h1 htodo (by rw [hp1, List.append_assoc]; exact hstream)
        rw [hp1] at hrun hp
        exact ⟨a', by simp [run, step, hpopped, hrun, Framing.run, Framing.step, hnext], ha',
          by simpa [Framing.run, Framing.step, hnext] using hp⟩

/-- **Frames come out whole and in order**, however the stream is cut into chunks and
whenever frames are popped. Once all of it is pushed every pop hands on the next frame, and
the frame that was cut short comes out when the rest of it is pushed. -/
theorem frames_delivered (fresh : SerializeHeader) {fs : List Bytes} (hfs : ∀ f ∈ fs, WireFrame f)
    {part missing : Bytes} (hpart : WireFrame (part ++ missing)) (hmissing : missing ≠ [])
    (ops : List (Op UInt8)) (hops : pushed ops <+: fs.flatten ++ part) :
    ∃ a out, run host (new fresh) ops = .ok (a, out) ∧ out <+: fs ∧
      (pushed ops = fs.flatten ++ part → ∀ n,
        ∃ a', run host a (List.replicate n .pop) = .ok (a', (fs.drop out.length).take n) ∧
          (fs.length ≤ out.length + n →
            ∃ a'', run host a' [.push missing, .pop] = .ok (a'', [part ++ missing]))) := by
  have hframes : ∀ f ∈ fs, IsFrame format f := fun f hf => (hfs f hf).isFrame
  have htail : Partial format part := ⟨missing, hmissing, hpart.isFrame⟩
  have hnew : Inv (new fresh) := ⟨fun h => (by cases h), fun _ => rfl⟩
  have hpending : (new fresh).pending = [] := rfl
  obtain ⟨rest, hrest⟩ := hops
  obtain ⟨a, hrun, ha, hp⟩ := run_refines host hpart hmissing ops hnew hfs
    (show (new fresh).pending ++ pushed ops ++ rest = _ from hrest)
  obtain ⟨todo, htodo, hbuf⟩ := run_stream ops hframes htail (show [] ++ pushed ops ++ rest = _ from hrest)
  rw [hpending] at hrun hp
  refine ⟨a, _, hrun, ⟨todo, htodo.symm⟩, fun hall n => ?_⟩
  -- Everything is pushed: what is left pending is the rest of the frames and the part.
  have hrest : rest = [] := by
    rw [hall] at hrest
    exact List.append_cancel_left (hrest.trans (List.append_nil _).symm)
  rw [hrest, List.append_nil, ← hp] at hbuf
  have hdrop : fs.drop (Framing.run format [] ops).2.length = todo := by
    rw [htodo, List.drop_left]
  have htodo' : ∀ f ∈ todo, WireFrame f := fun f hf => hfs f (by rw [htodo]; exact List.mem_append_right _ hf)
  obtain ⟨a', hrun', ha', hp'⟩ := run_refines host hpart hmissing (List.replicate n .pop) ha htodo'
    (show a.pending ++ pushed (List.replicate n (Op.pop : Op UInt8)) ++ [] = _ by simpa using hbuf)
  rw [hbuf, run_drain htail n fun f hf => (htodo' f hf).isFrame] at hrun' hp'
  rw [hdrop]
  refine ⟨a', hrun', fun hn => ?_⟩
  have hlen := congrArg List.length htodo
  rw [List.length_append] at hlen
  rw [List.drop_of_length_le (by omega), List.flatten_nil, List.nil_append] at hp'
  -- The part and what is missing of it are the one frame of the rest of the stream.
  obtain ⟨a'', hrun'', -, -⟩ := run_refines host (show WireFrame ([] ++ (part ++ missing)) from hpart)
    (by simp [hmissing]) [.push missing, .pop] ha'
    (show ∀ f ∈ [part ++ missing], WireFrame f by simpa using hpart)
    (show a'.pending ++ pushed [.push missing, .pop] ++ [] = [part ++ missing].flatten ++ [] by
      rw [hp']; simp [pushed])
  rw [hp', run_complete hpart.isFrame] at hrun''
  exact ⟨a'', hrun''⟩

/-- A frame with a body of two bytes. -/
def smallFrame : Bytes := SerializeHeader.wire ⟨0x66666666, 1, 2, .none, 0, 0⟩ ++ [7, 8]

theorem smallFrame_wireFrame : WireFrame smallFrame :=
  ⟨by decide, ⟨0x66666666, 1, 2, .none, 0, 0⟩, [7, 8], rfl, by decide⟩

theorem frames_delivered_small :
    ∃ a out, run .little (new ⟨0, 0, 0, .none, 0, 0⟩)
        [.push (smallFrame.take 3), .pop, .push (smallFrame.drop 3 ++ smallFrame.take 5), .pop] = .ok (a, out) ∧
      out <+: [smallFrame] := by
  obtain ⟨a, out, hrun, hout, -⟩ := frames_delivered .little ⟨0, 0, 0, .none, 0, 0⟩
    (show ∀ f ∈ [smallFrame], WireFrame f by simpa using smallFrame_wireFrame)
    (show WireFrame (smallFrame.take 5 ++ smallFrame.drop 5) from smallFrame_wireFrame) (by decide)
    [.push (smallFrame.take 3), .pop, .push (smallFrame.drop 3 ++ smallFrame.take 5), .pop] (by decide)
  exact ⟨a, out, hrun, hout⟩

end FrameAssembler

end ProjectTrans
