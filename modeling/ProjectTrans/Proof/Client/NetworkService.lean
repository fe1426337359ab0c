import ProjectTrans.Lib.Run
import ProjectTrans.Lib.Table
import ProjectTrans.Model.Client.NetworkService
import ProjectTrans.Proof.Network.Intake

/-!
# The streams of the client's connections (`client/source/service/network_service`)

There is one connection for each endpoint that anything was written to. Whatever the
sockets take and in whatever pieces bytes arrive, what is written goes out in order and
without a gap, and the frames handed on are the complete frames of what has arrived
(`streams_kept`).
-/

namespace ProjectTrans

open Wire Framing

open FrameAssembler (format)

/-! ## One context -/

namespace ClientConnectContext

variable {c c' : ClientConnectContext} (host : Endian)

/-- What is not taken waits. -/
theorem writeData_spec (c : ClientConnectContext) (data : Bytes) (result : SocketWrite) :
    (c.writeData data result).2 ++ (c.writeData data result).1.writeBuffer = c.writeBuffer ++ data ∧
      (c.writeData data result).1.frameAssembler = c.frameAssembler := by
  cases result with
  | unusable => exact ⟨rfl, rfl⟩
  | returns writtenSize =>
    simp only [writeData]
    split
    · exact ⟨rfl, rfl⟩
    · exact ⟨List.take_append_drop _ _, rfl⟩

/-- The loop of `on_socket_read` takes all complete frames off. -/
theorem popFrames_all {a : FrameAssembler} (h : a.Inv)
    (hsmall : ∀ f ∈ frames format a.pending, f.length < 2 ^ 32) :
    ∃ a', ConnectContext.popFrames host (a.buffer.length + 2) a = .ok (frames format a.pending, a') ∧ a'.Inv ∧
      (frames format a.pending).flatten ++ a'.pending = a.pending := by
  obtain ⟨a', hread, hinv, hflatten⟩ := ConnectContext.readFrames_refines (c := ⟨0, 0, a, []⟩) host h hsmall
  obtain ⟨⟨popped, a₁⟩, hpopped, hmade⟩ := Checked.bind_eq_ok.1 hread
  obtain ⟨hmap, hcontext⟩ := Prod.mk.inj (Except.ok.inj hmade)
  have hinj : Function.Injective (PosixFrame.mk 0) := fun x y hxy => (PosixFrame.mk.inj hxy).2
  have hframes : popped = frames format a.pending := List.map_injective_iff.2 hinj hmap
  have hassembler : a₁ = a' := congrArg ConnectContext.frameAssembler hcontext
  rw [hframes, hassembler] at hpopped
  exact ⟨a', hpopped, hinv, hflatten⟩

/-- **What has arrived is handed on frame by frame**, and what is short of one is kept. -/
theorem onSocketRead_spec (h : c.frameAssembler.Inv) {data : Bytes}
    (hsmall : ∀ f ∈ frames format (c.frameAssembler.pending ++ data), f.length < 2 ^ 32) :
    ∃ a', c.onSocketRead host data =
        .ok (frames format (c.frameAssembler.pending ++ data), { c with frameAssembler := a' }) ∧ a'.Inv ∧
      (frames format (c.frameAssembler.pending ++ data)).flatten ++ a'.pending =
          c.frameAssembler.pending ++ data := by
  have hpending : (c.frameAssembler.pushData data).pending = c.frameAssembler.pending ++ data :=
    (List.append_assoc _ _ _).symm
  have hpushed : (c.frameAssembler.pushData data).Inv := ⟨h.header, h.fresh⟩
  rw [← hpending] at hsmall ⊢
  obtain ⟨a', hpopped, hinv, hflatten⟩ := popFrames_all host hpushed hsmall
  refine ⟨a', ?_, hinv, hflatten⟩
  rw [onSocketRead]
  dsimp only
  rw [hpopped]
  rfl

end ClientConnectContext

/-! ## All connections -/

namespace ClientNetwork

/-- What was to be written to an endpoint. -/
def requestedFor (s : ClientNetwork) (endpoint : NetworkEndpoint) : List Bytes :=
  (s.requested.filter fun write => write.1 = endpoint).map Prod.snd

/-- The frames that came from an endpoint. -/
def framesOf (s : ClientNetwork) (endpoint : NetworkEndpoint) : List Bytes :=
  (s.ready.filter fun frame => frame.1 = endpoint).map Prod.snd

/-- The frames that are read are shorter than `2 ^ 32`. -/
def readsSmall (s : ClientNetwork) : NetworkCall → Bool
  | .onSocketRead endpoint data =>
    match s.service.connectMap.lookup endpoint with
    | some (context :: _) =>
      (frames format (context.frameAssembler.pending ++ data)).all fun f => f.length < 2 ^ 32
    | _ => true
  | _ => true

/-- What a connection has written and read, and what it keeps. -/
structure Carries (s : ClientNetwork) (endpoint : NetworkEndpoint) (context : ClientConnectContext) : Prop where
  written : s.taken endpoint ++ context.writeBuffer = (s.requestedFor endpoint).flatten
  assembler : context.frameAssembler.Inv
  isFrame : ∀ f ∈ s.framesOf endpoint, IsFrame format f
  read : (s.framesOf endpoint).flatten ++ context.frameAssembler.pending = s.received endpoint
  done : next format context.frameAssembler.pending = none

/-- One connection for each endpoint that anything was written to. -/
structure Streams (s : ClientNetwork) : Prop where
  one : ∀ endpoint contexts, s.service.connectMap.lookup endpoint = some contexts →
    ∃ context, contexts = [context] ∧ s.Carries endpoint context
  fresh : ∀ endpoint, s.service.connectMap.lookup endpoint = none →
    s.requestedFor endpoint = [] ∧ s.taken endpoint = [] ∧ s.received endpoint = [] ∧ s.framesOf endpoint = []

theorem Streams.init : Streams {} where
  one := fun _ _ h => absurd h (by simp)
  fresh := fun _ _ => ⟨rfl, rfl, rfl, rfl⟩

variable {s s' : ClientNetwork} {host : Endian}

/-- What a step does to one endpoint, another endpoint does not see. -/
theorem Streams.of_endpoint (h : s.Streams) {endpoint : NetworkEndpoint} {context : ClientConnectContext}
    (hmap : s'.service.connectMap = s.service.connectMap.insert endpoint [context])
    (hcarries : s'.Carries endpoint context)
    (hother : ∀ e, e ≠ endpoint → s'.requestedFor e = s.requestedFor e ∧ s'.taken e = s.taken e ∧
      s'.received e = s.received e ∧ s'.framesOf e = s.framesOf e) : s'.Streams where
  one := by
    intro e contexts hcontexts
    rw [hmap] at hcontexts
    rcases Table.lookup_insert_eq_some.1 hcontexts with ⟨rfl, rfl⟩ | ⟨hne, hold⟩
    · exact ⟨context, rfl, hcarries⟩
    · -- another endpoint has what it had
      obtain ⟨hrequested, htaken, hreceived, hframes⟩ := hother e hne
      obtain ⟨context', rfl, hcarries'⟩ := h.one e contexts hold
      refine ⟨context', rfl, ?_, hcarries'.assembler, ?_, ?_, hcarries'.done⟩
      · rw [hrequested, htaken]
        exact hcarries'.written
      · rw [hframes]
        exact hcarries'.isFrame
      · rw [hframes, hreceived]
        exact hcarries'.read
  fresh := by
    intro e hnone
    rw [hmap] at hnone
    by_cases he : e = endpoint
    · rw [he, AList.lookup_insert] at hnone
      exact absurd hnone (by simp)
    · rw [AList.lookup_insert_ne he] at hnone
      obtain ⟨hrequested, htaken, hreceived, hframes⟩ := hother e he
      rw [hrequested, htaken, hreceived, hframes]
      exact h.fresh e hnone

theorem requestedFor_append (s : ClientNetwork) (endpoint e : NetworkEndpoint) (data : Bytes) :
    ((s.requested ++ [(endpoint, data)]).filter fun write => write.1 = e).map Prod.snd =
      s.requestedFor e ++ if endpoint = e then [data] else [] := by
  rw [List.filter_append, List.map_append, requestedFor]
  by_cases he : endpoint = e
  · simp [he]
  · simp [he]

theorem framesOf_append (s : ClientNetwork) (endpoint e : NetworkEndpoint) (frames : List Bytes) :
    ((s.ready ++ frames.map fun frame => (endpoint, frame)).filter fun frame => frame.1 = e).map Prod.snd =
      s.framesOf e ++ if endpoint = e then frames else [] := by
  rw [List.filter_append, List.map_append, framesOf, List.filter_map, List.map_map]
  by_cases he : endpoint = e
  · simp [he, Function.comp_def]
  · simp [he, Function.comp_def]

/-- Bytes that are to be written. -/
theorem Streams.writeRawData (h : s.Streams) (endpoint : NetworkEndpoint) (data : Bytes) (result : SocketWrite)
    (freshHeader : SerializeHeader) :
    (step host s (.onWriteRawData endpoint data result freshHeader)).Streams := by
  have hother : ∀ made : NetworkService × Bytes, ∀ e, e ≠ endpoint →
      requestedFor { s.write endpoint made with requested := s.requested ++ [(endpoint, data)] } e =
        s.requestedFor e ∧
        (s.write endpoint made).taken e = s.taken e ∧ s.received e = s.received e ∧
          s.framesOf e = s.framesOf e := by
    intro made e he
    refine ⟨?_, Function.update_of_ne he _ _, rfl, rfl⟩
    refine (requestedFor_append s endpoint e data).trans ?_
    rw [if_neg (Ne.symm he), List.append_nil]
  simp only [step, NetworkService.onWriteRawData]
  split
  · rename_i hnone
    -- the first bytes wait for the socket to open
    obtain ⟨hrequested, htaken, hreceived, hframes⟩ := h.fresh endpoint hnone
    refine h.of_endpoint rfl ⟨?_, ?_, ?_, ?_, rfl⟩ (hother _)
    · show Function.update s.taken endpoint _ endpoint ++ ([] ++ data) =
        (((s.requested ++ [(endpoint, data)]).filter _).map Prod.snd).flatten
      rw [requestedFor_append, hrequested, Function.update_self, htaken, if_pos rfl]
      simp
    · exact ⟨fun hgot => (by cases hgot), fun _ => rfl⟩
    · show ∀ f ∈ s.framesOf endpoint, _
      rw [hframes]
      exact fun _ hf => absurd hf List.not_mem_nil
    · show (s.framesOf endpoint).flatten ++ [] = s.received endpoint
      rw [hframes, hreceived]
      rfl
  · rename_i hnil
    obtain ⟨context, heq, -⟩ := h.one endpoint [] hnil
    exact absurd heq (by simp)
  · rename_i context contexts hcontext
    obtain ⟨_, heq, hcarries⟩ := h.one endpoint _ hcontext
    obtain ⟨rfl, rfl⟩ := List.cons.inj heq
    obtain ⟨hwritten, hassembler⟩ := context.writeData_spec data result
    refine h.of_endpoint rfl ⟨?_, ?_, hcarries.isFrame, ?_, ?_⟩ (hother _)
    · show Function.update s.taken endpoint _ endpoint ++ (context.writeData data result).1.writeBuffer =
        (((s.requested ++ [(endpoint, data)]).filter _).map Prod.snd).flatten
      rw [requestedFor_append, Function.update_self, if_pos rfl, List.flatten_append, List.append_assoc, hwritten,
        ← List.append_assoc, hcarries.written]
      simp
    · rw [hassembler]
      exact hcarries.assembler
    · rw [hassembler]
      exact hcarries.read
    · rw [hassembler]
      exact hcarries.done

/-- A socket that can be written again. -/
theorem Streams.socketWrite (h : s.Streams) (endpoint : NetworkEndpoint) (result : SocketWrite) :
    (step host s (.onSocketWrite endpoint result)).Streams := by
  simp only [step]
  split
  · rename_i context contexts hcontext
    obtain ⟨_, heq, hcarries⟩ := h.one endpoint _ hcontext
    obtain ⟨rfl, rfl⟩ := List.cons.inj heq
    obtain ⟨hwritten, hassembler⟩ := context.writeData_spec [] result
    rw [List.append_nil] at hwritten
    refine h.of_endpoint rfl ⟨?_, ?_, hcarries.isFrame, ?_, ?_⟩ fun e he =>
      ⟨rfl, Function.update_of_ne he _ _, rfl, rfl⟩
    · show Function.update s.taken endpoint _ endpoint ++ (context.writeData [] result).1.writeBuffer =
        (s.requestedFor endpoint).flatten
      rw [Function.update_self, List.append_assoc]
      refine Eq.trans ?_ hcarries.written
      exact congrArg _ hwritten
    · exact hassembler ▸ hcarries.assembler
    · exact hassembler ▸ hcarries.read
    · exact hassembler ▸ hcarries.done
  · exact h

/-- Bytes that arrive. -/
theorem Streams.socketRead (h : s.Streams) (endpoint : NetworkEndpoint) (data : Bytes)
    (hsmall : s.readsSmall (.onSocketRead endpoint data) = true) :
    (step host s (.onSocketRead endpoint data)).Streams := by
  simp only [step]
  split
  · rename_i context contexts hcontext
    obtain ⟨_, heq, hcarries⟩ := h.one endpoint _ hcontext
    obtain ⟨rfl, rfl⟩ := List.cons.inj heq
    simp only [readsSmall, hcontext, List.all_eq_true, decide_eq_true_eq] at hsmall
    obtain ⟨a', hread, hinv, hflatten⟩ := context.onSocketRead_spec host hcarries.assembler hsmall
    rw [hread]
    refine h.of_endpoint rfl ⟨hcarries.written, hinv, ?_, ?_, ?_⟩ fun e he =>
      ⟨rfl, rfl, Function.update_of_ne he _ _, ?_⟩
    · show ∀ f ∈ ((s.ready ++ _).filter _).map Prod.snd, _
      rw [framesOf_append, if_pos rfl]
      intro f hf
      rcases List.mem_append.1 hf with hold | hnew
      · exact hcarries.isFrame f hold
      · exact split_isFrame _ _ f hnew
    · show (((s.ready ++ _).filter _).map Prod.snd).flatten ++ a'.pending =
        Function.update s.received endpoint _ endpoint
      rw [framesOf_append, if_pos rfl, Function.update_self, List.flatten_append, List.append_assoc, hflatten,
        ← List.append_assoc, hcarries.read]
    · show next format a'.pending = none
      -- all complete frames have been taken out
      exact frames_rest (by decide) hflatten
    · refine (framesOf_append s endpoint e _).trans ?_
      rw [if_neg (Ne.symm he), List.append_nil]
  · exact h

/-- **Every step keeps** the streams. -/
theorem Streams.step (h : s.Streams) (call : NetworkCall) (hsmall : s.readsSmall call = true) :
    (step host s call).Streams := by
  cases call with
  | onWriteRawData endpoint data result freshHeader => exact h.writeRawData endpoint data result freshHeader
  | onSocketWrite endpoint result => exact h.socketWrite endpoint result
  | onSocketRead endpoint data => exact h.socketRead endpoint data hsmall

/-- What a call adds to what has gone through. -/
structure Extends (s : ClientNetwork) (call : NetworkCall) (s' : ClientNetwork) : Prop where
  taken : ∀ endpoint, s.taken endpoint <+: s'.taken endpoint
  ready : ∀ endpoint, ∀ frame ∈ s.framesOf endpoint, frame ∈ s'.framesOf endpoint
  requested : ∀ write ∈ s'.requested, write ∈ s.requested ∨
    ∃ result freshHeader, call = .onWriteRawData write.1 write.2 result freshHeader
  received : ∀ endpoint, s'.received endpoint = s.received endpoint ∨
    ∃ data, call = .onSocketRead endpoint data ∧ s'.received endpoint = s.received endpoint ++ data

theorem Extends.refl (s : ClientNetwork) (call : NetworkCall) : s.Extends call s where
  taken := fun _ => List.prefix_rfl
  ready := fun _ _ h => h
  requested := fun _ h => .inl h
  received := fun _ => .inl rfl

theorem write_taken_prefix (s : ClientNetwork) (endpoint e : NetworkEndpoint) (made : NetworkService × Bytes) :
    s.taken e <+: (s.write endpoint made).taken e := by
  show _ <+: Function.update s.taken endpoint _ e
  by_cases he : e = endpoint
  · rw [he, Function.update_self]
    exact List.prefix_append _ _
  · rw [Function.update_of_ne he]

/-- **Calls only add.** -/
theorem step_extends (host : Endian) (s : ClientNetwork) (call : NetworkCall) :
    s.Extends call (ClientNetwork.step host s call) := by
  cases call with
  | onWriteRawData endpoint data result freshHeader =>
    refine ⟨fun e => write_taken_prefix s endpoint e _, fun _ _ h => h, fun write hwrite => ?_, fun _ => .inl rfl⟩
    refine (List.mem_append.1 hwrite).imp_right fun hnew => ⟨result, freshHeader, ?_⟩
    rw [List.mem_singleton.1 hnew]
  | onSocketWrite endpoint result =>
    simp only [ClientNetwork.step]
    split
    · exact ⟨fun e => write_taken_prefix s endpoint e _, fun _ _ h => h, fun _ h => .inl h, fun _ => .inl rfl⟩
    · exact .refl s _
  | onSocketRead endpoint data =>
    simp only [ClientNetwork.step]
    split
    · split
      · exact .refl s _
      · rename_i frames context' hread
        refine ⟨fun _ => List.prefix_rfl, fun e frame hframe => ?_, fun _ h => .inl h, fun e => ?_⟩
        · refine (congrArg (frame ∈ ·) (framesOf_append s endpoint e frames)).mpr ?_
          exact List.mem_append_left _ hframe
        · by_cases he : e = endpoint
          · subst he
            exact .inr ⟨data, rfl, Function.update_self ..⟩
          · exact .inl (Function.update_of_ne he _ _)
    · exact .refl s _

/-- The frames of an endpoint are those of what has arrived from it. -/
theorem Streams.framesOf_eq (h : s.Streams) (endpoint : NetworkEndpoint) :
    s.framesOf endpoint = frames format (s.received endpoint) := by
  cases hcontexts : s.service.connectMap.lookup endpoint with
  | none =>
    obtain ⟨-, -, hreceived, hframes⟩ := h.fresh endpoint hcontexts
    rw [hreceived, hframes]
    rfl
  | some contexts =>
    obtain ⟨context, -, hcarries⟩ := h.one endpoint contexts hcontexts
    rw [← hcarries.read]
    exact (frames_eq (by decide) hcarries.done hcarries.isFrame).symm

/-- What was to be written is taken, or waits. -/
theorem Streams.taken_append (h : s.Streams) (endpoint : NetworkEndpoint) :
    (s.service.connectMap.lookup endpoint = none ∧ s.requestedFor endpoint = [] ∧ s.taken endpoint = []) ∨
      ∃ context, s.service.connectMap.lookup endpoint = some [context] ∧
        s.taken endpoint ++ context.writeBuffer = (s.requestedFor endpoint).flatten := by
  cases hcontexts : s.service.connectMap.lookup endpoint with
  | none =>
    obtain ⟨hrequested, htaken, -, -⟩ := h.fresh endpoint hcontexts
    exact .inl ⟨rfl, hrequested, htaken⟩
  | some contexts =>
    obtain ⟨context, rfl, hcarries⟩ := h.one endpoint contexts hcontexts
    exact .inr ⟨context, rfl, hcarries.written⟩

theorem Streams.taken_prefix (h : s.Streams) (endpoint : NetworkEndpoint) :
    s.taken endpoint <+: (s.requestedFor endpoint).flatten := by
  rcases h.taken_append endpoint with ⟨-, -, htaken⟩ | ⟨context, -, hwritten⟩
  · rw [htaken]
    exact List.nil_prefix
  · exact ⟨_, hwritten⟩

/-- **The streams are kept** in every run in which no frame has `2 ^ 32` bytes: of every
endpoint, the complete frames of what has arrived are handed on, in order, and what was to
be written is taken, in order, or waits in the one context of the endpoint. -/
theorem streams_kept {calls : List NetworkCall}
    (hsmall : Run.Meets (fun s call => s.readsSmall call = true) (step host) ({} : ClientNetwork) calls)
    (endpoint : NetworkEndpoint) :
    let s := calls.foldl (step host) ({} : ClientNetwork)
    s.framesOf endpoint = frames format (s.received endpoint) ∧
      ((s.service.connectMap.lookup endpoint = none ∧ s.requestedFor endpoint = [] ∧ s.taken endpoint = []) ∨
        ∃ context, s.service.connectMap.lookup endpoint = some [context] ∧
          s.taken endpoint ++ context.writeBuffer = (s.requestedFor endpoint).flatten) := by
  intro s
  have hstreams : s.Streams := hsmall.invariant Streams (fun _ call h hok => h.step call hok) .init
  exact ⟨hstreams.framesOf_eq endpoint, hstreams.taken_append endpoint⟩

/-- Bytes are written before the socket is open, it takes them in two pieces, a write fails
in between, and a frame arrives in two pieces. -/
def twoPieces : List NetworkCall :=
  [.onWriteRawData ⟨[], 80⟩ [1, 2, 3] .unusable ⟨0, 0, 0, .none, 0, 0⟩, .onSocketWrite ⟨[], 80⟩ (.returns 2),
    .onWriteRawData ⟨[], 80⟩ [4] (.returns (-1)) ⟨0, 0, 0, .none, 0, 0⟩, .onSocketWrite ⟨[], 80⟩ (.returns 1),
    .onSocketRead ⟨[], 80⟩ (FrameAssembler.smallFrame.take 9),
    .onSocketRead ⟨[], 80⟩ (FrameAssembler.smallFrame.drop 9)]

theorem streams_kept_twoPieces :
    let s := twoPieces.foldl (step .little) ({} : ClientNetwork)
    s.taken ⟨[], 80⟩ = [1, 2, 3] ∧ s.framesOf ⟨[], 80⟩ = [FrameAssembler.smallFrame] ∧
      s.framesOf ⟨[], 80⟩ = frames format (s.received ⟨[], 80⟩) ∧
      ((s.service.connectMap.lookup ⟨[], 80⟩ = none ∧ s.requestedFor ⟨[], 80⟩ = [] ∧ s.taken ⟨[], 80⟩ = []) ∨
        ∃ context, s.service.connectMap.lookup ⟨[], 80⟩ = some [context] ∧
          s.taken ⟨[], 80⟩ ++ context.writeBuffer = (s.requestedFor ⟨[], 80⟩).flatten) :=
  ⟨by decide +kernel, by decide +kernel, streams_kept (by decide +kernel) ⟨[], 80⟩⟩

end ClientNetwork

end ProjectTrans
