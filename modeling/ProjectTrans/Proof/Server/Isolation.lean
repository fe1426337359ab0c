import ProjectTrans.Model.Server.BusinessRuntime
import ProjectTrans.Model.Protocol.ClientMessageCodec
import ProjectTrans.Proof.Network.Intake

/-!
# Responses and the connections they are written to

A request carries the id of the connection it was read from (`Labelled`), a response that of
its request, and frames are queued for a connection, popped and written by this id
(`Addressed`). No two connections have one id, whatever their descriptors. So what is
written to a connection are responses to its own requests (`isolated`).
-/

namespace ProjectTrans

open Wire

namespace EventLoop

/-- Requests carry the id of the connection they come from. -/
structure Labelled (s : EventLoop) : Prop where
  requests : ∀ received ∈ s.requests, received.frame.connectId.toNat = received.origin
  toServer : ∀ received ∈ s.mailBox.toServerFrameQueue, received ∈ s.requests
  undelivered : ∀ k, ∀ frame ∈ s.handler.undelivered k, frame.connectId.toNat = k

/-- Frames for a connection carry its id, and were pushed. -/
structure Addressed (s : EventLoop) : Prop where
  queued : ∀ connectId queue, s.mailBox.toClientQueues.lookup connectId = some queue →
    ∀ frame ∈ queue, frame.connectId = connectId ∧ frame ∈ s.pushed
  inHand : ∀ fd context, s.connectContexts.lookup fd = some context →
    ∀ frame ∈ s.handler.inHand fd, frame.connectId = context.connectId ∧ frame ∈ s.pushed
  handed : ∀ sent ∈ s.handed, sent.2.connectId.toNat = sent.1 ∧ sent.2 ∈ s.pushed

theorem Labelled.init : init.Labelled where
  requests := fun _ h => absurd h List.not_mem_nil
  toServer := fun _ h => absurd h List.not_mem_nil
  undelivered := fun _ _ h => absurd h List.not_mem_nil

theorem Addressed.init : init.Addressed where
  queued := fun _ _ h => absurd h (by simp [EventLoop.init])
  inHand := fun _ _ h => absurd h (by simp [EventLoop.init])
  handed := fun _ h => absurd h List.not_mem_nil

variable {s s' : EventLoop} {action : LoopAction} {serverFd eventFd : ℕ} {host : Endian}

/-! ## Requests -/

theorem readFrames_connectId {context context' : ConnectContext} {frames : List PosixFrame}
    (h : context.readFrames host = .ok (frames, context')) :
    ∀ frame ∈ frames, frame.connectId = context.connectId := by
  obtain ⟨popped, -, h⟩ := Checked.bind_eq_ok.1 h
  obtain ⟨rfl, -⟩ := Prod.mk.inj (Except.ok.inj h)
  intro frame hframe
  obtain ⟨data, -, rfl⟩ := List.mem_map.1 hframe
  rfl

theorem removeConnect_toServer (s : EventLoop) (fd : ℕ) :
    (s.removeConnect fd).mailBox.toServerFrameQueue = s.mailBox.toServerFrameQueue := by
  unfold removeConnect
  split <;> rfl

theorem Labelled.still (h : s.Labelled) (hs : s.Still s') : s'.Labelled where
  requests := by
    rw [hs.requests]
    exact h.requests
  toServer := by
    rw [hs.requests]
    exact fun received hreceived => h.toServer received (hs.toServer received hreceived)
  undelivered := by
    intro k
    rw [hs.undelivered]
    exact h.undelivered k

/-- **Requests stay labelled** over every step. -/
theorem Labelled.intake (h : s.Labelled) (hconnected : s.Connected)
    (hintake : s.Intake serverFd eventFd host action s') : s'.Labelled := by
  cases hintake with
  | still hs => exact h.still hs
  | add hhandler => exact ⟨h.requests, h.toServer, h.undelivered⟩
  | @remove t fd handler hs hbefore hafter hremoving =>
    have ht := h.still hs
    refine ⟨?_, ?_, fun k frame hframe => ?_⟩
    · simpa only [removeConnect_requests] using ht.requests
    · simpa only [removeConnect_requests, removeConnect_toServer] using ht.toServer
    · rw [hafter] at hframe
      exact absurd hframe List.not_mem_nil
  | arrive hk => exact ⟨h.requests, h.toServer, h.undelivered⟩
  | chunk hcontext => exact ⟨h.requests, h.toServer, h.undelivered⟩
  | @finish fd _ context _ frames haction hhandler hcontext hframes =>
    refine ⟨h.requests, h.toServer, fun k frame hframe => ?_⟩
    simp only [Handler.undelivered] at hframe
    split at hframe
    · rename_i hk
      rw [readFrames_connectId hframes frame hframe, ← hk]
      exact hconnected.ids fd context hcontext
    · exact absurd hframe List.not_mem_nil
  | @deliver origin fd frame frames isWritable mailBox hhandler hpush =>
    -- what is handed over was read from the same socket
    have hundelivered : ∀ frame' ∈ frame :: frames, frame'.connectId.toNat = origin := by
      have hk := h.undelivered origin
      rwa [hhandler, Handler.undelivered, if_pos rfl] at hk
    have hqueue : mailBox.toServerFrameQueue = s.mailBox.toServerFrameQueue ++ [⟨origin, frame⟩] := by
      unfold ReactorMailBox.pushToServerFrame at hpush
      split at hpush
      · rw [← Option.some.inj hpush]
      · exact absurd hpush (by simp)
    refine ⟨fun received hreceived => ?_, fun received hreceived => ?_, fun k frame' hframe' => ?_⟩
    · rcases List.mem_append.1 hreceived with hold | hnew
      · exact h.requests received hold
      · rw [List.mem_singleton.1 hnew]
        exact hundelivered frame List.mem_cons_self
    · rw [hqueue] at hreceived
      exact List.mem_append.2 ((List.mem_append.1 hreceived).imp_left (h.toServer received))
    · simp only [Handler.undelivered] at hframe'
      split at hframe'
      · rename_i hk
        rw [← hk]
        exact hundelivered frame' (List.mem_cons_of_mem _ hframe')
      · exact absurd hframe' List.not_mem_nil

/-- Requests are only added. -/
theorem Intake.requests_subset (h : s.Intake serverFd eventFd host action s') :
    ∀ received ∈ s.requests, received ∈ s'.requests := by
  intro received hreceived
  cases h with
  | still hs =>
    rw [hs.requests]
    exact hreceived
  | remove hs hbefore hafter hremoving =>
    simp only [removeConnect_requests]
    rw [hs.requests]
    exact hreceived
  | deliver hhandler hpush => exact List.mem_append_left _ hreceived
  | _ => exact hreceived

/-! ## Responses -/

theorem Addressed.same (h : s.Addressed) (hs : s.Same s') : s'.Addressed where
  queued := by
    rw [hs.queues, hs.pushed]
    exact h.queued
  inHand := by
    intro fd context' hcontext'
    obtain ⟨context, hcontext, hout⟩ := hs.lookup hcontext'
    have hmem : fd ∈ s.connectContexts := AList.lookup_isSome.1 (by rw [hcontext]; rfl)
    rw [hs.hand fd hmem, hs.pushed, ← (Prod.mk.inj (identity_of_out hout)).1]
    exact h.inHand fd context hcontext
  handed := by
    rw [hs.handed, hs.pushed]
    exact h.handed

theorem Addressed.remove (h : s.Addressed) {fd : ℕ} {handler : Handler} (hhand : ∀ fd, handler.inHand fd = []) :
    { s.removeConnect fd with handler := handler }.Addressed where
  queued := by
    intro connectId queue hqueue
    simp only [removeConnect_pushed]
    exact h.queued connectId queue (removeConnect_queue hqueue)
  inHand := by
    intro fd' context hcontext frame hframe
    rw [hhand] at hframe
    exact absurd hframe List.not_mem_nil
  handed := by
    simpa only [removeConnect_handed, removeConnect_pushed] using h.handed

/-- What is written of the frames in hand is written to their connection. -/
theorem Addressed.handOver (h : s.Addressed) (hconnected : s.Connected) {fd : ℕ} {frames : List PosixFrame}
    {visits : Option (List ℕ)} {context : ConnectContext} (hhandler : s.handler = .flushing fd frames visits)
    (hcontext : s.connectContexts.lookup fd = some context) (hasWrite : ℕ) :
    (s.handOver context frames hasWrite).Addressed where
  queued := h.queued
  inHand := h.inHand
  handed := by
    intro sent hsent
    rcases List.mem_append.1 hsent with hold | hnew
    · exact h.handed sent hold
    · obtain ⟨frame, hframe, rfl⟩ := List.mem_map.1 hnew
      have hhand := h.inHand fd context hcontext frame (by rwa [hhandler, Handler.inHand, if_pos rfl])
      exact ⟨by rw [hhand.1, hconnected.ids fd context hcontext], hhand.2⟩

/-- **Frames stay addressed** over every change. -/
theorem Addressed.change (h : s.Addressed) (hconnected : s.Connected) (hchange : s.Change action s') :
    s'.Addressed := by
  cases hchange with
  | same hs => exact h.same hs
  | @add fd freshHeader haction hhandler hfd =>
    refine ⟨fun connectId queue hqueue => ?_, fun fd' context hcontext frame hframe => ?_, h.handed⟩
    · simp only [addConnect, ReactorMailBox.addToClientQueue] at hqueue
      rcases Table.lookup_insert_eq_some.1 hqueue with ⟨rfl, rfl⟩ | ⟨-, hold⟩
      · exact fun _ hframe => absurd hframe List.not_mem_nil
      · exact h.queued connectId queue hold
    · have hnone : s.handler.inHand fd' = [] := by rw [hhandler]; rfl
      have hframe' : frame ∈ s.handler.inHand fd' := hframe
      rw [hnone] at hframe'
      exact absurd hframe' List.not_mem_nil
  | remove hs hhand hhand' hcomes => exact (h.same hs).remove hhand'
  | @pop fd frames visits context frame queue hhandler hcontext hqueue =>
    -- a frame goes from the queue of its connection into the hand
    have hfirst := h.queued context.connectId _ hqueue
    refine ⟨fun connectId queue' hqueue' => ?_, fun fd' context' hcontext' frame' hframe' => ?_, h.handed⟩
    · rcases Table.lookup_insert_eq_some.1 hqueue' with ⟨rfl, rfl⟩ | ⟨-, hold⟩
      · exact fun frame' hframe' => hfirst frame' (List.mem_cons_of_mem _ hframe')
      · exact h.queued connectId queue' hold
    · have hold := h.inHand fd' context' hcontext' frame'
      rw [hhandler] at hold
      simp only [Handler.inHand] at hframe' hold
      split at hframe'
      · rename_i hfd
        subst hfd
        rcases List.mem_append.1 hframe' with hframe' | hframe'
        · exact hold (by rwa [if_pos rfl])
        · obtain rfl : context = context' := Option.some.inj (hcontext.symm.trans hcontext')
          rw [List.mem_singleton.1 hframe']
          exact hfirst frame List.mem_cons_self
      · exact absurd hframe' List.not_mem_nil
  | @flush fd frames visits context context' results hasWrite status haction hhandler hcontext hwrite hstatus =>
    -- from the hand to the socket of the same context
    have hover := h.handOver hconnected hhandler hcontext hasWrite
    refine ⟨h.queued, fun fd' context' hcontext' frame hframe => ?_, hover.handed⟩
    rw [inHand_afterWrite] at hframe
    exact absurd hframe List.not_mem_nil
  | flushFailed haction hhandler hcontext hwrite =>
    exact (h.handOver hconnected hhandler hcontext _).remove fun fd => inHand_afterWrite fd _
  | @push frame queue haction hqueue =>
    -- a frame that is pushed goes to the queue of its own id
    refine ⟨fun connectId queue' hqueue' => ?_, fun fd context hcontext frame' hframe' => ?_,
      fun sent hsent => ?_⟩
    · rcases Table.lookup_insert_eq_some.1 hqueue' with ⟨rfl, rfl⟩ | ⟨-, hqueue'⟩
      · intro frame' hframe'
        rcases List.mem_append.1 hframe' with hold | hnew
        · exact (h.queued frame.connectId queue hqueue frame' hold).imp_right (List.mem_append_left _)
        · rw [List.mem_singleton.1 hnew]
          exact ⟨rfl, List.mem_append_right _ (List.mem_singleton.2 rfl)⟩
      · exact fun frame' hframe' => (h.queued connectId queue' hqueue' frame' hframe').imp_right
          (List.mem_append_left _)
    · exact (h.inHand fd context hcontext frame' hframe').imp_right (List.mem_append_left _)
    · exact (h.handed sent hsent).imp_right (List.mem_append_left _)

/-- Only `push` pushes. -/
theorem Change.pushed (h : s.Change action s') : s'.pushed = s.pushed ∨ ∃ frame, action = .push frame ∧
    s'.pushed = s.pushed ++ [frame] := by
  cases h with
  | same hs => exact .inl hs.pushed
  | remove hs hhand hhand' hcomes => exact .inl ((removeConnect_pushed _ _).trans hs.pushed)
  | flushFailed haction hhandler hcontext hwrite => exact .inl (removeConnect_pushed _ _)
  | @push frame queue haction hqueue => exact .inr ⟨frame, haction, rfl⟩
  | _ => exact .inl rfl

end EventLoop

namespace BusinessRuntime

variable {host : Endian} {files : FileService} {requestId : Int64} {connectId : UInt64} {frame : PosixFrame}

theorem frame_connectId {build : Checked Bytes}
    (h : (do let data ← build; return (⟨connectId, data⟩ : PosixFrame)) = .ok frame) :
    frame.connectId = connectId := by
  obtain ⟨data, -, hdata⟩ := Checked.bind_eq_ok.1 h
  rw [← Except.ok.inj hdata]

theorem handleDownloadRequest_connectId {downloadRequest : DownloadRequestTransfer}
    (h : handleDownloadRequest host files downloadRequest requestId connectId = .ok frame) :
    frame.connectId = connectId := by
  unfold handleDownloadRequest at h
  split at h <;> exact frame_connectId h

theorem handleBlockRequest_connectId {blockRequest : BlockRequestTransfer}
    (h : handleBlockRequest host files blockRequest requestId connectId = .ok frame) :
    frame.connectId = connectId := by
  unfold handleBlockRequest at h
  split at h
  · exact frame_connectId h
  · obtain ⟨buffer, -, h⟩ := Checked.bind_eq_ok.1 h
    split at h <;> exact frame_connectId h

/-- A request that is answered was parsed. -/
theorem handled_of_parsed {α : Type} {parsed : Checked (Option α)} {handle : α → Checked PosixFrame}
    {next : Option α → Checked (Option PosixFrame)} (h : (parsed >>= next) = .ok (some frame))
    (hnone : next none = .ok none)
    (hsome : ∀ request, next (some request) = (do return some (← handle request))) :
    ∃ request, handle request = .ok frame := by
  obtain ⟨request, -, h⟩ := Checked.bind_eq_ok.1 h
  cases request with
  | none =>
    rw [hnone] at h
    exact absurd (Except.ok.inj h) (by simp)
  | some request =>
    rw [hsome] at h
    obtain ⟨made, hmade, heq⟩ := Checked.bind_eq_ok.1 h
    exact ⟨request, by rw [hmade, Option.some.inj (Except.ok.inj heq)]⟩

/-- **A response carries the id** of its request. -/
theorem handleRequest_connectId {text : SerializeField → Bytes} {fresh : EnvelopeRequestTransfer}
    {frameData : Bytes}
    (h : handleRequest host files text fresh frameData connectId = .ok (some frame)) :
    frame.connectId = connectId := by
  unfold handleRequest at h
  obtain ⟨request, -, h⟩ := Checked.bind_eq_ok.1 h
  cases request with
  | none => exact absurd (Except.ok.inj h) (by simp)
  | some request =>
    dsimp only at h
    split at h
    · obtain ⟨downloadRequest, hhandled⟩ := handled_of_parsed h rfl fun _ => rfl
      exact handleDownloadRequest_connectId hhandled
    · obtain ⟨testRequest, hhandled⟩ := handled_of_parsed h rfl fun _ => rfl
      exact frame_connectId hhandled
    · obtain ⟨blockRequest, hhandled⟩ := handled_of_parsed h rfl fun _ => rfl
      exact handleBlockRequest_connectId hhandled
    · exact absurd (Except.ok.inj h) (by simp)

end BusinessRuntime

/-! ## The server -/

/-- Whether a step may register a connection. -/
def ServerAction.isAccept : ServerAction → Bool
  | loop action => action.isAccept
  | _ => false

namespace Server

variable (serverFd eventFd : ℕ) (host : Endian) (text : SerializeField → Bytes)

/-- Connections get only the responses to their own requests. -/
structure Isolated (s : Server) : Prop where
  /-- What is written to a connection is a response to a request of it. -/
  written : ∀ sent ∈ s.loop.handed, sent ∈ s.responses
  answers : ∀ response ∈ s.responses, ∃ received ∈ s.loop.requests, received.origin = response.1 ∧
    ∃ files fresh, BusinessRuntime.handleRequest host files text fresh received.frame.data
    received.frame.connectId =
      .ok (some response.2)
  /-- The response to a request of a connection that is closed goes nowhere. -/
  dropped : ∀ received ∈ s.serving,
    (∀ fd context, s.loop.connectContexts.lookup fd = some context → context.socket ≠ received.origin) →
      ∀ files fresh, (s.step serverFd eventFd host text (.handleRequest received files fresh)).loop = s.loop
  /-- Live connections have different ids, and there are queues for them and no others. -/
  ids : ∀ fd fd' context context', s.loop.connectContexts.lookup fd = some context →
    s.loop.connectContexts.lookup fd' = some context' → context.connectId = context'.connectId → fd = fd'
  queues : ∀ connectId, connectId ∈ s.loop.mailBox.toClientQueues ↔
    ∃ fd context, s.loop.connectContexts.lookup fd = some context ∧ context.connectId = connectId

/-- Requests and responses are known by the sockets they belong to. -/
structure Inv (s : Server) : Prop where
  connected : s.loop.Connected
  labelled : s.loop.Labelled
  addressed : s.loop.Addressed
  serving : ∀ received ∈ s.serving, received ∈ s.loop.requests
  pushed : ∀ frame ∈ s.loop.pushed, (frame.connectId.toNat, frame) ∈ s.responses
  answers : ∀ response ∈ s.responses, ∃ received ∈ s.loop.requests, received.origin = response.1 ∧
    ∃ files fresh, BusinessRuntime.handleRequest host files text fresh received.frame.data
    received.frame.connectId =
      .ok (some response.2)

theorem Inv.init : init.Inv host text where
  connected := .init
  labelled := .init
  addressed := .init
  serving := fun _ h => absurd h List.not_mem_nil
  pushed := fun _ h => absurd h List.not_mem_nil
  answers := fun _ h => absurd h List.not_mem_nil

variable {host text} {s : Server}

/-- A step of the loop keeps what belongs to whom. -/
theorem Inv.loop (h : s.Inv host text) (action : LoopAction)
    (hfew : (s.loop.step serverFd eventFd host action).accepted < 2 ^ 64)
    (hpushed : ∀ frame, action ≠ .push frame) :
    { s with loop := s.loop.step serverFd eventFd host action }.Inv host text := by
  have hchange := s.loop.step_change serverFd eventFd host action
  have hintake := EventLoop.step_intake serverFd eventFd host (s := s.loop) action
  refine ⟨h.connected.change hchange hfew, h.labelled.intake h.connected hintake,
    h.addressed.change h.connected hchange, fun received hreceived => hintake.requests_subset received
    (h.serving received hreceived), ?_, ?_⟩
  · rcases hchange.pushed with heq | ⟨frame, haction, -⟩
    · rw [heq]
      exact h.pushed
    · exact absurd haction (hpushed frame)
  · intro response hresponse
    obtain ⟨received, hreceived, hanswer⟩ := h.answers response hresponse
    exact ⟨received, hintake.requests_subset received hreceived, hanswer⟩

/-- A response is pushed. -/
theorem Inv.respond (h : s.Inv host text) {received : Received} (hserving : received ∈ s.serving)
    {files : FileService} {fresh : EnvelopeRequestTransfer} {frame : PosixFrame}
    (hhandled : BusinessRuntime.handleRequest host files text fresh received.frame.data received.frame.connectId =
      .ok (some frame))
    (hfew : (s.loop.step serverFd eventFd host (.push frame)).accepted < 2 ^ 64) :
    Inv host text
      { loop := s.loop.step serverFd eventFd host (.push frame)
        serving := s.serving.erase received
        responses := s.responses ++ [(received.origin, frame)] } := by
  have hchange := s.loop.step_change serverFd eventFd host (.push frame)
  have hintake := EventLoop.step_intake serverFd eventFd host (s := s.loop) (.push frame)
  have hrequest := h.serving received hserving
  refine ⟨h.connected.change hchange hfew, h.labelled.intake h.connected hintake,
    h.addressed.change h.connected hchange, fun received' hreceived' => ?_, ?_, ?_⟩
  · exact hintake.requests_subset received' (h.serving received' (List.mem_of_mem_erase hreceived'))
  · intro frame' hframe'
    -- the step pushes this frame, or none
    have hold : frame' ∈ s.loop.pushed ∨ frame' = frame := by
      rcases hchange.pushed with heq | ⟨pushed, haction, heq⟩
      · rw [heq] at hframe'
        exact .inl hframe'
      · rw [heq] at hframe'
        obtain rfl := LoopAction.push.inj haction
        exact (List.mem_append.1 hframe').imp_right List.mem_singleton.1
    rcases hold with hold | rfl
    · exact List.mem_append_left _ (h.pushed frame' hold)
    · -- the id of the response is the request's, and that is the number of its socket
      refine List.mem_append_right _ (List.mem_singleton.2 ?_)
      rw [BusinessRuntime.handleRequest_connectId hhandled, h.labelled.requests received hrequest]
  · intro response hresponse
    rcases List.mem_append.1 hresponse with hold | hnew
    · obtain ⟨received', hreceived', hanswer⟩ := h.answers response hold
      exact ⟨received', hintake.requests_subset received' hreceived', hanswer⟩
    · rw [List.mem_singleton.1 hnew]
      exact ⟨received, hintake.requests_subset received hrequest, rfl, files, fresh, hhandled⟩

/-- **Every step keeps** what belongs to whom. -/
theorem Inv.step (h : s.Inv host text) (action : ServerAction)
    (hfew : (s.step serverFd eventFd host text action).loop.accepted < 2 ^ 64) :
    (s.step serverFd eventFd host text action).Inv host text := by
  cases action with
  | loop action =>
    cases action with
    | take => exact h
    | push frame => exact h
    | wait batch => exact h.loop serverFd eventFd _ hfew fun _ heq => by cases heq
    | io input => exact h.loop serverFd eventFd _ hfew fun _ heq => by cases heq
    | arrive socket data => exact h.loop serverFd eventFd _ hfew fun _ heq => by cases heq
    | shutdown socket => exact h.loop serverFd eventFd _ hfew fun _ heq => by cases heq
    | signal => exact h.loop serverFd eventFd _ hfew fun _ heq => by cases heq
  | take =>
    simp only [Server.step] at hfew ⊢
    split
    · exact h
    · rename_i received mailBox hpop
      -- the request is one that the reactor received
      have htaken : received ∈ s.loop.mailBox.toServerFrameQueue := by
        unfold ReactorMailBox.popFromToServerFrame at hpop
        split at hpop
        · exact absurd hpop (by simp)
        · rename_i first queue hqueue
          rw [hqueue, ← (Prod.mk.inj (Option.some.inj hpop)).1]
          exact List.mem_cons_self
      rw [hpop] at hfew
      have hloop := h.loop serverFd eventFd .take hfew fun _ heq => by cases heq
      refine ⟨hloop.connected, hloop.labelled, hloop.addressed, fun received' hreceived' => ?_, hloop.pushed,
        hloop.answers⟩
      rcases List.mem_append.1 hreceived' with hold | hnew
      · exact hloop.serving received' hold
      · rw [List.mem_singleton.1 hnew]
        have hintake := EventLoop.step_intake serverFd eventFd host (s := s.loop) .take
        exact hintake.requests_subset received (h.labelled.toServer received htaken)
  | handleRequest received files fresh =>
    simp only [Server.step] at hfew ⊢
    split
    · rename_i hserving
      rw [if_pos hserving] at hfew
      split
      · exact h
      · refine ⟨h.connected, h.labelled, h.addressed, fun received' hreceived' => ?_, h.pushed, h.answers⟩
        exact h.serving received' (List.mem_of_mem_erase hreceived')
      · rename_i frame hhandled
        rw [hhandled] at hfew
        -- the answer carries the id of its request
        exact h.respond serverFd eventFd hserving hhandled hfew
    · exact h

/-- Only `accept` registers connections. -/
theorem step_accepted (s : Server) (action : ServerAction) :
    (s.step serverFd eventFd host text action).loop.accepted ≤ s.loop.accepted +
      if action.isAccept then 1 else 0 := by
  have hloop : ∀ action : LoopAction, (s.loop.step serverFd eventFd host action).accepted ≤
      s.loop.accepted + if action.isAccept then 1 else 0 := fun action => EventLoop.step_accepted s.loop action
  have hsame : s.loop.accepted ≤ s.loop.accepted + if action.isAccept then 1 else 0 := Nat.le_add_right _ _
  cases action with
  | loop action =>
    cases action with
    | take => exact hsame
    | push frame => exact hsame
    | wait batch => exact hloop _
    | io input => exact hloop _
    | arrive socket data => exact hloop _
    | shutdown socket => exact hloop _
    | signal => exact hloop _
  | take =>
    simp only [Server.step]
    split
    · exact hsame
    · exact hloop .take
  | handleRequest received files fresh =>
    simp only [Server.step]
    split
    · split
      · exact hsame
      · exact hsame
      · rename_i frame hhandled
        exact hloop (.push frame)
    · exact hsame

/-- What the invariant says about responses. -/
theorem Inv.spec (h : s.Inv host text) : s.Isolated serverFd eventFd host text where
  written := by
    intro sent hsent
    obtain ⟨hid, hpushed⟩ := h.addressed.handed sent hsent
    have hresponse := h.pushed sent.2 hpushed
    rwa [hid] at hresponse
  answers := h.answers
  dropped := by
    intro received hserving hclosed files fresh
    simp only [Server.step, if_pos hserving]
    split
    · rfl
    · rfl
    · rename_i frame hhandled
      -- there is no queue for the id of the request, which was that of its socket
      have hnone : s.loop.mailBox.toClientQueues.lookup frame.connectId = none := by
        rw [AList.lookup_eq_none, h.connected.queues]
        rintro ⟨fd, context, hcontext, hid⟩
        refine hclosed fd context hcontext ?_
        rw [← h.connected.ids fd context hcontext, hid, BusinessRuntime.handleRequest_connectId hhandled]
        exact h.labelled.requests received (h.serving received hserving)
      simp only [EventLoop.step, ReactorMailBox.pushToClientFrame, hnone, Option.map_none]
  ids := fun _ _ _ _ hcontext hcontext' hid => h.connected.fd_eq hcontext hcontext' hid
  queues := h.connected.queues

/-- **Responses go to the connections that asked**, in every state of every run with fewer
than `2 ^ 64` connections. -/
theorem isolated {actions : List ServerAction} (hfew : actions.countP ServerAction.isAccept < 2 ^ 64) :
    (actions.foldl (Server.step serverFd eventFd host text) Server.init).Isolated serverFd eventFd host text := by
  have hbudget : Run.Meets
      (fun (s : Server) (action : ServerAction) =>
        s.loop.accepted + (if action.isAccept then 1 else 0) ≤ 2 ^ 64 - 1)
      (Server.step serverFd eventFd host text) Server.init actions := by
    refine Run.Meets.of_countP (step_accepted serverFd eventFd) ?_
    show 0 + _ ≤ _
    omega
  refine (hbudget.invariant (Inv host text) (fun s action h hok => h.step serverFd eventFd action ?_)
    (.init host text)).spec serverFd eventFd
  refine lt_of_le_of_lt (step_accepted serverFd eventFd s action) ?_
  omega

/-- A test request. -/
def helloRequest : Bytes :=
  (ClientMessageCodec.buildTestRequestByteArray .little ⟨ascii "hello"⟩ 7).toOption.getD []

/-- A connection is closed while its request is served, and another is accepted on the same
descriptor before the answer arrives. -/
def reusedDescriptor : List ServerAction :=
  [.loop (.wait [(3, { epollIn := true })]), .loop (.io .go), .loop (.io (.accept 5 true ⟨0, 0, 0, .none, 0, 0⟩)),
    .loop (.io .noConnection), .loop (.arrive 0 helloRequest), .loop (.wait [(5, { epollIn := true })]),
    .loop (.io .go), .loop (.io (.read (.bytes 1000))), .loop (.io (.read .again)), .loop (.io .go),
    .loop (.io .go), .take, .loop (.wait [(5, { epollRdHup := true }), (3, { epollIn := true })]),
    .loop (.io .go), .loop (.io .go), .loop (.io (.accept 5 true ⟨0, 0, 0, .none, 0, 0⟩)),
    .loop (.io .noConnection),
    .handleRequest ⟨0, ⟨0, helloRequest⟩⟩ ⟨fun _ => none, fun _ => none⟩ ⟨0, 0, 0, [], .json, []⟩]

theorem isolated_reusedDescriptor :
    (reusedDescriptor.foldl (Server.step 3 4 .little fun _ => []) Server.init).Isolated 3 4 .little fun _ => [] :=
  isolated 3 4 (by decide)

end Server

end ProjectTrans
