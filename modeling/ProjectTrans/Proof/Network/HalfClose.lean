import ProjectTrans.Proof.Network.Intake

/-!
# Requests of a peer that closes

The bytes a peer has sent are its requests in the queue, the frames the loop's thread is
about to put there, what is in the assembler, and what has not been read, in this order
(`Intact`). So when a connection is removed all complete frames are in the queue, if
none is left in the assembler and the socket (`requests_before_close`). `run` removes a
connection on `EPOLLRDHUP` before it looks at `EPOLLIN`, and then one may be left
(`lastRequest_lost`).
-/

namespace ProjectTrans

open Wire Framing

open FrameAssembler (format)

namespace EventLoop

/-- The requests of a socket that are in the queue, or have been. -/
def requestsOf (s : EventLoop) (k : ℕ) : List Bytes :=
  (s.requests.filter fun received => received.origin = k).map fun received => received.frame.data

/-- The frames that were read from a socket. -/
def taken (s : EventLoop) (k : ℕ) : List Bytes :=
  s.requestsOf k ++ (s.handler.undelivered k).map PosixFrame.data

/-- What was read and is not a frame yet, and what was not read. -/
def unserved (s : EventLoop) (context : ConnectContext) : Bytes :=
  context.frameAssembler.pending ++ (s.sockets context.socket).unread

/-- A connection that is removed has no complete frame left. -/
def closesDrained (serverFd eventFd : ℕ) (s : EventLoop) (action : LoopAction) : Bool :=
  (s.removing serverFd eventFd action).all fun fd =>
    (s.connectContexts.lookup fd).all fun context => (next format (s.unserved context)).isNone

/-- The frames that were read are shorter than `2^32`. -/
def readsSmall (s : EventLoop) : LoopAction → Bool
  | .io (.read _) =>
    match s.handler with
    | .reading fd _ =>
      (s.connectContexts.lookup fd).all fun context =>
        (frames format context.frameAssembler.pending).all fun f => f.length < 2 ^ 32
    | _ => true
  | _ => true

variable {s : EventLoop} {action : LoopAction} (serverFd eventFd : ℕ) (host : Endian)

/-! ## Nothing is lost -/

/-- The bytes of a peer are its requests, in the queue or about to be, and what is unserved. -/
structure Intact (s : EventLoop) : Prop where
  live : ∀ fd context, s.connectContexts.lookup fd = some context →
    context.frameAssembler.Inv ∧ (∀ f ∈ s.taken context.socket, IsFrame format f) ∧
      (s.taken context.socket).flatten ++ s.unserved context = (s.sockets context.socket).incoming
  /-- A connection that was removed had all its requests in the queue, and gets no more. -/
  removed : ∀ gone ∈ s.removed, s.requestsOf gone.1 = frames format gone.2 ∧ gone.1 < s.accepted ∧
    s.handler.undelivered gone.1 = [] ∧
      ∀ fd context, s.connectContexts.lookup fd = some context → context.socket ≠ gone.1
  fresh : ∀ k, s.accepted ≤ k → s.taken k = [] ∧ (s.sockets k).incoming = [] ∧ (s.sockets k).unread = []

theorem Intact.init : init.Intact where
  live := fun _ _ h => absurd h (by simp [EventLoop.init])
  removed := fun _ h => absurd h List.not_mem_nil
  fresh := fun _ _ => ⟨rfl, rfl, rfl⟩

theorem Still.taken {s' : EventLoop} (h : s.Still s') (k : ℕ) : s'.taken k = s.taken k := by
  rw [EventLoop.taken, EventLoop.taken, requestsOf, requestsOf, h.requests, h.undelivered]

theorem Still.lookup {s' : EventLoop} (h : s.Still s') {fd : ℕ} {context' : ConnectContext}
    (hcontext' : s'.connectContexts.lookup fd = some context') :
    ∃ context, s.connectContexts.lookup fd = some context ∧ context.socket = context'.socket ∧
      context.frameAssembler = context'.frameAssembler ∧ s.unserved context = s'.unserved context' := by
  obtain ⟨context, hcontext, heq⟩ := Table.lookup_of_map_eq (h.contexts fd) hcontext'
  obtain ⟨hsocket, hassembler⟩ := Prod.mk.inj heq
  refine ⟨context, hcontext, hsocket, hassembler, ?_⟩
  rw [unserved, unserved, hsocket, hassembler, h.unread]

theorem Still.distinct {s' : EventLoop} (h : s.Still s') (hdistinct : s.Distinct) : s'.Distinct := by
  refine hdistinct.of_lookup (fun fd context' hcontext' => ?_) h.accepted.ge
  obtain ⟨context, hcontext, hsocket, -⟩ := h.lookup hcontext'
  exact ⟨context, hcontext, hsocket⟩

theorem Intact.still (h : s.Intact) {s' : EventLoop} (hs : s.Still s') : s'.Intact where
  live := by
    intro fd context' hcontext'
    obtain ⟨context, hcontext, hsocket, hassembler, hunserved⟩ := hs.lookup hcontext'
    obtain ⟨hinv, hframes, hbytes⟩ := h.live fd context hcontext
    rw [← hsocket, hs.taken, ← hunserved, hs.incoming, ← hassembler]
    exact ⟨hinv, hframes, hbytes⟩
  removed := by
    rw [hs.removed]
    intro gone hgone
    obtain ⟨hrequests, hlt, hnone, hdead⟩ := h.removed gone hgone
    rw [requestsOf, hs.requests, hs.accepted, hs.undelivered]
    refine ⟨hrequests, hlt, hnone, fun fd context' hcontext' => ?_⟩
    obtain ⟨context, hcontext, hsocket, -⟩ := hs.lookup hcontext'
    rw [← hsocket]
    exact hdead fd context hcontext
  fresh := by
    intro k hk
    rw [hs.taken, hs.incoming, hs.unread]
    exact h.fresh k (hs.accepted ▸ hk)

theorem Intact.add (h : s.Intact) (fd : ℕ) (freshHeader : SerializeHeader) :
    (s.addConnect fd freshHeader).Intact where
  live := by
    intro fd' context hcontext
    rcases addConnect_lookup hcontext with ⟨-, rfl⟩ | ⟨-, hold⟩
    · obtain ⟨htaken, hincoming, hunread⟩ := h.fresh s.accepted le_rfl
      have hnew : (FrameAssembler.new freshHeader).Inv := ⟨fun hgot => (by cases hgot), fun _ => rfl⟩
      show (FrameAssembler.new freshHeader).Inv ∧ (∀ f ∈ s.taken s.accepted, _) ∧
        (s.taken s.accepted).flatten ++ ([] ++ (s.sockets s.accepted).unread) = (s.sockets s.accepted).incoming
      rw [htaken, hincoming, hunread]
      exact ⟨hnew, fun _ hf => absurd hf List.not_mem_nil, rfl⟩
    · exact h.live fd' context hold
  removed := by
    intro gone hgone
    obtain ⟨hrequests, hlt, hnone, hdead⟩ := h.removed gone hgone
    refine ⟨hrequests, Nat.lt_succ_of_lt hlt, hnone, fun fd' context hcontext => ?_⟩
    rcases addConnect_lookup hcontext with ⟨-, rfl⟩ | ⟨-, hold⟩
    · exact hlt.ne'
    · exact hdead fd' context hold
  fresh := fun k hk => h.fresh k (Nat.le_of_succ_le hk)

theorem taken_of_undelivered {k : ℕ} (h : s.handler.undelivered k = []) : s.taken k = s.requestsOf k := by
  rw [taken, h, List.map_nil, List.append_nil]

/-- A connection is removed that has no complete frame left. -/
theorem Intact.remove (h : s.Intact) (hdistinct : s.Distinct) {fd : ℕ} {handler : Handler}
    (hbefore : ∀ k, s.handler.undelivered k = []) (hafter : ∀ k, handler.undelivered k = [])
    (hdrained : ∀ context, s.connectContexts.lookup fd = some context → next format (s.unserved context) = none) :
    { s.removeConnect fd with handler := handler }.Intact where
  live := by
    intro fd' context hcontext
    obtain ⟨-, hold⟩ := removeConnect_lookup hcontext
    obtain ⟨hinv, hframes, hbytes⟩ := h.live fd' context hold
    rw [taken_of_undelivered (hbefore _)] at hframes hbytes
    rw [taken_of_undelivered (hafter _)]
    simpa only [requestsOf, unserved, removeConnect_requests, removeConnect_sockets] using ⟨hinv, hframes, hbytes⟩
  removed := by
    intro gone hgone
    simp only [requestsOf, removeConnect_requests, removeConnect_accepted]
    -- only this connection is new among those that are gone
    have hlast : gone ∈ s.removed ∨ ∃ context, s.connectContexts.lookup fd = some context ∧
        gone = (context.socket, (s.sockets context.socket).incoming) := by
      unfold removeConnect at hgone
      split at hgone
      · exact .inl hgone
      · rename_i context hcontext
        exact (List.mem_append.1 hgone).imp_right fun hmem => ⟨context, hcontext, List.mem_singleton.1 hmem⟩
    rcases hlast with hold | ⟨context, hcontext, rfl⟩
    · obtain ⟨hrequests, hlt, -, hdead⟩ := h.removed gone hold
      exact ⟨hrequests, hlt, hafter _, fun fd' context' hcontext' =>
        hdead fd' context' (removeConnect_lookup hcontext').2⟩
    · obtain ⟨-, hframes, hbytes⟩ := h.live fd context hcontext
      rw [taken_of_undelivered (hbefore _)] at hframes hbytes
      refine ⟨?_, hdistinct.accepted fd context hcontext, hafter _, fun fd' context' hcontext' hsocket => ?_⟩
      · -- its frames are all that was sent, for no frame is left in the buffer
        rw [← hbytes]
        exact (frames_eq (by decide) (hdrained context hcontext) hframes).symm
      · obtain ⟨hfd, hold⟩ := removeConnect_lookup hcontext'
        exact hfd (hdistinct.sockets fd' fd context' context hold hcontext hsocket)
  fresh := by
    intro k hk
    simp only [removeConnect_accepted] at hk
    obtain ⟨htaken, hsocket⟩ := h.fresh k hk
    rw [taken_of_undelivered (hbefore _)] at htaken
    rw [taken_of_undelivered (hafter _)]
    simpa only [requestsOf, removeConnect_requests, removeConnect_sockets] using ⟨htaken, hsocket⟩

theorem Intact.arrive (h : s.Intact) {k : ℕ} {data : Bytes} (hk : k < s.accepted) :
    { s with
      sockets := Function.update s.sockets k
        { s.sockets k with
          incoming := (s.sockets k).incoming ++ data
          unread := (s.sockets k).unread ++ data } }.Intact where
  live := by
    intro fd context hcontext
    obtain ⟨hinv, hframes, hbytes⟩ := h.live fd context hcontext
    refine ⟨hinv, hframes, ?_⟩
    show (s.taken context.socket).flatten ++ (context.frameAssembler.pending ++
      (Function.update s.sockets k _ context.socket).unread) =
        (Function.update s.sockets k _ context.socket).incoming
    by_cases hsocket : context.socket = k
    · subst hsocket
      rw [Function.update_self]
      simp only [← hbytes, unserved, List.append_assoc]
    · rw [Function.update_of_ne hsocket]
      exact hbytes
  removed := h.removed
  fresh := by
    intro j hj
    have hne : j ≠ k := (lt_of_lt_of_le hk hj).ne'
    simp only [Function.update_of_ne hne]
    exact h.fresh j hj

theorem Intact.chunk (h : s.Intact) (hdistinct : s.Distinct) {fd size : ℕ} {context : ConnectContext}
    (hcontext : s.connectContexts.lookup fd = some context) :
    { s with
      sockets := Function.update s.sockets context.socket
        { s.sockets context.socket with unread := (s.sockets context.socket).unread.drop size }
      connectContexts := s.connectContexts.insert fd
        (context.pushChunk ((s.sockets context.socket).unread.take size)) }.Intact where
  live := by
    intro fd' context' hcontext'
    show context'.frameAssembler.Inv ∧ (∀ f ∈ s.taken context'.socket, IsFrame format f) ∧
      (s.taken context'.socket).flatten ++ (context'.frameAssembler.pending ++
        (Function.update s.sockets context.socket _ context'.socket).unread) =
          (Function.update s.sockets context.socket _ context'.socket).incoming
    rcases Table.lookup_insert_eq_some.1 hcontext' with ⟨rfl, rfl⟩ | ⟨hfd, hcontext'⟩
    · obtain ⟨hinv, hframes, hbytes⟩ := h.live fd' context hcontext
      refine ⟨⟨hinv.header, hinv.fresh⟩, hframes, ?_⟩
      -- the chunk goes from what is unread to the end of what is pending
      have hpending : (context.pushChunk ((s.sockets context.socket).unread.take size)).frameAssembler.pending =
          context.frameAssembler.pending ++ (s.sockets context.socket).unread.take size :=
        (List.append_assoc _ _ _).symm
      rw [hpending]
      simp only [ConnectContext.pushChunk, Function.update_self]
      rw [List.append_assoc, List.take_append_drop]
      exact hbytes
    · -- other contexts read other sockets
      have hne : context'.socket ≠ context.socket :=
        fun heq => hfd (hdistinct.sockets _ _ _ _ hcontext' hcontext heq)
      rw [Function.update_of_ne hne]
      exact h.live fd' context' hcontext'
  removed := by
    intro gone hgone
    obtain ⟨hrequests, hlt, hnone, hdead⟩ := h.removed gone hgone
    refine ⟨hrequests, hlt, hnone, fun fd' context' hcontext' => ?_⟩
    rcases Table.lookup_insert_eq_some.1 hcontext' with ⟨rfl, rfl⟩ | ⟨-, hcontext'⟩
    · exact hdead fd' context hcontext
    · exact hdead fd' context' hcontext'
  fresh := by
    intro k hk
    have hne : k ≠ context.socket := (lt_of_lt_of_le (hdistinct.accepted fd context hcontext) hk).ne'
    simp only [Function.update_of_ne hne]
    exact h.fresh k hk

/-- The frames that are complete come out of the assembler. -/
theorem Intact.finish (h : s.Intact) (hdistinct : s.Distinct) {fd : ℕ} {isWritable : Bool}
    {context context' : ConnectContext} {taken : List PosixFrame} (hhandler : s.handler = .reading fd isWritable)
    (hcontext : s.connectContexts.lookup fd = some context)
    (hread : context.readFrames host = .ok (taken, context'))
    (hsmall : ∀ f ∈ frames format context.frameAssembler.pending, f.length < 2 ^ 32) :
    { s with
      connectContexts := s.connectContexts.insert fd context'
      handler := .delivering context.socket fd taken isWritable }.Intact := by
  have hnone : ∀ k, s.handler.undelivered k = [] := fun k => by rw [hhandler]; rfl
  obtain ⟨hinv, hframes, hbytes⟩ := h.live fd context hcontext
  obtain ⟨a', hread', hinv', hpending⟩ := ConnectContext.readFrames_refines host hinv hsmall
  rw [hread'] at hread
  obtain ⟨rfl, rfl⟩ := Prod.mk.inj (Except.ok.inj hread)
  have hdata : ((frames format context.frameAssembler.pending).map (PosixFrame.mk context.connectId)).map
      PosixFrame.data = frames format context.frameAssembler.pending := by
    rw [List.map_map]
    exact List.map_id _
  -- only the socket that was read has frames for the queue
  have hother : ∀ k, k ≠ context.socket → (Handler.delivering context.socket fd
      ((frames format context.frameAssembler.pending).map (PosixFrame.mk context.connectId))
      isWritable).undelivered k =
        [] := fun k hk => if_neg (Ne.symm hk)
  refine ⟨fun fd' context₁ hcontext₁ => ?_, fun gone hgone => ?_, fun k hk => ?_⟩
  · rcases Table.lookup_insert_eq_some.1 hcontext₁ with ⟨rfl, rfl⟩ | ⟨hfd, hcontext₁⟩
    · rw [taken_of_undelivered (hnone _)] at hframes hbytes
      show a'.Inv ∧ (∀ f ∈ s.requestsOf context.socket ++ (Handler.undelivered _ (.delivering ..)).map _,
        IsFrame format f) ∧
        (s.requestsOf context.socket ++ (Handler.undelivered _ (.delivering ..)).map _).flatten ++
          (a'.pending ++ (s.sockets context.socket).unread) = (s.sockets context.socket).incoming
      rw [Handler.undelivered, if_pos rfl, hdata]
      refine ⟨hinv', fun f hf => ?_, ?_⟩
      · rcases List.mem_append.1 hf with hold | hnew
        · exact hframes f hold
        · exact split_isFrame _ _ f hnew
      · rw [List.flatten_append, List.append_assoc, ← List.append_assoc _ a'.pending, hpending]
        exact hbytes
    · have hne : context₁.socket ≠ context.socket :=
        fun heq => hfd (hdistinct.sockets _ _ _ _ hcontext₁ hcontext heq)
      have hlive := h.live fd' context₁ hcontext₁
      rw [taken_of_undelivered (hnone _)] at hlive
      rw [taken_of_undelivered (hother _ hne)]
      exact hlive
  · -- a connection that is gone has no context, so it was not read
    obtain ⟨hrequests, hlt, -, hdead⟩ := h.removed gone hgone
    have hne : gone.1 ≠ context.socket := (hdead fd context hcontext).symm
    refine ⟨hrequests, hlt, hother _ hne, fun fd' context₁ hcontext₁ => ?_⟩
    rcases Table.lookup_insert_eq_some.1 hcontext₁ with ⟨rfl, rfl⟩ | ⟨-, hcontext₁⟩
    · exact hne.symm
    · exact hdead fd' context₁ hcontext₁
  · have hne : k ≠ context.socket := (lt_of_lt_of_le (hdistinct.accepted fd context hcontext) hk).ne'
    have hfresh := h.fresh k hk
    rw [taken_of_undelivered (hnone _)] at hfresh
    rw [taken_of_undelivered (hother _ hne)]
    exact hfresh

/-- A frame is put into the queue. -/
theorem Intact.deliver (h : s.Intact) {origin fd : ℕ} {frame : PosixFrame} {rest : List PosixFrame}
    {isWritable : Bool}
    {mailBox : ReactorMailBox} (hhandler : s.handler = .delivering origin fd (frame :: rest) isWritable) :
    { s with
      mailBox := mailBox
      requests := s.requests ++ [Received.mk origin frame]
      handler := .delivering origin fd rest isWritable }.Intact := by
  set s' : EventLoop := { s with
    mailBox := mailBox
    requests := s.requests ++ [⟨origin, frame⟩]
    handler := .delivering origin fd rest isWritable } with hs'
  -- the frame was in the handler's hands and is a request now
  have htaken : ∀ k, s'.taken k = s.taken k := by
    intro k
    by_cases hk : origin = k
    · simp [taken, requestsOf, hs', hhandler, Handler.undelivered, hk]
    · simp [taken, requestsOf, hs', hhandler, Handler.undelivered, hk]
  refine ⟨fun fd' context hcontext => ?_, fun gone hgone => ?_, fun k hk => ?_⟩
  · rw [htaken]
    exact h.live fd' context hcontext
  · obtain ⟨hrequests, hlt, hnone, hdead⟩ := h.removed gone hgone
    -- nothing is in hand for a connection that is gone
    have hne : origin ≠ gone.1 := by
      rintro rfl
      rw [hhandler, Handler.undelivered, if_pos rfl] at hnone
      exact absurd hnone (by simp)
    have hnone' : s'.handler.undelivered gone.1 = [] := if_neg hne
    have hsame := htaken gone.1
    rw [taken_of_undelivered hnone, taken_of_undelivered hnone'] at hsame
    exact ⟨hsame.trans hrequests, hlt, hnone', hdead⟩
  · rw [htaken]
    exact h.fresh k hk

/-- **Nothing is lost over a step** that removes no connection with a complete frame left. -/
theorem Intact.step (h : s.Intact) (hdistinct : s.Distinct)
    (hdrained : s.closesDrained serverFd eventFd action = true)
    (hsmall : s.readsSmall action = true) : (s.step serverFd eventFd host action).Intact := by
  have hintake := step_intake serverFd eventFd host (s := s) action
  generalize s.step serverFd eventFd host action = s' at hintake
  cases hintake with
  | still hs => exact h.still hs
  | add hhandler => exact h.add _ _
  | @remove t fd handler hs hbefore hafter hremoving =>
    refine (h.still hs).remove (hs.distinct hdistinct) hbefore hafter fun context' hcontext' => ?_
    obtain ⟨context, hcontext, -, -, hunserved⟩ := hs.lookup hcontext'
    simp only [closesDrained, hremoving, Option.all_some, hcontext, Option.isNone_iff_eq_none] at hdrained
    rw [← hunserved]
    exact hdrained
  | arrive hk => exact h.arrive hk
  | chunk hcontext => exact h.chunk hdistinct hcontext
  | finish haction hhandler hcontext hframes =>
    obtain ⟨result, rfl⟩ := haction
    simp only [readsSmall, hhandler, hcontext, Option.all_some, List.all_eq_true, decide_eq_true_eq] at hsmall
    exact h.finish host hdistinct hhandler hcontext hframes hsmall
  | deliver hhandler hpush => exact h.deliver hhandler

/-- **No request is lost when a connection is removed**, in a run that removes no connection
while a complete frame of its peer is left: the requests of the socket in the queue, or
taken out of it, are the complete frames of what the peer had sent. -/
theorem requests_before_close {actions : List LoopAction}
    (hok : Run.Meets (fun s action => s.closesDrained serverFd eventFd action = true ∧ s.readsSmall action = true)
      (step serverFd eventFd host) init actions) :
    ∀ gone ∈ (actions.foldl (step serverFd eventFd host) init).removed,
      (actions.foldl (step serverFd eventFd host) init).requestsOf gone.1 = frames format gone.2 := by
  have hrun : (actions.foldl (step serverFd eventFd host) init).Distinct ∧
      (actions.foldl (step serverFd eventFd host) init).Intact := by
    refine hok.invariant (fun s => s.Distinct ∧ s.Intact) ?_ ⟨Connected.init.toDistinct, .init⟩
    rintro s action ⟨hdistinct, hintact⟩ ⟨hdrained, hsmall⟩
    exact ⟨hdistinct.change (s.step_change serverFd eventFd host action),
      hintact.step serverFd eventFd host hdistinct hdrained hsmall⟩
  intro gone hgone
  exact (hrun.2.removed gone hgone).1

/-- A client connects, sends a frame and sends no more. -/
def lastRequest : List LoopAction :=
  [.wait [(3, { epollIn := true })], .io .go, .io (.accept 5 true ⟨0, 0, 0, .none, 0, 0⟩), .io .noConnection,
    .arrive 0 FrameAssembler.smallFrame, .shutdown 0]

/-- The frame is reported and read, and then the end. -/
def readThenClosed : List LoopAction :=
  lastRequest ++
    [.wait [(5, { epollIn := true })], .io .go, .io (.read (.bytes 100)), .io (.read (.bytes 0)), .io .go, .io .go,
      .wait [(5, { epollIn := true, epollRdHup := true })], .io .go]

/-- The frame and the end are reported in one event. -/
def closedAtOnce : List LoopAction :=
  lastRequest ++ [.wait [(5, { epollIn := true, epollRdHup := true })], .io .go]

theorem requests_before_close_readThenClosed :
    (readThenClosed.foldl (step 3 4 .little) init).removed ≠ [] ∧
      ∀ gone ∈ (readThenClosed.foldl (step 3 4 .little) init).removed,
        (readThenClosed.foldl (step 3 4 .little) init).requestsOf gone.1 = frames format gone.2 :=
  ⟨by decide +kernel, requests_before_close 3 4 .little (by decide +kernel)⟩

/-- **A request is lost** when the end of what the peer sends is reported with it. -/
theorem lastRequest_lost :
    let s := closedAtOnce.foldl (step 3 4 .little) init
    (0, FrameAssembler.smallFrame) ∈ s.removed ∧ s.requestsOf 0 = [] ∧
      frames format FrameAssembler.smallFrame = [FrameAssembler.smallFrame] ∧
      ¬∀ gone ∈ s.removed, s.requestsOf gone.1 = frames format gone.2 := by
  decide +kernel

end EventLoop

end ProjectTrans
