import ProjectTrans.Proof.Network.Connections

/-!
# Bytes on their way to a peer

For every live connection: what its socket has taken, the bytes left of that, the frames
in the hands of the loop's thread, and the frames in its queue are the frames that were
pushed for it, in order (`Written`). What is left has `EPOLLOUT` armed, and for frames in
the queue the loop is woken up or about to come (`Woken`).
-/

namespace ProjectTrans

open Wire

namespace EventLoop

/-- The frames pushed for a connection. No two connections have one id, so these are the
frames pushed since it was registered. -/
def pushedTo (s : EventLoop) (connectId : UInt64) : List PosixFrame :=
  s.pushed.filter fun frame => frame.connectId = connectId

/-- The bytes pushed for a connection are somewhere on their way, in order. -/
structure Written (s : EventLoop) : Prop where
  law : ∀ fd context queue, s.connectContexts.lookup fd = some context →
    s.mailBox.toClientQueues.lookup context.connectId = some queue →
    (s.sockets context.socket).outgoing ++ (context.writeBuffer ++
      (PosixFrame.bytes (s.handler.inHand fd) ++ PosixFrame.bytes queue)) =
    PosixFrame.bytes (s.pushedTo context.connectId)
  known : ∀ frame ∈ s.pushed, frame.connectId.toNat < s.accepted
  fresh : ∀ k, s.accepted ≤ k → (s.sockets k).outgoing = []
  armed : ∀ fd context, s.connectContexts.lookup fd = some context → context.writeBuffer ≠ [] →
    ∃ events, s.interest fd = some events ∧ events.epollOut = true

/-- For a queue with frames in it, the loop is woken up or about to come. -/
def Woken (s : EventLoop) : Prop :=
  ∀ fd context frame queue, s.connectContexts.lookup fd = some context →
    s.mailBox.toClientQueues.lookup context.connectId = some (frame :: queue) → s.Awaited fd

/-- Fewer than `2 ^ 31` bytes are to be written. -/
def smallWrite (s : EventLoop) : LoopAction → Bool
  | .io _ =>
    match s.handler with
    | .flushing fd frames _ =>
      (s.connectContexts.lookup fd).all fun context => decide ((context.toWrite frames).length < 2 ^ 31)
    | _ => true
  | _ => true

theorem Written.init : init.Written where
  law := fun _ _ _ h => absurd h (by simp [EventLoop.init])
  known := fun _ h => absurd h List.not_mem_nil
  fresh := fun _ _ => rfl
  armed := fun _ _ h => absurd h (by simp [EventLoop.init])

theorem Woken.init : init.Woken := fun _ _ _ _ h => absurd h (by simp [EventLoop.init])

@[simp] theorem bytes_nil : PosixFrame.bytes [] = [] := rfl

@[simp] theorem bytes_append (frames frames' : List PosixFrame) :
    PosixFrame.bytes (frames ++ frames') = PosixFrame.bytes frames ++ PosixFrame.bytes frames' :=
  List.flatMap_append

theorem bytes_cons (frame : PosixFrame) (frames : List PosixFrame) :
    PosixFrame.bytes (frame :: frames) = frame.data ++ PosixFrame.bytes frames := rfl

/-! ## Writing -/

/-- The socket takes no more than there is. -/
theorem posixWrite_le {size : ℕ} (results : List SysResult) {hasWrite : ℕ} (h : hasWrite ≤ size) :
    (PosixSocketHandle.write size hasWrite results).1 ≤ size := by
  induction results generalizing hasWrite with
  | nil =>
    unfold PosixSocketHandle.write
    split <;> exact h
  | cons result results ih =>
    unfold PosixSocketHandle.write
    split
    · cases result with
      | bytes n => exact ih (by omega)
      | interrupted => exact ih h
      | again => exact h
      | failed => exact h
    · exact h

/-- **What is left is what the socket has not taken.** -/
theorem write_spec {context context' : ConnectContext} {frames : List PosixFrame} {results : List SysResult}
    {hasWrite : ℕ} {status : StatusLevel} (h : context.write frames results = .ok (context', hasWrite, status))
    (hstatus : status ≠ .error) (hsmall : (context.toWrite frames).length < 2 ^ 31) :
    context'.writeBuffer = (context.toWrite frames).drop hasWrite := by
  have hle := posixWrite_le results (Nat.zero_le (context.toWrite frames).length)
  simp only [ConnectContext.write] at h
  split at h
  · obtain ⟨-, h⟩ := Prod.mk.inj (Except.ok.inj h)
    exact absurd (Prod.mk.inj h).2.symm hstatus
  rename_i written status' hnot hwrite
  rw [hwrite] at hle
  split at h
  · obtain ⟨rfl, htaken⟩ := Prod.mk.inj (Except.ok.inj h)
    obtain ⟨rfl, -⟩ := Prod.mk.inj htaken
    rfl
  split at h
  · exact absurd h (by simp)
  · obtain ⟨rfl, htaken⟩ := Prod.mk.inj (Except.ok.inj h)
    obtain ⟨rfl, -⟩ := Prod.mk.inj htaken
    have htotal : (Int32.ofNat written).toInt = written := Int32.toInt_ofNat_of_lt (by omega)
    simp only [htotal, Int.toNat_natCast]

/-! ## Changes -/

variable {s s' : EventLoop} {action : LoopAction}

theorem Written.same (h : s.Written) (hs : s.Same s') : s'.Written where
  law := by
    intro fd context' queue hcontext' hqueue
    obtain ⟨context, hcontext, hout⟩ := hs.lookup hcontext'
    simp only [out, Prod.mk.injEq] at hout
    obtain ⟨hid, hsocket, hbuffer⟩ := hout
    rw [hs.queues, ← hid] at hqueue
    rw [hs.outgoing, hs.hand fd (Table.mem_of_lookup hcontext), pushedTo, hs.pushed, ← hid, ← hsocket, ← hbuffer]
    exact h.law fd context queue hcontext hqueue
  known := by
    rw [hs.pushed, hs.accepted]
    exact h.known
  fresh := by
    intro k hk
    rw [hs.accepted] at hk
    rw [hs.outgoing]
    exact h.fresh k hk
  armed := by
    intro fd context' hcontext' hbuffer
    obtain ⟨context, hcontext, hout⟩ := hs.lookup hcontext'
    simp only [out, Prod.mk.injEq] at hout
    rw [hs.interest]
    exact h.armed fd context hcontext (by rw [hout.2.2]; exact hbuffer)

theorem Written.remove (h : s.Written) (hhand : ∀ fd, s.handler.inHand fd = []) {fd : ℕ} {handler : Handler}
    (hhand' : ∀ fd, handler.inHand fd = []) : { s.removeConnect fd with handler := handler }.Written where
  law := by
    intro fd' context queue hcontext hqueue
    have hlaw := h.law fd' context queue (removeConnect_lookup hcontext).2 (removeConnect_queue hqueue)
    rw [hhand] at hlaw
    rw [hhand', removeConnect_sockets]
    simpa only [pushedTo, removeConnect_pushed] using hlaw
  known := by
    simpa using h.known
  fresh := by
    simpa using h.fresh
  armed := by
    intro fd' context hcontext hbuffer
    obtain ⟨hfd, hcontext⟩ := removeConnect_lookup hcontext
    simp only [removeConnect_interest, Function.update_of_ne hfd]
    exact h.armed fd' context hcontext hbuffer

/-- A new connection: nothing was pushed for it and nothing is on its way. -/
theorem Written.add (h : s.Written) (hconnected : s.Connected) (hhandler : s.handler = .accepting) {fd : ℕ}
    (hfd : fd ∉ s.connectContexts) (freshHeader : SerializeHeader) : (s.addConnect fd freshHeader).Written where
  law := by
    intro fd' context queue hcontext hqueue
    have hhand : s.handler.inHand fd' = [] := by rw [hhandler]; rfl
    simp only [addConnect, ReactorMailBox.addToClientQueue] at hqueue
    rcases addConnect_lookup hcontext with ⟨rfl, rfl⟩ | ⟨-, hcontext⟩
    · rw [AList.lookup_insert] at hqueue
      obtain rfl := Option.some.inj hqueue
      -- no frame was pushed for an id that was not given yet
      have hnone : s.pushedTo s.connectCounter = [] := by
        refine List.filter_eq_nil_iff.2 fun frame hframe => ?_
        have hlt := h.known frame hframe
        rw [← hconnected.counter] at hlt
        simp only [decide_eq_true_eq]
        rintro heq
        rw [heq] at hlt
        exact lt_irrefl _ hlt
      show (s.sockets s.accepted).outgoing ++ ([] ++ (PosixFrame.bytes (s.handler.inHand fd') ++ [])) =
        PosixFrame.bytes (s.pushedTo s.connectCounter)
      rw [hnone, hhand, h.fresh _ le_rfl]
      rfl
    · have hid : context.connectId ≠ s.connectCounter := by
        intro heq
        have hlt := hconnected.accepted fd' context hcontext
        rw [← hconnected.ids fd' context hcontext, heq, hconnected.counter] at hlt
        exact lt_irrefl _ hlt
      rw [AList.lookup_insert_ne hid] at hqueue
      exact h.law fd' context queue hcontext hqueue
  known := fun frame hframe => Nat.lt_succ_of_lt (h.known frame hframe)
  fresh := fun k hk => h.fresh k (Nat.le_of_succ_le hk)
  armed := by
    intro fd' context hcontext hbuffer
    rcases addConnect_lookup hcontext with ⟨-, rfl⟩ | ⟨hne, hcontext⟩
    · exact absurd rfl hbuffer
    · simp only [addConnect, Function.update_of_ne hne]
      exact h.armed fd' context hcontext hbuffer

/-- A frame goes from the queue into the thread's hands. -/
theorem Written.pop (h : s.Written) (hconnected : s.Connected) {fd : ℕ} {frames queue : List PosixFrame}
    {visits : Option (List ℕ)} {context : ConnectContext} {frame : PosixFrame}
    (hhandler : s.handler = .popping fd frames visits) (hcontext : s.connectContexts.lookup fd = some context)
    (hqueue : s.mailBox.toClientQueues.lookup context.connectId = some (frame :: queue)) :
    { s with
      mailBox := { s.mailBox with toClientQueues := s.mailBox.toClientQueues.insert context.connectId queue }
      handler := .popping fd (frames ++ [frame]) visits }.Written where
  law := by
    intro fd' context' queue' hcontext' hqueue'
    by_cases hfd : fd' = fd
    · subst hfd
      obtain rfl : context = context' := Option.some.inj (hcontext.symm.trans hcontext')
      rw [AList.lookup_insert] at hqueue'
      obtain rfl := Option.some.inj hqueue'
      -- the frame goes from the front of the queue to the end of what is in hand
      have hlaw := h.law fd' context _ hcontext hqueue
      rw [hhandler, Handler.inHand, if_pos rfl, bytes_cons] at hlaw
      rw [Handler.inHand, if_pos rfl, bytes_append, bytes_cons, bytes_nil, List.append_nil, List.append_assoc]
      exact hlaw
    · -- another connection has another queue
      have hid : context'.connectId ≠ context.connectId :=
        fun heq => hfd (hconnected.fd_eq hcontext' hcontext heq)
      rw [AList.lookup_insert_ne hid] at hqueue'
      have hlaw := h.law fd' context' queue' hcontext' hqueue'
      rw [hhandler, Handler.inHand, if_neg (Ne.symm hfd)] at hlaw
      rw [Handler.inHand, if_neg (Ne.symm hfd)]
      exact hlaw
  known := h.known
  fresh := h.fresh
  armed := h.armed

/-- The frames in hand go into the buffer, and from there into the socket. -/
theorem Written.flush (h : s.Written) (hconnected : s.Connected) {fd : ℕ} {frames : List PosixFrame}
    {visits : Option (List ℕ)} {context context' : ConnectContext} {results : List SysResult} {hasWrite : ℕ}
    {status : StatusLevel} (hhandler : s.handler = .flushing fd frames visits)
    (hcontext : s.connectContexts.lookup fd = some context)
    (hwrite : context.write frames results = .ok (context', hasWrite, status)) (hstatus : status ≠ .error)
    (hsmall : (context.toWrite frames).length < 2 ^ 31) :
    { s.handOver context frames hasWrite with
      connectContexts := s.connectContexts.insert fd context'
      interest := Function.update s.interest fd (some (.client context'.hasPendingWrite))
      handler := afterWrite visits }.Written where
  law := by
    obtain ⟨hid, hsocket⟩ := Prod.mk.inj (write_identity hwrite)
    intro fd' context₁ queue hcontext₁ hqueue
    rcases Table.lookup_insert_eq_some.1 hcontext₁ with ⟨rfl, rfl⟩ | ⟨hfd, hcontext₁⟩
    · rw [hid] at hqueue
      have hlaw := h.law fd' context queue hcontext hqueue
      rw [hhandler, Handler.inHand, if_pos rfl] at hlaw
      -- what is taken from the buffer is what the socket gets
      rw [inHand_afterWrite, bytes_nil, List.nil_append, hid, hsocket, write_spec hwrite hstatus hsmall]
      simp only [handOver, Function.update_self]
      rw [List.append_assoc, ← List.append_assoc (List.take _ _), List.take_append_drop, ConnectContext.toWrite,
        List.append_assoc]
      exact hlaw
    · have hne : context₁.socket ≠ context.socket :=
        fun heq => hfd (hconnected.sockets _ _ _ _ hcontext₁ hcontext heq)
      have hlaw := h.law fd' context₁ queue hcontext₁ hqueue
      rw [hhandler, Handler.inHand, if_neg (Ne.symm hfd)] at hlaw
      rw [inHand_afterWrite]
      simp only [handOver, Function.update_of_ne hne]
      exact hlaw
  known := h.known
  fresh := by
    intro k hk
    have hne : k ≠ context.socket := (lt_of_lt_of_le (hconnected.accepted fd context hcontext) hk).ne'
    simp only [handOver, Function.update_of_ne hne]
    exact h.fresh k hk
  armed := by
    intro fd' context₁ hcontext₁ hbuffer
    rcases Table.lookup_insert_eq_some.1 hcontext₁ with ⟨rfl, rfl⟩ | ⟨hfd, hcontext₁⟩
    · refine ⟨_, Function.update_self .., ?_⟩
      simpa [EpollEvents.client, ConnectContext.hasPendingWrite] using hbuffer
    · simp only [Function.update_of_ne hfd]
      exact h.armed fd' context₁ hcontext₁ hbuffer

theorem Written.flushFailed (h : s.Written) (hconnected : s.Connected) {fd : ℕ} {frames : List PosixFrame}
    {visits visits' : Option (List ℕ)} {context : ConnectContext} {hasWrite : ℕ}
    (hhandler : s.handler = .flushing fd frames visits) (hcontext : s.connectContexts.lookup fd = some context) :
    { (s.handOver context frames hasWrite).removeConnect fd with handler := afterWrite visits' }.Written where
  law := by
    intro fd' context₁ queue hcontext₁ hqueue
    obtain ⟨hfd, hcontext₁⟩ := removeConnect_lookup hcontext₁
    -- the other connections have sockets of their own
    have hne : context₁.socket ≠ context.socket :=
      fun heq => hfd (hconnected.sockets _ _ _ _ hcontext₁ hcontext heq)
    have hqueue : (s.handOver context frames hasWrite).mailBox.toClientQueues.lookup context₁.connectId =
      some queue :=
      removeConnect_queue hqueue
    have hlaw := h.law fd' context₁ queue hcontext₁ hqueue
    rw [hhandler, Handler.inHand, if_neg (Ne.symm hfd)] at hlaw
    simp only [removeConnect_sockets, inHand_afterWrite, handOver, Function.update_of_ne hne, pushedTo,
      removeConnect_pushed]
    exact hlaw
  known := by
    simpa [handOver] using h.known
  fresh := by
    intro k hk
    simp only [removeConnect_accepted] at hk
    have hne : k ≠ context.socket := (lt_of_lt_of_le (hconnected.accepted fd context hcontext) hk).ne'
    simp only [removeConnect_sockets, handOver, Function.update_of_ne hne]
    exact h.fresh k hk
  armed := by
    intro fd' context₁ hcontext₁ hbuffer
    obtain ⟨hfd, hcontext₁⟩ := removeConnect_lookup hcontext₁
    simp only [removeConnect_interest, Function.update_of_ne hfd]
    exact h.armed fd' context₁ hcontext₁ hbuffer

/-- A frame is pushed to the queue of its connection. -/
theorem Written.push (h : s.Written) (hconnected : s.Connected) {frame : PosixFrame} {queue : List PosixFrame}
    (hqueue : s.mailBox.toClientQueues.lookup frame.connectId = some queue) :
    { s with
      mailBox := { s.mailBox with
        toClientQueues := s.mailBox.toClientQueues.insert frame.connectId (queue ++ [frame]) }
      pushed := s.pushed ++ [frame]
      signalling := s.signalling + 1 }.Written where
  law := by
    intro fd context queue' hcontext hqueue'
    by_cases hid : context.connectId = frame.connectId
    · rw [hid, AList.lookup_insert] at hqueue'
      obtain rfl := Option.some.inj hqueue'
      have hlaw := h.law fd context queue hcontext (by rw [hid]; exact hqueue)
      have hpushed : ({ s with pushed := s.pushed ++ [frame] } : EventLoop).pushedTo context.connectId =
          s.pushedTo context.connectId ++ [frame] := by
        simp [pushedTo, hid]
      show (s.sockets context.socket).outgoing ++ (context.writeBuffer ++
        (PosixFrame.bytes (s.handler.inHand fd) ++ PosixFrame.bytes (queue ++ [frame]))) =
          PosixFrame.bytes (({ s with pushed := s.pushed ++ [frame] } : EventLoop).pushedTo context.connectId)
      -- the frame is the last of the queue, and of what was pushed
      rw [hpushed, bytes_append, bytes_append, ← hlaw]
      simp only [List.append_assoc]
    · rw [AList.lookup_insert_ne hid] at hqueue'
      have hpushed : ({ s with pushed := s.pushed ++ [frame] } : EventLoop).pushedTo context.connectId =
          s.pushedTo context.connectId := by
        simp [pushedTo, Ne.symm hid]
      show _ = PosixFrame.bytes
        (({ s with pushed := s.pushed ++ [frame] } : EventLoop).pushedTo context.connectId)
      rw [hpushed]
      exact h.law fd context queue' hcontext hqueue'
  known := by
    intro frame' hframe'
    rcases List.mem_append.1 hframe' with hold | hnew
    · exact h.known frame' hold
    · obtain rfl := List.mem_singleton.1 hnew
      obtain ⟨fd, context, hcontext, hid⟩ :=
        (hconnected.queues frame'.connectId).1 (Table.mem_of_lookup hqueue)
      rw [← hid, hconnected.ids fd context hcontext]
      exact hconnected.accepted fd context hcontext
  fresh := h.fresh
  armed := h.armed

/-- **Bytes stay in order** over every change. -/
theorem Written.change (h : s.Written) (hconnected : s.Connected) (hchange : s.Change action s')
    (hsmall : s.smallWrite action = true) : s'.Written := by
  cases hchange with
  | same hs => exact h.same hs
  | add haction hhandler hfd => exact h.add hconnected hhandler hfd _
  | remove hs hhand hhand' hcomes => exact (h.same hs).remove hhand hhand'
  | pop hhandler hcontext hqueue => exact h.pop hconnected hhandler hcontext hqueue
  | flush haction hhandler hcontext hwrite hstatus =>
    obtain ⟨input, rfl⟩ := haction
    simp only [smallWrite, hhandler, hcontext, Option.all_some, decide_eq_true_eq] at hsmall
    exact h.flush hconnected hhandler hcontext hwrite hstatus hsmall
  | flushFailed haction hhandler hcontext hwrite => exact h.flushFailed hconnected hhandler hcontext
  | push haction hqueue => exact h.push hconnected hqueue

/-- **Frames stay awaited** over every change but a failed write. -/
theorem Woken.change (h : s.Woken) (hconnected : s.Connected) (hchange : s.Change action s')
    (hok : action.writeFails = false) : s'.Woken := by
  have hsame : ∀ {t : EventLoop}, s.Same t → t.Woken := by
    intro t ht fd context' frame queue hcontext' hqueue
    -- the queues and what is awaited are the same
    obtain ⟨context, hcontext, hout⟩ := ht.lookup hcontext'
    simp only [out, Prod.mk.injEq] at hout
    rw [ht.queues, ← hout.1] at hqueue
    exact ht.awaited fd context frame queue hcontext hqueue (h fd context frame queue hcontext hqueue)
  cases hchange with
  | same hs => exact hsame hs
  | @add fd freshHeader haction hhandler hfd =>
    intro fd' context frame queue hcontext hqueue
    simp only [addConnect, ReactorMailBox.addToClientQueue] at hqueue
    -- the queue of the new connection has no frame
    rcases Table.lookup_insert_eq_some.1 hqueue with ⟨-, hnil⟩ | ⟨hid, hqueue⟩
    · exact absurd hnil (by simp)
    · rcases addConnect_lookup hcontext with ⟨-, rfl⟩ | ⟨-, hcontext⟩
      · exact absurd rfl hid
      · exact h fd' context frame queue hcontext hqueue
  | @remove t fd handler hs hhand hhand' hcomes =>
    intro fd' context frame queue hcontext hqueue
    have hawaited := hsame hs fd' context frame queue (removeConnect_lookup hcontext).2
      (removeConnect_queue hqueue)
    simp only [Awaited, removeConnect_eventCount, removeConnect_signalling]
    exact hawaited.imp_right (Or.imp_right (hcomes fd'))
  | @pop fd frames visits context frame queue hhandler hcontext hqueue =>
    intro fd' context' frame' queue' hcontext' hqueue'
    -- a queue that was just popped is being visited
    by_cases hfd : fd' = fd
    · exact .inr (.inr (.inl hfd.symm))
    · have hid : context'.connectId ≠ context.connectId :=
        fun heq => hfd (hconnected.fd_eq hcontext' hcontext heq)
      rw [AList.lookup_insert_ne hid] at hqueue'
      have hawaited := h fd' context' frame' queue' hcontext' hqueue'
      rw [Awaited, hhandler] at hawaited
      exact hawaited
  | @flush fd frames visits context context' results hasWrite status haction hhandler hcontext hwrite hstatus =>
    intro fd' context₁ frame queue hcontext₁ hqueue
    obtain ⟨context₀, hcontext₀, hid⟩ := lookup_insert_identity hcontext (write_identity hwrite) hcontext₁
    have hawaited := h fd' context₀ frame queue hcontext₀ (by rw [(Prod.mk.inj hid).1]; exact hqueue)
    rw [Awaited, hhandler] at hawaited
    exact hawaited.imp_right (Or.imp_right comesTo_afterWrite.2)
  | flushFailed haction => exact absurd haction (by simp [hok])
  -- a frame that is pushed is signalled
  | push haction hqueue => exact fun _ _ _ _ _ _ => .inr (.inl (Nat.succ_pos _))

/-! ## Runs -/

variable {serverFd eventFd : ℕ} {host : Endian} {actions : List LoopAction}

theorem written_run (hfew : actions.countP LoopAction.isAccept < 2 ^ 64)
    (hsmall : Run.Meets (fun s action => s.smallWrite action = true) (step serverFd eventFd host) init actions) :
    (actions.foldl (step serverFd eventFd host) init).Written := by
  refine (((meets_few hfew).and hsmall).invariant (fun s => s.Connected ∧ s.Written) ?_ ⟨.init, .init⟩).2
  rintro s action ⟨hconnected, hwritten⟩ ⟨hfew, hsmall⟩
  have hchange := s.step_change serverFd eventFd host action
  exact ⟨hconnected.change hchange hfew, hwritten.change hconnected hchange hsmall⟩

theorem woken_run (hfew : actions.countP LoopAction.isAccept < 2 ^ 64)
    (hok : ∀ action ∈ actions, action.writeFails = false) :
    (actions.foldl (step serverFd eventFd host) init).Woken := by
  refine (((meets_few hfew).and_forall hok).invariant (fun s => s.Connected ∧ s.Woken) ?_ ⟨.init, .init⟩).2
  rintro s action ⟨hconnected, hwoken⟩ ⟨hok, hfew⟩
  have hchange := s.step_change serverFd eventFd host action
  exact ⟨hconnected.change hchange hfew, hwoken.change hconnected hchange hok⟩

/-- **Bytes reach the peer in order and are not forgotten**: for every live connection, what
its socket has taken, what is left of it, what the loop's thread holds and what is queued
are the frames pushed for it; between handlers the thread holds nothing, what is left has
`EPOLLOUT` armed, and a queue with frames has the eventfd pending or about to be written. -/
theorem write_path (hfew : actions.countP LoopAction.isAccept < 2 ^ 64)
    (hsmall : Run.Meets (fun s action => s.smallWrite action = true) (step serverFd eventFd host) init actions)
    (hok : ∀ action ∈ actions, action.writeFails = false) {fd : ℕ} {context : ConnectContext}
    (hcontext : (actions.foldl (step serverFd eventFd host) init).connectContexts.lookup fd = some context) :
    let s := actions.foldl (step serverFd eventFd host) init
    ∃ queue, s.mailBox.toClientQueues.lookup context.connectId = some queue ∧
      (s.sockets context.socket).outgoing ++ (context.writeBuffer ++
        (PosixFrame.bytes (s.handler.inHand fd) ++ PosixFrame.bytes queue)) =
        PosixFrame.bytes (s.pushedTo context.connectId) ∧
      (s.handler = .idle → s.handler.inHand fd = [] ∧
        (context.writeBuffer ≠ [] → ∃ events, s.interest fd = some events ∧ events.epollOut = true) ∧
        (queue ≠ [] → 0 < s.eventCount ∨ 0 < s.signalling)) := by
  intro s
  have hconnected : s.Connected := connected_run hfew
  have hwritten : s.Written := written_run hfew hsmall
  have hwoken : s.Woken := woken_run hfew hok
  have hmem : context.connectId ∈ s.mailBox.toClientQueues := (hconnected.queues _).2 ⟨fd, context, hcontext, rfl⟩
  obtain ⟨queue, hqueue⟩ := Option.isSome_iff_exists.1 (AList.lookup_isSome.2 hmem)
  refine ⟨queue, hqueue, hwritten.law fd context queue hcontext hqueue, fun hidle => ⟨?_, ?_, fun hne => ?_⟩⟩
  · rw [hidle]
    rfl
  · exact hwritten.armed fd context hcontext
  · obtain ⟨frame, queue', rfl⟩ := List.exists_cons_of_ne_nil hne
    -- an idle loop does not come to it, so it is being told
    rcases hwoken fd context frame queue' hcontext hqueue with hpending | hsignalling | hcomes
    · exact .inl hpending
    · exact .inr hsignalling
    · rw [hidle] at hcomes
      exact absurd hcomes id

/-- A connection is registered, a frame of three bytes is pushed for it, and the socket
takes two of them. -/
def partialWrite : List LoopAction :=
  [.wait [(3, { epollIn := true })], .io .go, .io (.accept 5 true ⟨0, 0, 0, .none, 0, 0⟩), .io .noConnection,
    .push ⟨0, [1, 2, 3]⟩, .signal, .wait [(4, { epollIn := true })], .io .go, .io (.order [5]), .io (.order [5]),
    .io .go, .io .go, .io .go, .io (.write [.bytes 2] [])]

theorem write_path_partial :
    let s := partialWrite.foldl (step 3 4 .little) init
    let context : ConnectContext := ⟨0, 0, .new ⟨0, 0, 0, .none, 0, 0⟩, [3]⟩
    ∃ queue, s.mailBox.toClientQueues.lookup context.connectId = some queue ∧
      (s.sockets context.socket).outgoing ++ (context.writeBuffer ++
        (PosixFrame.bytes (s.handler.inHand 5) ++ PosixFrame.bytes queue)) =
        PosixFrame.bytes (s.pushedTo context.connectId) ∧
      (s.handler = .idle → s.handler.inHand 5 = [] ∧
        (context.writeBuffer ≠ [] → ∃ events, s.interest 5 = some events ∧ events.epollOut = true) ∧
        (queue ≠ [] → 0 < s.eventCount ∨ 0 < s.signalling)) :=
  write_path (by decide) (by decide +kernel) (by decide) (by decide +kernel)

end EventLoop

end ProjectTrans
