import ProjectTrans.Lib.Table
import ProjectTrans.Model.Network.PosixEpollEventLoop

/-!
# Changes of connections

What can become of connections in one step of the event loop. Nothing that is on its way to a
peer moves (`Same`), or a connection is registered, one is removed, bytes of one get nearer to
its peer, or a frame is pushed for it (`Change`).
-/

namespace ProjectTrans

open Wire

/-- The frames the loop's thread has popped for a connection and not written. -/
def Handler.inHand (fd : ℕ) : Handler → List PosixFrame
  | popping fd' frames _ => if fd' = fd then frames else []
  | flushing fd' frames _ => if fd' = fd then frames else []
  | _ => []

/-- The loop's thread will pop the frames of the connection. -/
def Handler.ComesTo (fd : ℕ) : Handler → Prop
  | draining => True
  | visiting visits => fd ∈ visits
  | popping fd' _ visits => fd' = fd ∨ fd ∈ visits.getD []
  | flushing _ _ visits => fd ∈ visits.getD []
  | _ => False

/-- Whether a step may register a connection. -/
def LoopAction.isAccept : LoopAction → Bool
  | io (.accept _ _ _) => true
  | _ => false

/-- Whether a write fails in a step. -/
def LoopAction.writeFails : LoopAction → Bool
  | io (.write results _) => results.contains .failed
  | _ => false

namespace EventLoop

/-- The loop is woken up for the frames of the connection, or is about to come to them. -/
def Awaited (s : EventLoop) (fd : ℕ) : Prop := 0 < s.eventCount ∨ 0 < s.signalling ∨ s.handler.ComesTo fd

/-- A context as far as it is about writing. -/
def out (context : ConnectContext) : UInt64 × ℕ × Bytes :=
  (context.connectId, context.socket, context.writeBuffer)

/-- Nothing on its way to a peer has moved, and frames that were awaited still are. -/
structure Same (s s' : EventLoop) : Prop where
  contexts : ∀ fd, (s'.connectContexts.lookup fd).map out = (s.connectContexts.lookup fd).map out
  queues : s'.mailBox.toClientQueues = s.mailBox.toClientQueues
  outgoing : ∀ k, (s'.sockets k).outgoing = (s.sockets k).outgoing
  interest : s'.interest = s.interest
  connectCounter : s'.connectCounter = s.connectCounter
  accepted : s'.accepted = s.accepted
  pushed : s'.pushed = s.pushed
  handed : s'.handed = s.handed
  hand : ∀ fd ∈ s.connectContexts, s'.handler.inHand fd = s.handler.inHand fd
  awaited : ∀ fd context frame queue, s.connectContexts.lookup fd = some context →
    s.mailBox.toClientQueues.lookup context.connectId = some (frame :: queue) → s.Awaited fd → s'.Awaited fd

theorem Same.refl (s : EventLoop) : s.Same s where
  contexts := fun _ => rfl
  queues := rfl
  outgoing := fun _ => rfl
  interest := rfl
  connectCounter := rfl
  accepted := rfl
  pushed := rfl
  handed := rfl
  hand := fun _ _ => rfl
  awaited := fun _ _ _ _ _ _ h => h

/-- What a step does to connections. -/
inductive Change (s : EventLoop) (action : LoopAction) : EventLoop → Prop
  | same {s' : EventLoop} (h : s.Same s') : Change s action s'
  | add {fd : ℕ} {freshHeader : SerializeHeader} (haction : action = .io (.accept fd true freshHeader))
      (hhandler : s.handler = .accepting) (hfd : fd ∉ s.connectContexts) :
      Change s action (s.addConnect fd freshHeader)
  | remove {t : EventLoop} {fd : ℕ} {handler : Handler} (h : s.Same t) (hhand : ∀ fd, t.handler.inHand fd = [])
      (hhand' : ∀ fd, handler.inHand fd = []) (hcomes : ∀ fd, t.handler.ComesTo fd → handler.ComesTo fd) :
      Change s action { t.removeConnect fd with handler := handler }
  | pop {fd : ℕ} {frames : List PosixFrame} {visits : Option (List ℕ)} {context : ConnectContext}
      {frame : PosixFrame} {queue : List PosixFrame} (hhandler : s.handler = .popping fd frames visits)
      (hcontext : s.connectContexts.lookup fd = some context)
      (hqueue : s.mailBox.toClientQueues.lookup context.connectId = some (frame :: queue)) :
      Change s action { s with
        mailBox := { s.mailBox with
          toClientQueues := s.mailBox.toClientQueues.insert context.connectId queue }
        handler := .popping fd (frames ++ [frame]) visits }
  | flush {fd : ℕ} {frames : List PosixFrame} {visits : Option (List ℕ)} {context context' : ConnectContext}
      {results : List SysResult} {hasWrite : ℕ} {status : StatusLevel} (haction : ∃ input, action = .io input)
      (hhandler : s.handler = .flushing fd frames visits) (hcontext : s.connectContexts.lookup fd = some context)
      (hwrite : context.write frames results = .ok (context', hasWrite, status)) (hstatus : status ≠ .error) :
      Change s action { s.handOver context frames hasWrite with
        connectContexts := s.connectContexts.insert fd context'
        interest := Function.update s.interest fd (some (.client context'.hasPendingWrite))
        handler := afterWrite visits }
  | flushFailed {fd : ℕ} {frames : List PosixFrame} {visits : Option (List ℕ)} {context context' : ConnectContext}
      {results : List SysResult} {hasWrite : ℕ} {visits' : Option (List ℕ)}
      (haction : action.writeFails = true) (hhandler : s.handler = .flushing fd frames visits)
      (hcontext : s.connectContexts.lookup fd = some context)
      (hwrite : context.write frames results = .ok (context', hasWrite, .error)) :
      Change s action { (s.handOver context frames hasWrite).removeConnect fd with handler := afterWrite visits' }
  | push {frame : PosixFrame} {queue : List PosixFrame} (haction : action = .push frame)
      (hqueue : s.mailBox.toClientQueues.lookup frame.connectId = some queue) :
      Change s action { s with
        mailBox := { s.mailBox with
          toClientQueues := s.mailBox.toClientQueues.insert frame.connectId (queue ++ [frame]) }
        pushed := s.pushed ++ [frame]
        signalling := s.signalling + 1 }

variable {s : EventLoop} {action : LoopAction}

/-- Another handler, in whose hands there is as much and that comes to as many connections. -/
theorem Same.of_handler {batch : List Event} {applied : List (Option ℕ × ℕ)} {requests queue : List Received}
    {handler : Handler}
    (hhand : ∀ fd ∈ s.connectContexts, handler.inHand fd = s.handler.inHand fd)
    (hcomes : ∀ fd context frame queue, s.connectContexts.lookup fd = some context →
      s.mailBox.toClientQueues.lookup context.connectId = some (frame :: queue) →
      s.handler.ComesTo fd → handler.ComesTo fd) :
    s.Same { s with
      batch := batch, applied := applied, requests := requests
      mailBox := { s.mailBox with toServerFrameQueue := queue }, handler := handler } where
  contexts := fun _ => rfl
  queues := rfl
  outgoing := fun _ => rfl
  interest := rfl
  connectCounter := rfl
  accepted := rfl
  pushed := rfl
  handed := rfl
  hand := hhand
  awaited := fun fd context frame queue hcontext hqueue h => by
    rcases h with h | h | h
    · exact .inl h
    · exact .inr (.inl h)
    · exact .inr (.inr (hcomes fd context frame queue hcontext hqueue h))

/-- Another context for a connection that is as far with writing. -/
theorem Same.of_context {fd : ℕ} {context context' : ConnectContext} {sockets : ℕ → Socket} {handler : Handler}
    (hcontext : s.connectContexts.lookup fd = some context) (hout : out context' = out context)
    (hsockets : ∀ k, (sockets k).outgoing = (s.sockets k).outgoing)
    (hhand : ∀ fd, handler.inHand fd = s.handler.inHand fd)
    (hcomes : ∀ fd, s.handler.ComesTo fd → handler.ComesTo fd) : s.Same { s with
      connectContexts := s.connectContexts.insert fd context', sockets := sockets, handler := handler } where
  contexts := fun _ => Table.map_lookup_insert hcontext hout
  queues := rfl
  outgoing := hsockets
  interest := rfl
  connectCounter := rfl
  accepted := rfl
  pushed := rfl
  handed := rfl
  hand := fun fd _ => hhand fd
  awaited := fun fd _ _ _ _ _ h => by
    rcases h with h | h | h
    · exact .inl h
    · exact .inr (.inl h)
    · exact .inr (.inr (hcomes fd h))

/-- What an update of a socket keeps of it, it keeps of all. -/
theorem socket_update {β : Type} (field : Socket → β) {sockets : ℕ → Socket} {k : ℕ} {socket : Socket}
    (h : field socket = field (sockets k)) (j : ℕ) :
    field (Function.update sockets k socket j) = field (sockets j) := by
  by_cases hj : j = k
  · subst hj
    rw [Function.update_self, h]
  · rw [Function.update_of_ne hj]

theorem noteApplied_eq (s : EventLoop) (event : Event) :
    ∃ applied, s.noteApplied event = { s with applied := applied } := by
  unfold noteApplied
  split
  · exact ⟨s.applied, rfl⟩
  · exact ⟨_, rfl⟩

/-! ## Removing a connection -/

section Remove

variable (s : EventLoop) (fd : ℕ)

@[simp] theorem removeConnect_sockets : (s.removeConnect fd).sockets = s.sockets := by
  unfold removeConnect
  split <;> rfl

@[simp] theorem removeConnect_pushed : (s.removeConnect fd).pushed = s.pushed := by
  unfold removeConnect
  split <;> rfl

@[simp] theorem removeConnect_accepted : (s.removeConnect fd).accepted = s.accepted := by
  unfold removeConnect
  split <;> rfl

@[simp] theorem removeConnect_connectCounter : (s.removeConnect fd).connectCounter = s.connectCounter := by
  unfold removeConnect
  split <;> rfl

@[simp] theorem removeConnect_handed : (s.removeConnect fd).handed = s.handed := by
  unfold removeConnect
  split <;> rfl

@[simp] theorem removeConnect_requests : (s.removeConnect fd).requests = s.requests := by
  unfold removeConnect
  split <;> rfl

@[simp] theorem removeConnect_eventCount : (s.removeConnect fd).eventCount = s.eventCount := by
  unfold removeConnect
  split <;> rfl

@[simp] theorem removeConnect_signalling : (s.removeConnect fd).signalling = s.signalling := by
  unfold removeConnect
  split <;> rfl

@[simp] theorem removeConnect_batch : (s.removeConnect fd).batch = s.batch := by
  unfold removeConnect
  split <;> rfl

@[simp] theorem removeConnect_applied : (s.removeConnect fd).applied = s.applied := by
  unfold removeConnect
  split <;> rfl

@[simp] theorem removeConnect_interest :
    (s.removeConnect fd).interest = Function.update s.interest fd none := by
  unfold removeConnect
  split <;> rfl

/-- Removing a connection does not move the loop's thread. -/
theorem removeConnect_with_handler : { s.removeConnect fd with handler := s.handler } = s.removeConnect fd := by
  unfold removeConnect
  split <;> rfl

end Remove

/-- What is found after a connection is removed was there before. -/
theorem removeConnect_lookup {fd fd' : ℕ} {context : ConnectContext}
    (h : (s.removeConnect fd).connectContexts.lookup fd' = some context) :
    fd' ≠ fd ∧ s.connectContexts.lookup fd' = some context := by
  by_cases hfd : fd' = fd
  · subst hfd
    unfold removeConnect at h
    split at h
    · rename_i hnone
      exact absurd h (by rw [hnone]; simp)
    · simp only [AList.lookup_erase] at h
      exact absurd h (by simp)
  · unfold removeConnect at h
    split at h
    · exact ⟨hfd, h⟩
    · simp only [AList.lookup_erase_ne hfd] at h
      exact ⟨hfd, h⟩

theorem removeConnect_queue {fd : ℕ} {connectId : UInt64} {queue : List PosixFrame}
    (h : (s.removeConnect fd).mailBox.toClientQueues.lookup connectId = some queue) :
    s.mailBox.toClientQueues.lookup connectId = some queue := by
  unfold removeConnect at h
  split at h
  · exact h
  · rename_i context hcontext
    simp only [ReactorMailBox.removeToClientQueue] at h
    by_cases hid : connectId = context.connectId
    · subst hid
      rw [AList.lookup_erase] at h
      exact absurd h (by simp)
    · rwa [AList.lookup_erase_ne hid] at h

end EventLoop

end ProjectTrans
