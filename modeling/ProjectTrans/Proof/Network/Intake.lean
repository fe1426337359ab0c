import ProjectTrans.Proof.Codec.FrameAssembler
import ProjectTrans.Proof.Network.Connections

/-!
# What a step of the event loop does to received bytes

`read` takes the complete frames off what it has got (`readFrames_refines`). A step of the
loop leaves received bytes alone (`Still`), or registers or removes a connection, receives
or reads some bytes, takes the complete frames, or puts a frame into the queue
(`step_intake`).
-/

namespace ProjectTrans

open Wire Framing

open FrameAssembler (format)

/-! ## Reading -/

namespace ConnectContext

variable (host : Endian)

/-- The loop of `read` takes frames off the pending bytes. -/
theorem popFrames_refines (n : ℕ) : ∀ {a : FrameAssembler}, a.Inv →
    (∀ f ∈ (split format n a.pending).1, f.length < 2 ^ 32) →
    ∃ a', popFrames host n a = .ok ((split format n a.pending).1, a') ∧ a'.Inv ∧
      a'.pending = (split format n a.pending).2 := by
  induction n with
  | zero => intro a h _; exact ⟨a, rfl, h, rfl⟩
  | succ n ih =>
    intro a h hsmall
    -- by induction on the frames that may be popped, each of them small
    have hpop := FrameAssembler.popFrame_refines host h fun f rest hnext => by
      rw [split, hnext] at hsmall
      exact hsmall f List.mem_cons_self
    cases hnext : next format a.pending with
    | none =>
      rw [hnext] at hpop
      obtain ⟨a', hpopped, h', hpending⟩ := hpop
      rw [split, hnext, popFrames, hpopped]
      exact ⟨a', rfl, h', hpending⟩
    | some found =>
      obtain ⟨f, rest⟩ := found
      rw [hnext] at hpop
      obtain ⟨a₁, hpopped, h₁, hpending₁⟩ := hpop
      rw [split, hnext] at hsmall
      obtain ⟨a', hpopped', h', hpending'⟩ := ih h₁ (by
        rw [hpending₁]
        exact fun g hg => hsmall g (List.mem_cons_of_mem _ hg))
      rw [hpending₁] at hpopped' hpending'
      refine ⟨a', ?_, h', ?_⟩
      · rw [split, hnext, popFrames, hpopped, Checked.ok_bind]
        simp only [hpopped', Checked.ok_bind]
        rfl
      · rw [split, hnext]
        exact hpending'

/-- **`read` hands on the complete frames**, and keeps what is short of one. -/
theorem readFrames_refines {c : ConnectContext} (h : c.frameAssembler.Inv)
    (hsmall : ∀ f ∈ frames format c.frameAssembler.pending, f.length < 2 ^ 32) :
    ∃ a', c.readFrames host = .ok ((frames format c.frameAssembler.pending).map (PosixFrame.mk c.connectId),
        { c with frameAssembler := a' }) ∧ a'.Inv ∧
      (frames format c.frameAssembler.pending).flatten ++ a'.pending = c.frameAssembler.pending := by
  set pending := c.frameAssembler.pending with hp
  set n := c.frameAssembler.buffer.length + 2 with hn
  -- there are not as many frames as the loop may take
  have hlen : pending.length ≤ headerSize + c.frameAssembler.buffer.length := by
    rw [hp, FrameAssembler.pending, List.length_append]
    split
    · rw [SerializeHeader.wire_length, headerSize]
    · rw [List.length_nil, Nat.zero_add]
      exact Nat.le_add_left _ _
  have hheader : format.headerSize = 16 := rfl
  have hdone : next format (split format n pending).2 = none := by
    refine split_done n pending ?_
    rw [headerSize] at hlen
    rw [hheader]
    omega
  have hall : frames format pending = (split format n pending).1 := by
    have hflat := split_flatten (F := format) n pending
    have heq := frames_eq (by omega) hdone (split_isFrame n pending)
    rwa [hflat] at heq
  rw [hall] at hsmall ⊢
  obtain ⟨a', hpopped, h', hpending⟩ := popFrames_refines host n h hsmall
  refine ⟨a', ?_, h', ?_⟩
  · rw [readFrames, ← hn, hpopped, Checked.ok_bind]
    rfl
  · rw [hpending]
    exact split_flatten n pending

end ConnectContext

/-! ## What a connection has got -/

/-- The frames of a socket that the loop's thread has not put into the queue yet. -/
def Handler.undelivered (k : ℕ) : Handler → List PosixFrame
  | delivering origin _ frames _ => if origin = k then frames else []
  | _ => []

namespace EventLoop

/-- The descriptor whose connection a step removes, if there is one. -/
def removing (serverFd eventFd : ℕ) (s : EventLoop) : LoopAction → Option ℕ
  | .io input =>
    match s.handler, input with
    | .idle, _ =>
      match s.batch with
      | [] => none
      | event :: _ =>
        if event.fd ≠ serverFd ∧ event.fd ≠ eventFd ∧
            (event.events.epollHup || event.events.epollErr || event.events.epollRdHup) then some event.fd
        else none
    | .reading fd _, .read .failed => some fd
    | .flushing fd frames _, .write results _ =>
      match s.connectContexts.lookup fd with
      | none => none
      | some context =>
        match context.write frames results with
        | .ok (_, _, .error) => some fd
        | _ => none
    | _, _ => none
  | _ => none

/-- A context as far as it is about reading. -/
def intake (context : ConnectContext) : ℕ × FrameAssembler := (context.socket, context.frameAssembler)

/-- Nothing of what the peers have sent has moved. -/
structure Still (s s' : EventLoop) : Prop where
  contexts : ∀ fd, (s'.connectContexts.lookup fd).map intake = (s.connectContexts.lookup fd).map intake
  incoming : ∀ k, (s'.sockets k).incoming = (s.sockets k).incoming
  unread : ∀ k, (s'.sockets k).unread = (s.sockets k).unread
  requests : s'.requests = s.requests
  toServer : ∀ received ∈ s'.mailBox.toServerFrameQueue, received ∈ s.mailBox.toServerFrameQueue
  removed : s'.removed = s.removed
  accepted : s'.accepted = s.accepted
  undelivered : ∀ k, s'.handler.undelivered k = s.handler.undelivered k

theorem Still.refl (s : EventLoop) : s.Still s where
  contexts := fun _ => rfl
  incoming := fun _ => rfl
  unread := fun _ => rfl
  requests := rfl
  toServer := fun _ h => h
  removed := rfl
  accepted := rfl
  undelivered := fun _ => rfl

/-- What a step does to what the peers have sent. -/
inductive Intake (serverFd eventFd : ℕ) (host : Endian) (s : EventLoop) (action : LoopAction) : EventLoop → Prop
  | still {s' : EventLoop} (h : s.Still s') : Intake serverFd eventFd host s action s'
  | add {fd : ℕ} {freshHeader : SerializeHeader} (hhandler : ∀ k, s.handler.undelivered k = []) :
      Intake serverFd eventFd host s action (s.addConnect fd freshHeader)
  | remove {t : EventLoop} {fd : ℕ} {handler : Handler} (h : s.Still t)
      (hbefore : ∀ k, t.handler.undelivered k = [])
      (hafter : ∀ k, handler.undelivered k = []) (hremoving : s.removing serverFd eventFd action = some fd) :
      Intake serverFd eventFd host s action { t.removeConnect fd with handler := handler }
  | arrive {k : ℕ} {data : Bytes} (hk : k < s.accepted) :
      Intake serverFd eventFd host s action { s with
        sockets := Function.update s.sockets k
          { s.sockets k with
            incoming := (s.sockets k).incoming ++ data
            unread := (s.sockets k).unread ++ data } }
  | chunk {fd size : ℕ} {context : ConnectContext} (hcontext : s.connectContexts.lookup fd = some context) :
      Intake serverFd eventFd host s action { s with
        sockets := Function.update s.sockets context.socket
          { s.sockets context.socket with unread := (s.sockets context.socket).unread.drop size }
        connectContexts := s.connectContexts.insert fd
          (context.pushChunk ((s.sockets context.socket).unread.take size)) }
  | finish {fd : ℕ} {isWritable : Bool} {context context' : ConnectContext} {frames : List PosixFrame}
      (haction : ∃ result, action = .io (.read result)) (hhandler : s.handler = .reading fd isWritable)
      (hcontext : s.connectContexts.lookup fd = some context)
      (hframes : context.readFrames host = .ok (frames, context')) :
      Intake serverFd eventFd host s action { s with
        connectContexts := s.connectContexts.insert fd context'
        handler := .delivering context.socket fd frames isWritable }
  | deliver {origin fd : ℕ} {frame : PosixFrame} {frames : List PosixFrame} {isWritable : Bool}
    {mailBox : ReactorMailBox}
      (hhandler : s.handler = .delivering origin fd (frame :: frames) isWritable)
      (hpush : s.mailBox.pushToServerFrame ⟨origin, frame⟩ = some mailBox) :
      Intake serverFd eventFd host s action { s with
        mailBox := mailBox
        requests := s.requests ++ [⟨origin, frame⟩]
        handler := .delivering origin fd frames isWritable }

variable {s : EventLoop} {action : LoopAction} (serverFd eventFd : ℕ) (host : Endian)

/-- Another handler that has as many frames to put into the queue. -/
theorem Still.of_handler {batch : List Event} {applied : List (Option ℕ × ℕ)} {eventCount : ℕ} {handler : Handler}
    (h : ∀ k, handler.undelivered k = s.handler.undelivered k) :
    s.Still { s with batch := batch, applied := applied, eventCount := eventCount, handler := handler } where
  contexts := fun _ => rfl
  incoming := fun _ => rfl
  unread := fun _ => rfl
  requests := rfl
  toServer := fun _ h => h
  removed := rfl
  accepted := rfl
  undelivered := h

/-- A handler without frames for the queue. -/
theorem Still.of_idle {batch : List Event} {applied : List (Option ℕ × ℕ)} {eventCount : ℕ} {handler : Handler}
    (hs : ∀ k, s.handler.undelivered k = []) (h : ∀ k, handler.undelivered k = []) :
    s.Still { s with batch := batch, applied := applied, eventCount := eventCount, handler := handler } :=
  .of_handler fun k => by rw [hs, h]

/-- Another mailbox, with no more requests in it. -/
theorem Still.of_mailBox {mailBox : ReactorMailBox} {pushed : List PosixFrame} {signalling : ℕ}
    {handler : Handler} (h : ∀ k, handler.undelivered k = s.handler.undelivered k)
    (hqueue : ∀ received ∈ mailBox.toServerFrameQueue, received ∈ s.mailBox.toServerFrameQueue) :
    s.Still { s with mailBox := mailBox, pushed := pushed, signalling := signalling, handler := handler } where
  contexts := fun _ => rfl
  incoming := fun _ => rfl
  unread := fun _ => rfl
  requests := rfl
  toServer := hqueue
  removed := rfl
  accepted := rfl
  undelivered := h

@[simp] theorem undelivered_afterWrite (k : ℕ) (visits : Option (List ℕ)) :
    (afterWrite visits).undelivered k = [] := by
  cases visits <;> rfl

@[simp] theorem undelivered_afterRead (k fd : ℕ) (isWritable : Bool) :
    (afterRead fd isWritable).undelivered k = [] := by
  cases isWritable <;> rfl

theorem dispatch_intake (hidle : s.handler = .idle) {event : Event} {batch : List Event}
    (hbatch : s.batch = event :: batch) (input : Input) :
    s.Intake serverFd eventFd host (.io input) ({ s with batch := batch }.dispatch serverFd eventFd event) := by
  have hnone : ∀ k, s.handler.undelivered k = [] := fun k => by rw [hidle]; rfl
  obtain ⟨applied, happlied⟩ := noteApplied_eq { s with batch := batch } event
  unfold dispatch
  rw [happlied]
  split
  · exact .still (.of_idle hnone fun _ => rfl)
  rename_i hserver
  split
  · exact .still (.of_idle hnone fun _ => rfl)
  rename_i hevent
  split
  · -- a hangup removes the connection before anything is read from it
    rename_i hclosed
    have hstill : s.Still { s with batch := batch, applied := applied } := .of_idle hnone hnone
    have hremoving : s.removing serverFd eventFd (.io input) = some event.fd := by
      simp only [removing, hidle, hbatch]
      exact if_pos ⟨hserver, hevent, hclosed⟩
    rw [← removeConnect_with_handler]
    exact .remove hstill hnone hnone hremoving
  split
  · exact .still (.of_idle hnone fun _ => rfl)
  split
  · exact .still (.of_idle hnone fun _ => rfl)
  · exact .still (.of_idle hnone hnone)

theorem accepting_intake (hhandler : s.handler = .accepting) (input : Input) :
    s.Intake serverFd eventFd host (.io input) (s.accepting serverFd eventFd input) := by
  have hnone : ∀ k, s.handler.undelivered k = [] := fun k => by rw [hhandler]; rfl
  cases input with
  | accept fd isRegistered freshHeader =>
    simp only [accepting]
    split
    · exact .still (.refl s)
    split
    · exact .add hnone
    · exact .still (.of_idle hnone fun _ => rfl)
  | noConnection => exact .still (.of_idle hnone fun _ => rfl)
  | _ => exact .still (.refl s)

theorem draining_intake (hhandler : s.handler = .draining) (input : Input) :
    s.Intake serverFd eventFd host (.io input) (s.draining input) := by
  have hnone : ∀ k, s.handler.undelivered k = [] := fun k => by rw [hhandler]; rfl
  cases input with
  | order fds =>
    simp only [draining]
    split
    · exact .still (.of_idle hnone hnone)
    split
    · exact .still (.of_idle hnone fun _ => rfl)
    · exact .still (.refl s)
  | _ => exact .still (.refl s)

theorem popping_intake {fd : ℕ} {frames : List PosixFrame} {visits : Option (List ℕ)}
    (hhandler : s.handler = .popping fd frames visits) :
    s.Intake serverFd eventFd host action (s.popping fd frames visits) := by
  have hnone : ∀ k, s.handler.undelivered k = [] := fun k => by rw [hhandler]; rfl
  unfold popping
  split
  · exact .still (.of_idle hnone fun k => undelivered_afterWrite k visits)
  unfold ReactorMailBox.popFromToClientQueue
  split
  · rename_i frame mailBox hpop
    split at hpop
    · obtain ⟨-, rfl⟩ := Prod.mk.inj (Option.some.inj hpop)
      exact .still (.of_mailBox (fun k => (hnone k).symm) fun _ h => h)
    · exact absurd hpop (by simp)
  · exact .still (.of_idle hnone fun _ => rfl)

/-- A write keeps what was read. -/
theorem write_intake {context context' : ConnectContext} {frames : List PosixFrame} {results : List SysResult}
    {hasWrite : ℕ} {status : StatusLevel} (h : context.write frames results = .ok (context', hasWrite, status)) :
    intake context' = intake context := by
  rw [write_context h]
  rfl

theorem Still.handOver (context : ConnectContext) (frames : List PosixFrame) (hasWrite : ℕ) :
    s.Still (s.handOver context frames hasWrite) where
  contexts := fun _ => rfl
  incoming := socket_update Socket.incoming rfl
  unread := socket_update Socket.unread rfl
  requests := rfl
  toServer := fun _ h => h
  removed := rfl
  accepted := rfl
  undelivered := fun _ => rfl

theorem flushing_intake {fd : ℕ} {frames : List PosixFrame} {visits : Option (List ℕ)}
    (hhandler : s.handler = .flushing fd frames visits) (input : Input) :
    s.Intake serverFd eventFd host (.io input) (s.flushing fd frames visits input) := by
  have hnone : ∀ k, s.handler.undelivered k = [] := fun k => by rw [hhandler]; rfl
  cases input with
  | write results resume =>
    simp only [flushing]
    split
    · exact .still (.of_idle hnone fun k => undelivered_afterWrite k visits)
    rename_i context hcontext
    split
    · exact .still (.refl s)
    rename_i context' hasWrite status hwrite
    split
    · rename_i hstatus
      rw [hstatus] at hwrite
      have hremoving : s.removing serverFd eventFd (.io (.write results resume)) = some fd := by
        simp only [removing, hhandler, hcontext, hwrite]
      exact .remove (Still.handOver context frames hasWrite) hnone (fun k => undelivered_afterWrite k _) hremoving
    · refine .still { Still.handOver context frames hasWrite with
                      contexts := fun _ => Table.map_lookup_insert hcontext (write_intake hwrite)
                      undelivered := fun k => ?_ }
      rw [hnone, undelivered_afterWrite]
  | _ => exact .still (.refl s)

theorem finishReading_intake {fd : ℕ} {isWritable : Bool} {context : ConnectContext} {result : SysResult}
    (hhandler : s.handler = .reading fd isWritable) (hcontext : s.connectContexts.lookup fd = some context) :
    s.Intake serverFd eventFd host (.io (.read result)) (s.finishReading host fd isWritable context) := by
  unfold finishReading
  split
  · exact .still (.refl s)
  · rename_i frames context' hframes
    exact .finish ⟨result, rfl⟩ hhandler hcontext hframes

theorem reading_intake {fd : ℕ} {isWritable : Bool} (hhandler : s.handler = .reading fd isWritable)
    (input : Input) : s.Intake serverFd eventFd host (.io input) (s.reading host fd isWritable input) := by
  have hnone : ∀ k, s.handler.undelivered k = [] := fun k => by rw [hhandler]; rfl
  cases input with
  | read result =>
    simp only [reading]
    split
    · exact .still (.of_idle hnone fun k => undelivered_afterRead k fd isWritable)
    rename_i context hcontext
    split
    · have hremoving : s.removing serverFd eventFd (.io (.read .failed)) = some fd := by
        simp only [removing, hhandler]
      exact .remove (.refl s) hnone (fun k => undelivered_afterRead k fd isWritable) hremoving
    · exact .still (.refl s)
    · rename_i byte unread hunread
      rw [← hunread]
      exact .chunk hcontext
    · split
      · exact finishReading_intake serverFd eventFd host hhandler hcontext
      · exact .still (.refl s)
    · exact .still (.refl s)
    · exact finishReading_intake serverFd eventFd host hhandler hcontext
  | _ => exact .still (.refl s)

theorem delivering_intake {origin fd : ℕ} {frames : List PosixFrame} {isWritable : Bool}
    (hhandler : s.handler = .delivering origin fd frames isWritable) :
    s.Intake serverFd eventFd host action (s.delivering origin fd isWritable frames) := by
  cases frames with
  | nil =>
    refine .still (.of_handler fun k => ?_)
    rw [undelivered_afterRead, hhandler, Handler.undelivered]
    split <;> rfl
  | cons frame frames =>
    simp only [delivering]
    split
    · exact .still (.refl s)
    · rename_i mailBox hpush
      exact .deliver hhandler hpush

/-- **What a step does to what the peers have sent.** -/
theorem step_intake (action : LoopAction) :
    s.Intake serverFd eventFd host action (s.step serverFd eventFd host action) := by
  cases action with
  | wait batch =>
    simp only [step]
    split
    · exact .still (.of_handler fun _ => rfl)
    · exact .still (.refl s)
  | io input =>
    simp only [step, io]
    split
    · rename_i hidle
      split
      · exact .still (.refl s)
      · rename_i event batch hbatch
        exact dispatch_intake serverFd eventFd host hidle hbatch input
    · rename_i hhandler
      exact accepting_intake serverFd eventFd host hhandler input
    · rename_i hhandler
      exact draining_intake serverFd eventFd host hhandler input
    · rename_i visits hhandler
      have hnone : ∀ k, s.handler.undelivered k = [] := fun k => by rw [hhandler]; rfl
      cases visits <;> exact .still (.of_idle hnone fun _ => rfl)
    · rename_i hhandler
      exact popping_intake serverFd eventFd host hhandler
    · rename_i hhandler
      exact flushing_intake serverFd eventFd host hhandler input
    · rename_i hhandler
      exact reading_intake serverFd eventFd host hhandler input
    · rename_i hhandler
      exact delivering_intake serverFd eventFd host hhandler
  | arrive socket data =>
    simp only [step]
    split
    · rename_i h
      exact .arrive h.1
    · exact .still (.refl s)
  | shutdown socket =>
    -- the peer's end is marked, and no byte is taken or added
    exact .still ⟨fun _ => rfl, socket_update Socket.incoming rfl, socket_update Socket.unread rfl,
      rfl, fun _ h => h, rfl, rfl, fun _ => rfl⟩
  | take =>
    simp only [step, ReactorMailBox.popFromToServerFrame]
    split
    · exact .still (.refl s)
    · rename_i received mailBox hpop
      split at hpop
      · exact absurd hpop (by simp)
      · rename_i queue hqueue
        obtain ⟨-, rfl⟩ := Prod.mk.inj (Option.some.inj hpop)
        -- a frame that is taken for the business thread has been delivered before
        refine .still (.of_mailBox (fun _ => rfl) fun received' h => ?_)
        rw [hqueue]
        exact List.mem_cons_of_mem _ h
  | push frame =>
    simp only [step, ReactorMailBox.pushToClientFrame]
    split
    · exact .still (.refl s)
    · rename_i mailBox hpush
      obtain ⟨queue, -, rfl⟩ := Option.map_eq_some_iff.1 hpush
      exact .still (.of_mailBox (fun _ => rfl) fun _ h => h)
  | signal =>
    simp only [step]
    split
    · exact .still (.refl s)
    · exact .still ⟨fun _ => rfl, fun _ => rfl, fun _ => rfl, rfl, fun _ h => h, rfl, rfl, fun _ => rfl⟩

end EventLoop

end ProjectTrans
