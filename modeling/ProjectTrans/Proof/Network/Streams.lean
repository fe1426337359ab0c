import ProjectTrans.Proof.Network.HalfClose
import ProjectTrans.Proof.Network.WritePath

/-!
# The two streams of a socket

What a socket has taken are the first bytes of what was pushed for its connection
(`Sends`). What was read from it are the first frames of what its peer has sent, and
nothing of a live connection is missing (`Receives`). Both hold of live connections and of
those that are gone.
-/

namespace ProjectTrans

open Wire Framing

open FrameAssembler (format)

namespace EventLoop

variable {s s' : EventLoop} {action : LoopAction}

/-! ## What a socket has taken -/

/-- The frames pushed for the connection of a socket. -/
def pushedFor (s : EventLoop) (k : ℕ) : List PosixFrame := s.pushed.filter fun frame => frame.connectId.toNat = k

/-- Sockets have taken only what was pushed for them, from the start and without a gap. -/
def Sends (s : EventLoop) : Prop := ∀ k, (s.sockets k).outgoing <+: PosixFrame.bytes (s.pushedFor k)

theorem Sends.init : init.Sends := fun _ => List.prefix_rfl

theorem pushedTo_eq (h : s.Connected) {fd : ℕ} {context : ConnectContext}
    (hcontext : s.connectContexts.lookup fd = some context) :
    s.pushedTo context.connectId = s.pushedFor context.socket := by
  refine List.filter_congr fun frame _ => ?_
  rw [← h.ids fd context hcontext, decide_eq_decide, UInt64.toNat_inj]

theorem removeConnect_pushedFor (s : EventLoop) (fd k : ℕ) :
    (s.removeConnect fd).pushedFor k = s.pushedFor k := by
  rw [pushedFor, removeConnect_pushed, pushedFor]

/-- A write goes on where the last one stopped. -/
theorem Sends.handOver (h : s.Sends) (hwritten : s.Written) (hconnected : s.Connected) {fd : ℕ}
    {frames : List PosixFrame}
    {visits : Option (List ℕ)} {context : ConnectContext} (hhandler : s.handler = .flushing fd frames visits)
    (hcontext : s.connectContexts.lookup fd = some context) (hasWrite : ℕ) :
    (s.handOver context frames hasWrite).Sends := by
  intro k
  show (Function.update s.sockets context.socket _ k).outgoing <+: PosixFrame.bytes (s.pushedFor k)
  by_cases hk : k = context.socket
  · subst hk
    have hmem : context.connectId ∈ s.mailBox.toClientQueues :=
      (hconnected.queues _).2 ⟨fd, context, hcontext, rfl⟩
    obtain ⟨queue, hqueue⟩ := Option.isSome_iff_exists.1 (AList.lookup_isSome.2 hmem)
    have hlaw := hwritten.law fd context queue hcontext hqueue
    rw [hhandler, Handler.inHand, if_pos rfl, pushedTo_eq hconnected hcontext,
      ← List.append_assoc context.writeBuffer]
      at hlaw
    rw [Function.update_self, ← hlaw]
    refine (List.prefix_append_right_inj _).2 ?_
    exact (List.take_prefix _ _).trans (List.prefix_append _ _)
  · rw [Function.update_of_ne hk]
    exact h k

/-- **Nothing else is written** over any change. -/
theorem Sends.change (h : s.Sends) (hwritten : s.Written) (hconnected : s.Connected)
    (hchange : s.Change action s') : s'.Sends := by
  have hsame : ∀ {t : EventLoop}, s.Same t → t.Sends := by
    intro t ht k
    rw [ht.outgoing, pushedFor, ht.pushed]
    exact h k
  cases hchange with
  | same hs => exact hsame hs
  | add haction hhandler hfd => exact h
  | @remove t fd handler hs hhand hhand' hcomes =>
    intro k
    show ((t.removeConnect fd).sockets k).outgoing <+: PosixFrame.bytes ((t.removeConnect fd).pushedFor k)
    -- what the socket has taken stays, and so does what was pushed for it
    rw [removeConnect_sockets, removeConnect_pushedFor]
    exact hsame hs k
  | pop hhandler hcontext hqueue => exact h
  | flush haction hhandler hcontext hwrite hstatus => exact h.handOver hwritten hconnected hhandler hcontext _
  | @flushFailed fd frames visits context context' results hasWrite visits' haction hhandler hcontext hwrite =>
    intro k
    show (((s.handOver context frames hasWrite).removeConnect fd).sockets k).outgoing <+:
      PosixFrame.bytes (((s.handOver context frames hasWrite).removeConnect fd).pushedFor k)
    rw [removeConnect_sockets, removeConnect_pushedFor]
    exact h.handOver hwritten hconnected hhandler hcontext hasWrite k
  | @push frame queue haction hqueue =>
    intro k
    refine (h k).trans ?_
    show PosixFrame.bytes _ <+: PosixFrame.bytes ((s.pushed ++ [frame]).filter _)
    -- more is pushed, so what was taken is still the beginning
    rw [List.filter_append, bytes_append]
    exact List.prefix_append _ _

/-- What a socket has taken, it has taken. -/
theorem Change.outgoing_extends (h : s.Change action s') (k : ℕ) :
    (s.sockets k).outgoing <+: (s'.sockets k).outgoing := by
  have hover : ∀ (context : ConnectContext) (frames : List PosixFrame) (hasWrite : ℕ),
      (s.sockets k).outgoing <+: ((s.handOver context frames hasWrite).sockets k).outgoing := by
    intro context frames hasWrite
    show _ <+: (Function.update s.sockets context.socket _ k).outgoing
    by_cases hk : k = context.socket
    · rw [hk, Function.update_self]
      exact List.prefix_append _ _
    · rw [Function.update_of_ne hk]
  cases h with
  | same hs => rw [hs.outgoing]
  | @remove t fd handler hs hhand hhand' hcomes =>
    show _ <+: ((t.removeConnect fd).sockets k).outgoing
    rw [removeConnect_sockets, hs.outgoing]
  | flush haction hhandler hcontext hwrite hstatus => exact hover _ _ _
  | @flushFailed fd frames visits context context' results hasWrite visits' haction hhandler hcontext hwrite =>
    show _ <+: (((s.handOver context frames hasWrite).removeConnect fd).sockets k).outgoing
    rw [removeConnect_sockets]
    exact hover _ _ _
  | _ => exact List.prefix_rfl

/-! ## What was read from a socket -/

/-- The connections that are gone are forgotten. -/
def forget (s : EventLoop) : EventLoop := { s with removed := [] }

/-- What was read from a socket are the first frames of what its peer has sent; of a live
connection, the rest is in the assembler or unread. -/
structure Receives (s : EventLoop) : Prop where
  live : s.forget.Intact
  frames : ∀ k, ∀ f ∈ s.taken k, IsFrame format f
  begins : ∀ k, (s.taken k).flatten <+: (s.sockets k).incoming

theorem Receives.init : init.Receives where
  live := .init
  frames := fun _ _ h => absurd h List.not_mem_nil
  begins := fun _ => List.nil_prefix

theorem Receives.still (h : s.Receives) (hs : s.Still s') : s'.Receives where
  live := h.live.still ⟨hs.contexts, hs.incoming, hs.unread, hs.requests, hs.toServer, rfl, hs.accepted,
    hs.undelivered⟩
  frames := by
    intro k
    rw [hs.taken]
    exact h.frames k
  begins := by
    intro k
    rw [hs.taken, hs.incoming]
    exact h.begins k

/-- A connection is removed, whatever is left of it. -/
theorem Receives.remove (h : s.Receives) {fd : ℕ} {handler : Handler}
    (hbefore : ∀ k, s.handler.undelivered k = [])
    (hafter : ∀ k, handler.undelivered k = []) : { s.removeConnect fd with handler := handler }.Receives := by
  set s' : EventLoop := { s.removeConnect fd with handler := handler } with hs'
  -- no frame is in the handler's hands, before and after
  have htaken : ∀ k, s'.taken k = s.taken k := by
    intro k
    rw [taken_of_undelivered (hbefore k), taken_of_undelivered (hafter k)]
    simp only [requestsOf, hs', removeConnect_requests]
  have hsockets : s'.sockets = s.sockets := removeConnect_sockets s fd
  refine ⟨⟨fun fd' context hcontext => ?_, fun _ hgone => absurd hgone List.not_mem_nil, fun k hk => ?_⟩,
    fun k => ?_, fun k => ?_⟩
  · obtain ⟨-, hold⟩ := removeConnect_lookup hcontext
    show context.frameAssembler.Inv ∧ (∀ f ∈ s'.taken context.socket, IsFrame format f) ∧
      (s'.taken context.socket).flatten ++ (context.frameAssembler.pending ++
        (s'.sockets context.socket).unread) =
        (s'.sockets context.socket).incoming
    rw [htaken, hsockets]
    exact h.live.live fd' context hold
  · show s'.taken k = [] ∧ (s'.sockets k).incoming = [] ∧ (s'.sockets k).unread = []
    rw [htaken, hsockets]
    have hle : (s.removeConnect fd).accepted ≤ k := hk
    rw [removeConnect_accepted] at hle
    exact h.live.fresh k hle
  · rw [htaken]
    exact h.frames k
  · rw [htaken, hsockets]
    exact h.begins k

/-- A frame that is put into the queue was read before. -/
theorem taken_deliver {origin fd : ℕ} {frame : PosixFrame} {frames : List PosixFrame} {isWritable : Bool}
    {mailBox : ReactorMailBox} (hhandler : s.handler = .delivering origin fd (frame :: frames) isWritable)
    (k : ℕ) : EventLoop.taken { s with
      mailBox := mailBox
      requests := s.requests ++ [⟨origin, frame⟩]
      handler := .delivering origin fd frames isWritable } k = s.taken k := by
  by_cases hk : origin = k
  · simp [taken, requestsOf, hhandler, Handler.undelivered, hk]
  · simp [taken, requestsOf, hhandler, Handler.undelivered, hk]

/-- **Nothing else is read** over a step. -/
theorem Receives.step (h : s.Receives) (serverFd eventFd : ℕ) (host : Endian) (hdistinct : s.Distinct)
    (hsmall : s.readsSmall action = true) : (s.step serverFd eventFd host action).Receives := by
  have hintake := step_intake serverFd eventFd host (s := s) action
  generalize s.step serverFd eventFd host action = s' at hintake
  have hforget : s.forget.Distinct := ⟨hdistinct.accepted, hdistinct.sockets⟩
  cases hintake with
  | still hs => exact h.still hs
  | @add fd freshHeader hhandler => exact ⟨h.live.add fd freshHeader, h.frames, h.begins⟩
  | remove hs hbefore hafter hremoving => exact (h.still hs).remove hbefore hafter
  | @arrive k data hk =>
    refine ⟨h.live.arrive hk, h.frames, fun j => (h.begins j).trans ?_⟩
    show (s.sockets j).incoming <+: (Function.update s.sockets k _ j).incoming
    by_cases hj : j = k
    · subst hj
      rw [Function.update_self]
      exact List.prefix_append _ _
    · rw [Function.update_of_ne hj]
  | @chunk fd size context hcontext =>
    refine ⟨h.live.chunk hforget hcontext, h.frames, fun j => ?_⟩
    show (s.taken j).flatten <+: (Function.update s.sockets context.socket _ j).incoming
    have hsame : ∀ k, (Function.update s.sockets context.socket { s.sockets context.socket with
        unread := (s.sockets context.socket).unread.drop size } k).incoming = (s.sockets k).incoming :=
      socket_update Socket.incoming rfl
    rw [hsame]
    exact h.begins j
  | @finish fd isWritable context context' frames haction hhandler hcontext hframes =>
    obtain ⟨result, rfl⟩ := haction
    simp only [readsSmall, hhandler, hcontext, Option.all_some, List.all_eq_true, decide_eq_true_eq] at hsmall
    have hlive := h.live.finish host hforget hhandler hcontext hframes hsmall
    -- the socket that was read is live; of the others nothing was read
    have hread := hlive.live fd context' (AList.lookup_insert _)
    have hsocket : context'.socket = context.socket := by
      obtain ⟨popped, -, hmade⟩ := Checked.bind_eq_ok.1 hframes
      rw [← (Prod.mk.inj (Except.ok.inj hmade)).2]
    have hother : ∀ k, k ≠ context.socket → EventLoop.taken { s with
        connectContexts := s.connectContexts.insert fd context'
        handler := .delivering context.socket fd frames isWritable } k = s.taken k := by
      intro k hk
      have hbefore : s.handler.undelivered k = [] := by rw [hhandler]; rfl
      have hafter : (Handler.delivering context.socket fd frames isWritable).undelivered k = [] :=
        if_neg (Ne.symm hk)
      rw [taken_of_undelivered hbefore, taken_of_undelivered hafter]
      rfl
    rw [hsocket] at hread
    refine ⟨hlive, fun k => ?_, fun k => ?_⟩
    · by_cases hk : k = context.socket
      · rw [hk]
        exact hread.2.1
      · rw [hother k hk]
        exact h.frames k
    · by_cases hk : k = context.socket
      · rw [hk]
        exact ⟨_, hread.2.2⟩
      · rw [hother k hk]
        exact h.begins k
  | @deliver origin fd frame frames isWritable mailBox hhandler hpush =>
    refine ⟨h.live.deliver hhandler, fun k => ?_, fun k => ?_⟩
    · rw [taken_deliver hhandler]
      exact h.frames k
    · rw [taken_deliver hhandler]
      exact h.begins k

/-- **The complete frames of a live connection**: those that were read, and those that are
still there. -/
theorem Receives.frames_eq (h : s.Receives) {fd : ℕ} {context : ConnectContext}
    (hcontext : s.connectContexts.lookup fd = some context) :
    Framing.frames format (s.sockets context.socket).incoming =
      s.taken context.socket ++ Framing.frames format (s.unserved context) := by
  obtain ⟨-, -, hbytes⟩ := h.live.live fd context hcontext
  rw [← Framing.frames_append (by decide) (h.frames context.socket)]
  exact congrArg (Framing.frames format) hbytes.symm

/-- What was read are frames that the peer has sent. -/
theorem Receives.taken_prefix (h : s.Receives) (k : ℕ) :
    s.taken k <+: Framing.frames format (s.sockets k).incoming := by
  obtain ⟨rest, hrest⟩ := h.begins k
  rw [← hrest, Framing.frames_append (by decide) (h.frames k)]
  exact List.prefix_append _ _

end EventLoop

end ProjectTrans
