import ProjectTrans.Proof.Network.Streams
import ProjectTrans.Proof.Server.Isolation

/-!
# A peer is answered in order (`server/runtime`, `network/event_loop`)

There is one business thread. It takes the requests in the order in which the loop's thread
has read them, and answers one before it takes the next (`Logged`). So the bytes that a peer
gets are the first bytes of the answers to the first frames of what it has sent, in
order, whatever the two threads and the other peers do and however the bytes of both streams
come in pieces (`answered_in_order`).
-/

namespace ProjectTrans

open Wire Framing

open FrameAssembler (format)

namespace EventLoop

variable {s s' : EventLoop} (serverFd eventFd : ℕ) (host : Endian)

/-! ## Requests that wait -/

/-- Requests are added at the end, and wait in that order; nothing arrives. -/
structure Queued (s s' : EventLoop) : Prop where
  added : ∃ added, s'.requests = s.requests ++ added ∧
    s'.mailBox.toServerFrameQueue = s.mailBox.toServerFrameQueue ++ added
  incoming : ∀ k, (s'.sockets k).incoming = (s.sockets k).incoming

theorem Queued.of_eq (hrequests : s'.requests = s.requests)
    (hqueue : s'.mailBox.toServerFrameQueue = s.mailBox.toServerFrameQueue)
    (hincoming : ∀ k, (s'.sockets k).incoming = (s.sockets k).incoming) : s.Queued s' :=
  ⟨⟨[], by rw [hrequests, List.append_nil], by rw [hqueue, List.append_nil]⟩, hincoming⟩

theorem Queued.refl (s : EventLoop) : s.Queued s := .of_eq rfl rfl fun _ => rfl

theorem Queued.removeConnect (s : EventLoop) (fd : ℕ) : s.Queued (s.removeConnect fd) :=
  .of_eq (removeConnect_requests s fd) (removeConnect_toServer s fd) fun k => by rw [removeConnect_sockets]

theorem dispatch_queued (s : EventLoop) (event : Event) : s.Queued (s.dispatch serverFd eventFd event) := by
  obtain ⟨applied, happlied⟩ := s.noteApplied_eq event
  unfold dispatch
  rw [happlied]
  split
  · exact .of_eq rfl rfl fun _ => rfl
  split
  · exact .of_eq rfl rfl fun _ => rfl
  split
  · have hremoved := Queued.removeConnect { s with applied := applied } event.fd
    exact ⟨hremoved.added, hremoved.incoming⟩
  split
  · exact .of_eq rfl rfl fun _ => rfl
  split <;> exact .of_eq rfl rfl fun _ => rfl

theorem accepting_queued (s : EventLoop) (input : Input) : s.Queued (s.accepting serverFd eventFd input) := by
  cases input with
  | accept fd isRegistered freshHeader =>
    simp only [accepting]
    split
    · exact .refl s
    split <;> exact .of_eq rfl rfl fun _ => rfl
  | _ => exact .of_eq rfl rfl fun _ => rfl

theorem draining_queued (s : EventLoop) (input : Input) : s.Queued (s.draining input) := by
  cases input with
  | order fds =>
    simp only [draining]
    split
    · exact .of_eq rfl rfl fun _ => rfl
    split <;> exact .of_eq rfl rfl fun _ => rfl
  | _ => exact .refl s

theorem popping_queued (s : EventLoop) (fd : ℕ) (frames : List PosixFrame) (visits : Option (List ℕ)) :
    s.Queued (s.popping fd frames visits) := by
  unfold popping
  split
  · exact .of_eq rfl rfl fun _ => rfl
  unfold ReactorMailBox.popFromToClientQueue
  split
  · rename_i frame mailBox hpop
    split at hpop
    · obtain ⟨-, rfl⟩ := Prod.mk.inj (Option.some.inj hpop)
      exact .of_eq rfl rfl fun _ => rfl
    · exact absurd hpop (by simp)
  · exact .of_eq rfl rfl fun _ => rfl

theorem flushing_queued (s : EventLoop) (fd : ℕ) (frames : List PosixFrame) (visits : Option (List ℕ))
    (input : Input) : s.Queued (s.flushing fd frames visits input) := by
  cases input with
  | write results resume =>
    simp only [flushing]
    split
    · exact .of_eq rfl rfl fun _ => rfl
    rename_i context hcontext
    split
    · exact .refl s
    rename_i context' hasWrite status hwrite
    have hsockets : ∀ k, ((s.handOver context frames hasWrite).sockets k).incoming = (s.sockets k).incoming :=
      socket_update Socket.incoming (by rfl)
    split
    · refine .of_eq (removeConnect_requests _ fd) (removeConnect_toServer _ fd) fun k => ?_
      show (((s.handOver context frames hasWrite).removeConnect fd).sockets k).incoming = _
      rw [removeConnect_sockets]
      exact hsockets k
    · exact .of_eq rfl rfl hsockets
  | _ => exact .refl s

theorem reading_queued (s : EventLoop) (fd : ℕ) (isWritable : Bool) (input : Input) :
    s.Queued (s.reading host fd isWritable input) := by
  cases input with
  | read result =>
    have hfinish : ∀ context, s.Queued (s.finishReading host fd isWritable context) := by
      intro context
      unfold finishReading
      split <;> exact .of_eq rfl rfl fun _ => rfl
    simp only [reading]
    split
    · exact .of_eq rfl rfl fun _ => rfl
    split
    · have hremoved := Queued.removeConnect s fd
      exact ⟨hremoved.added, hremoved.incoming⟩
    · exact .refl s
    · exact .of_eq rfl rfl (socket_update Socket.incoming (by rfl))
    · split
      · exact hfinish _
      · exact .refl s
    · exact .refl s
    · exact hfinish _
  | _ => exact .refl s

/-- A frame that is delivered is the last of the requests and the last that waits. -/
theorem delivering_queued (s : EventLoop) (origin fd : ℕ) (isWritable : Bool) (frames : List PosixFrame) :
    s.Queued (s.delivering origin fd isWritable frames) := by
  cases frames with
  | nil => exact .of_eq rfl rfl fun _ => rfl
  | cons frame frames =>
    simp only [delivering, ReactorMailBox.pushToServerFrame]
    split
    · exact .refl s
    · rename_i mailBox hpush
      split at hpush
      · obtain rfl := Option.some.inj hpush
        exact ⟨⟨[⟨origin, frame⟩], rfl, rfl⟩, fun _ => rfl⟩
      · exact absurd hpush (by simp)

/-- **The loop's thread keeps the order** of what waits. -/
theorem io_queued (s : EventLoop) (input : Input) : s.Queued (s.io serverFd eventFd host input) := by
  simp only [io]
  split
  · split
    · exact .refl s
    · rename_i event batch hbatch
      have hdispatch := dispatch_queued serverFd eventFd { s with batch := batch } event
      exact ⟨hdispatch.added, hdispatch.incoming⟩
  · exact accepting_queued serverFd eventFd s input
  · exact draining_queued s input
  · rename_i visits hhandler
    cases visits <;> exact .of_eq rfl rfl fun _ => rfl
  · exact popping_queued s _ _ _
  · exact flushing_queued s _ _ _ input
  · exact reading_queued host s _ _ input
  · exact delivering_queued s _ _ _ _

/-- Whatever else happens keeps it too, unless a request is taken or bytes arrive. -/
theorem step_queued (s : EventLoop) (action : LoopAction) (htake : action ≠ .take)
    (harrive : ∀ k data, action ≠ .arrive k data) : s.Queued (s.step serverFd eventFd host action) := by
  cases action with
  | wait batch =>
    simp only [step]
    split <;> exact .of_eq rfl rfl fun _ => rfl
  | io input => exact io_queued serverFd eventFd host s input
  | arrive socket data => exact absurd rfl (harrive socket data)
  | shutdown socket => exact .of_eq rfl rfl (socket_update Socket.incoming (by rfl))
  | take => exact absurd rfl htake
  | push frame =>
    simp only [step, ReactorMailBox.pushToClientFrame]
    split
    · exact .refl s
    · rename_i mailBox hpush
      obtain ⟨queue, -, rfl⟩ := Option.map_eq_some_iff.1 hpush
      exact .of_eq rfl rfl fun _ => rfl
  | signal =>
    simp only [step]
    split <;> exact .of_eq rfl rfl fun _ => rfl

/-- **Requests wait in order** over every step, unless one is taken. -/
theorem step_added (s : EventLoop) (action : LoopAction) (htake : action ≠ .take) :
    ∃ added, (s.step serverFd eventFd host action).requests = s.requests ++ added ∧
      (s.step serverFd eventFd host action).mailBox.toServerFrameQueue =
        s.mailBox.toServerFrameQueue ++ added := by
  by_cases harrive : ∃ k data, action = .arrive k data
  · obtain ⟨k, data, rfl⟩ := harrive
    simp only [step]
    split <;> exact ⟨[], by simp, by simp⟩
  · exact (step_queued serverFd eventFd host s action htake fun k data heq => harrive ⟨k, data, heq⟩).added

/-- What a peer has sent grows only when bytes of it arrive. -/
theorem step_incoming (s : EventLoop) (action : LoopAction) {k : ℕ} (harrive : ∀ data, action ≠ .arrive k data) :
    ((s.step serverFd eventFd host action).sockets k).incoming = (s.sockets k).incoming := by
  cases action with
  | arrive j data =>
    simp only [step]
    split
    · have hne : k ≠ j := fun heq => harrive data (by rw [heq])
      show (Function.update s.sockets j _ k).incoming = _
      rw [Function.update_of_ne hne]
    · rfl
  | take =>
    simp only [step]
    split <;> rfl
  | _ => exact (step_queued serverFd eventFd host s _ (by simp) (by simp)).incoming k

end EventLoop

/-- What a business thread finds when it handles a request. -/
def ServerAction.serves (served : FileService → Prop) : ServerAction → Prop
  | handleRequest _ files _ => served files
  | _ => True

namespace Server

variable (serverFd eventFd : ℕ) (host : Endian) (text : SerializeField → Bytes) (served : FileService → Prop)

/-- There is one business thread, and neither a write of `2 ^ 31` bytes nor a frame of `2 ^ 32`. -/
def orderly (s : Server) : ServerAction → Bool
  | .loop action => s.loop.smallWrite action && s.loop.readsSmall action
  | .take => s.serving.isEmpty
  | .handleRequest _ _ _ => true

/-- The responses to the requests of a socket. -/
def responsesTo (s : Server) (k : ℕ) : List PosixFrame :=
  (s.responses.filter fun response => response.1 = k).map Prod.snd

/-- The frames of a socket that were read and are not answered yet. -/
def waiting (s : Server) (k : ℕ) : List Bytes :=
  ((s.serving ++ s.loop.mailBox.toServerFrameQueue).filter fun received => received.origin = k).map
    (fun received => received.frame.data) ++ (s.loop.handler.undelivered k).map PosixFrame.data

/-! ## What was answered -/

/-- The requests that were answered, in order, each with its response if there is one. -/
structure Logged (s : Server) (log : List (Received × Option PosixFrame)) : Prop where
  order : log.map Prod.fst ++ (s.serving ++ s.loop.mailBox.toServerFrameQueue) = s.loop.requests
  one : s.serving.length ≤ 1
  answers : ∀ answer ∈ log, ∃ files fresh, served files ∧
    BusinessRuntime.handleRequest host files text fresh answer.1.frame.data answer.1.frame.connectId =
      .ok answer.2
  responses : s.responses = log.filterMap fun answer => answer.2.map fun frame => (answer.1.origin, frame)

/-- Responses were pushed in order; those for a live connection all were. -/
structure Pushed (s : Server) : Prop where
  begins : ∀ k, s.loop.pushedFor k <+: s.responsesTo k
  live : ∀ fd context, s.loop.connectContexts.lookup fd = some context →
    s.loop.pushedFor context.socket = s.responsesTo context.socket

/-- What is so in every state of a run that is orderly. -/
structure Orderly (s : Server) : Prop where
  inv : s.Inv host text
  written : s.loop.Written
  sends : s.loop.Sends
  receives : s.loop.Receives
  pushed : s.Pushed
  logged : ∃ log, s.Logged host text served log

theorem Orderly.init : init.Orderly host text served where
  inv := .init host text
  written := .init
  sends := .init
  receives := .init
  pushed := ⟨fun _ => List.prefix_rfl, fun _ _ h => absurd h (by simp [Server.init, EventLoop.init])⟩
  logged := ⟨[], rfl, Nat.zero_le _, fun _ h => absurd h List.not_mem_nil, rfl⟩

variable {serverFd eventFd host text served} {s : Server} {log : List (Received × Option PosixFrame)}

/-- A socket that is not accepted yet has no response. -/
theorem Orderly.responses_fresh (h : s.Orderly host text served) {k : ℕ} (hk : s.loop.accepted ≤ k) :
    s.responsesTo k = [] := by
  obtain ⟨htaken, -, -⟩ := h.receives.live.fresh k hk
  have hrequests : s.loop.requestsOf k = [] := (List.append_eq_nil_iff.1 htaken).1
  rw [responsesTo, List.map_eq_nil_iff, List.filter_eq_nil_iff]
  intro response hresponse horigin
  obtain ⟨received, hreceived, heq, -⟩ := h.inv.answers response hresponse
  have hmem : received.frame.data ∈ s.loop.requestsOf k := by
    refine List.mem_map.2 ⟨received, List.mem_filter.2 ⟨hreceived, ?_⟩, rfl⟩
    rw [decide_eq_true_eq] at horigin ⊢
    exact heq.trans horigin
  rw [hrequests] at hmem
  exact absurd hmem List.not_mem_nil

/-- Nothing was pushed for it either. -/
theorem pushedFor_fresh (h : s.loop.Written) {k : ℕ} (hk : s.loop.accepted ≤ k) : s.loop.pushedFor k = [] := by
  refine List.filter_eq_nil_iff.2 fun frame hframe hid => ?_
  rw [decide_eq_true_eq] at hid
  have hlt := h.known frame hframe
  omega

/-- A step that pushes nothing. -/
theorem Orderly.pushed_loop (h : s.Orderly host text served) {action : LoopAction} {loop' : EventLoop}
    (hchange : s.loop.Change action loop') (hpushed : loop'.pushed = s.loop.pushed) :
    Pushed { s with loop := loop' } := by
  have hsame : ∀ k, loop'.pushedFor k = s.loop.pushedFor k := fun k => by
    rw [EventLoop.pushedFor, hpushed, EventLoop.pushedFor]
  refine ⟨fun k => ?_, fun fd context' hcontext' => ?_⟩
  · show loop'.pushedFor k <+: s.responsesTo k
    rw [hsame]
    exact h.pushed.begins k
  · show loop'.pushedFor context'.socket = s.responsesTo context'.socket
    rw [hsame]
    rcases hchange.lookup hcontext' with ⟨context, hcontext, hid⟩ | ⟨-, -, -, hid, -⟩
    · rw [← (Prod.mk.inj hid).2]
      exact h.pushed.live fd context hcontext
    · -- a socket that is accepted now
      rw [(Prod.mk.inj hid).2, h.responses_fresh le_rfl, pushedFor_fresh h.written le_rfl]

theorem responsesTo_append (s : Server) (origin k : ℕ) (frame : PosixFrame) {loop : EventLoop}
    {serving : List Received} : responsesTo ⟨loop, serving, s.responses ++ [(origin, frame)]⟩ k =
      s.responsesTo k ++ if origin = k then [frame] else [] := by
  rw [responsesTo, List.filter_append, List.map_append, responsesTo]
  by_cases hk : origin = k
  · simp [hk]
  · simp [hk]

/-- A response is pushed, unless its connection is gone. -/
theorem Orderly.pushed_respond (h : s.Orderly host text served) {received : Received} {frame : PosixFrame}
    {serving : List Received} (hid : frame.connectId.toNat = received.origin) :
    Pushed ⟨s.loop.step serverFd eventFd host (.push frame), serving,
      s.responses ++ [(received.origin, frame)]⟩ := by
  simp only [EventLoop.step, ReactorMailBox.pushToClientFrame]
  cases hqueue : s.loop.mailBox.toClientQueues.lookup frame.connectId with
  | none =>
    -- no live connection has the id of the response
    have hgone : ∀ fd context, s.loop.connectContexts.lookup fd = some context →
        received.origin ≠ context.socket := by
      intro fd context hcontext heq
      have hne : frame.connectId ∉ s.loop.mailBox.toClientQueues := AList.lookup_eq_none.1 hqueue
      refine hne ((h.inv.connected.queues _).2 ⟨fd, context, hcontext, ?_⟩)
      rw [← UInt64.toNat_inj, h.inv.connected.ids fd context hcontext, hid, heq]
    refine ⟨fun k => ?_, fun fd context hcontext => ?_⟩
    · rw [responsesTo_append]
      exact (h.pushed.begins k).trans (List.prefix_append _ _)
    · rw [responsesTo_append, if_neg (hgone fd context hcontext), List.append_nil]
      exact h.pushed.live fd context hcontext
  | some queue =>
    have hfor : ∀ k, (s.loop.pushed ++ [frame]).filter (fun frame => frame.connectId.toNat = k) =
        s.loop.pushedFor k ++ if received.origin = k then [frame] else [] := by
      intro k
      rw [List.filter_append, EventLoop.pushedFor]
      by_cases hk : received.origin = k
      · simp [hid, hk]
      · simp [hid, hk]
    refine ⟨fun k => ?_, fun fd context hcontext => ?_⟩
    · rw [responsesTo_append]
      show (s.loop.pushed ++ [frame]).filter _ <+: _
      rw [hfor]
      by_cases hk : received.origin = k
      · -- the connection is live, and so nothing is missing before this response
        obtain ⟨fd, context, hcontext, hcid⟩ := (h.inv.connected.queues _).1 (Table.mem_of_lookup hqueue)
        have hsocket : context.socket = k := by
          rw [← h.inv.connected.ids fd context hcontext, hcid, hid, hk]
        rw [← hsocket, h.pushed.live fd context hcontext]
      · rw [if_neg hk, List.append_nil, List.append_nil]
        exact h.pushed.begins k
    · rw [responsesTo_append]
      show (s.loop.pushed ++ [frame]).filter _ = _
      rw [hfor, h.pushed.live fd context hcontext]

/-! ## Steps -/

/-- A step of the loop that neither takes nor pushes. -/
theorem Orderly.loop (h : s.Orderly host text served) {action : LoopAction} (htake : action ≠ .take)
    (hpush : ∀ frame, action ≠ .push frame) (hfew : (s.loop.step serverFd eventFd host action).accepted < 2 ^ 64)
    (hwrite : s.loop.smallWrite action = true) (hread : s.loop.readsSmall action = true) :
    Orderly host text served { s with loop := s.loop.step serverFd eventFd host action } := by
  have hchange := s.loop.step_change serverFd eventFd host action
  obtain ⟨added, hrequests, hqueue⟩ := s.loop.step_added serverFd eventFd host action htake
  have hpushed : (s.loop.step serverFd eventFd host action).pushed = s.loop.pushed := by
    rcases hchange.pushed with heq | ⟨frame, haction, -⟩
    · exact heq
    · exact absurd haction (hpush frame)
  obtain ⟨log, hlog⟩ := h.logged
  refine ⟨h.inv.loop serverFd eventFd action hfew hpush, h.written.change h.inv.connected hchange hwrite,
    h.sends.change h.written h.inv.connected hchange, h.receives.step serverFd eventFd host
    h.inv.connected.toDistinct hread, h.pushed_loop hchange hpushed, log, ?_, hlog.one, hlog.answers,
    hlog.responses⟩
  show log.map Prod.fst ++ (s.serving ++ (s.loop.step serverFd eventFd host action).mailBox.toServerFrameQueue) =
    (s.loop.step serverFd eventFd host action).requests
  rw [hrequests, hqueue, ← hlog.order]
  simp only [List.append_assoc]

/-- A request is taken when no other is served. -/
theorem Orderly.take (h : s.Orderly host text served) (hidle : s.serving = [])
    (hfew : (s.step serverFd eventFd host text .take).loop.accepted < 2 ^ 64) :
    (s.step serverFd eventFd host text .take).Orderly host text served := by
  have hinv := h.inv.step serverFd eventFd .take hfew
  revert hinv
  simp only [Server.step, ReactorMailBox.popFromToServerFrame]
  cases hqueue : s.loop.mailBox.toServerFrameQueue with
  | nil => exact fun _ => h
  | cons received queue =>
    intro hinv
    have hchange := s.loop.step_change serverFd eventFd host .take
    have hsmall : s.loop.readsSmall .take = true := rfl
    have hreceives := h.receives.step serverFd eventFd host h.inv.connected.toDistinct hsmall
    have htaken : s.loop.step serverFd eventFd host .take =
        { s.loop with mailBox := { s.loop.mailBox with toServerFrameQueue := queue } } := by
      simp only [EventLoop.step, ReactorMailBox.popFromToServerFrame, hqueue]
    have hpushed : (s.loop.step serverFd eventFd host .take).pushed = s.loop.pushed := by rw [htaken]
    have hloop := h.pushed_loop hchange hpushed
    obtain ⟨log, hlog⟩ := h.logged
    refine ⟨hinv, h.written.change h.inv.connected hchange rfl, h.sends.change h.written h.inv.connected hchange,
      hreceives, ⟨hloop.begins, hloop.live⟩, log, ?_, ?_, hlog.answers, hlog.responses⟩
    · -- the frame goes from the front of the queue into the thread's hands
      have horder := hlog.order
      rw [hidle, hqueue] at horder
      rw [htaken, hidle]
      exact horder
    · rw [hidle]
      exact le_rfl

/-- The request that is served is answered, or cannot be. -/
theorem Orderly.handleRequest (h : s.Orderly host text served) {received : Received} {files : FileService}
    {fresh : EnvelopeRequestTransfer} (hserved : served files)
    (hfew : (s.step serverFd eventFd host text (.handleRequest received files fresh)).loop.accepted < 2 ^ 64) :
    (s.step serverFd eventFd host text (.handleRequest received files fresh)).Orderly host text served := by
  have hinv := h.inv.step serverFd eventFd (.handleRequest received files fresh) hfew
  revert hinv
  simp only [Server.step]
  split
  · rename_i hserving
    obtain ⟨log, hlog⟩ := h.logged
    -- it is the only one
    have hone : s.serving = [received] := by
      have hle := hlog.one
      rcases hlist : s.serving with _ | ⟨first, _ | ⟨second, rest⟩⟩
      · rw [hlist] at hserving
        exact absurd hserving List.not_mem_nil
      · rw [hlist] at hserving
        rw [List.mem_singleton.1 hserving]
      · rw [hlist] at hle
        simp at hle
    have herase : s.serving.erase received = [] := by rw [hone, List.erase_cons_head]
    have horder : (log.map Prod.fst ++ [received]) ++ s.loop.mailBox.toServerFrameQueue = s.loop.requests := by
      rw [← hlog.order, hone, List.append_assoc]
    have hrequest : received ∈ s.loop.requests := h.inv.serving received hserving
    have hlogged : ∀ answer, BusinessRuntime.handleRequest host files text fresh received.frame.data
        received.frame.connectId = .ok answer → ∀ answer' ∈ log ++ [(received, answer)], ∃ files fresh,
        served files ∧
          BusinessRuntime.handleRequest host files text fresh answer'.1.frame.data answer'.1.frame.connectId =
            .ok answer'.2 := by
      intro answer hhandled answer' hanswer'
      rcases List.mem_append.1 hanswer' with hold | hnew
      · exact hlog.answers answer' hold
      · rw [List.mem_singleton.1 hnew]
        exact ⟨files, fresh, hserved, hhandled⟩
    split
    · -- the handler faults, and the request stays where it is
      exact fun _ => h
    · -- there is no answer: it is logged so, and nothing is pushed
      rename_i hhandled
      intro hinv
      refine ⟨hinv, h.written, h.sends, h.receives, ⟨h.pushed.begins, h.pushed.live⟩, log ++ [(received, none)],
        ?_, ?_, hlogged none hhandled, ?_⟩
      · rw [herase, List.map_append]
        exact horder
      · rw [herase]
        exact Nat.zero_le _
      · rw [List.filterMap_append]
        simpa using hlog.responses
    · -- the answer is pushed to the connection that asked, before the next request is taken
      rename_i frame hhandled
      intro hinv
      have hchange := s.loop.step_change serverFd eventFd host (.push frame)
      have hsmall : s.loop.readsSmall (.push frame) = true := rfl
      have hid : frame.connectId.toNat = received.origin := by
        rw [BusinessRuntime.handleRequest_connectId hhandled, h.inv.labelled.requests received hrequest]
      obtain ⟨added, hrequests, hqueue⟩ := s.loop.step_added serverFd eventFd host (.push frame) (by simp)
      refine ⟨hinv, h.written.change h.inv.connected hchange rfl,
        h.sends.change h.written h.inv.connected hchange, h.receives.step serverFd eventFd host
        h.inv.connected.toDistinct hsmall, h.pushed_respond hid, log ++ [(received, some frame)], ?_, ?_,
        hlogged (some frame) hhandled, ?_⟩
      · show (log ++ [(received, some frame)]).map Prod.fst ++ (s.serving.erase received ++
          (s.loop.step serverFd eventFd host (.push frame)).mailBox.toServerFrameQueue) = _
        rw [herase, hqueue, hrequests, ← horder, List.map_append]
        simp only [List.nil_append, List.append_assoc, List.map_cons, List.map_nil]
      · show (s.serving.erase received).length ≤ 1
        rw [herase]
        exact Nat.zero_le _
      · show s.responses ++ [(received.origin, frame)] = _
        rw [List.filterMap_append, hlog.responses]
        rfl
  · exact fun _ => h

/-- **Every step keeps** the order. -/
theorem Orderly.step (h : s.Orderly host text served) (action : ServerAction) (horderly : s.orderly action = true)
    (hserved : action.serves served) (hfew : (s.step serverFd eventFd host text action).loop.accepted < 2 ^ 64) :
    (s.step serverFd eventFd host text action).Orderly host text served := by
  cases action with
  | loop action =>
    obtain ⟨hwrite, hread⟩ := Bool.and_eq_true_iff.1 horderly
    cases action with
    | take => exact h
    | push frame => exact h
    | wait batch => exact h.loop (by simp) (by simp) hfew hwrite hread
    | io input => exact h.loop (by simp) (by simp) hfew hwrite hread
    | arrive socket data => exact h.loop (by simp) (by simp) hfew hwrite hread
    | shutdown socket => exact h.loop (by simp) (by simp) hfew hwrite hread
    | signal => exact h.loop (by simp) (by simp) hfew hwrite hread
  | take => exact h.take (List.isEmpty_iff.1 horderly) hfew
  | handleRequest received files fresh => exact h.handleRequest hserved hfew

/-- The order holds after every run that is orderly. -/
theorem orderly_run {actions : List ServerAction} (hfew : actions.countP ServerAction.isAccept < 2 ^ 64)
    (horderly : Run.Meets (fun s action => s.orderly action = true) (Server.step serverFd eventFd host text)
      Server.init actions)
    (hserved : ∀ action ∈ actions, action.serves served) :
    (actions.foldl (Server.step serverFd eventFd host text) Server.init).Orderly host text served := by
  have hbudget : Run.Meets
      (fun (s : Server) (action : ServerAction) =>
        s.loop.accepted + (if action.isAccept then 1 else 0) ≤ 2 ^ 64 - 1)
      (Server.step serverFd eventFd host text) Server.init actions := by
    refine Run.Meets.of_countP (step_accepted serverFd eventFd) ?_
    show 0 + _ ≤ _
    omega
  refine ((hbudget.and horderly).and_forall hserved).invariant (Orderly host text served) ?_
    (.init host text served)
  rintro s action h ⟨hserves, hfew, horderly⟩
  refine h.step action horderly hserves (lt_of_le_of_lt (step_accepted serverFd eventFd s action) ?_)
  omega

/-! ## Sockets -/

/-- What a peer has sent and what it has got. -/
structure InOrder (host : Endian) (text : SerializeField → Bytes) (served : FileService → Prop) (s : Server)
    (k : ℕ) (answered : List (Bytes × Option PosixFrame)) : Prop where
  answers : ∀ answer ∈ answered, ∃ files fresh, served files ∧
    BusinessRuntime.handleRequest host files text fresh answer.1 (.ofNat k) = .ok answer.2
  /-- What was answered, and what waits, are the first frames of what the peer has sent. -/
  incoming : answered.map Prod.fst ++ s.waiting k <+: frames format (s.loop.sockets k).incoming
  /-- What the peer has got are the first bytes of the answers. -/
  outgoing : (s.loop.sockets k).outgoing <+: PosixFrame.bytes (answered.filterMap Prod.snd)
  /-- Nothing is missing while the connection is live: the rest is on its way. -/
  live : ∀ fd context queue, s.loop.connectContexts.lookup fd = some context → context.socket = k →
    s.loop.mailBox.toClientQueues.lookup context.connectId = some queue →
      frames format (s.loop.sockets k).incoming =
        answered.map Prod.fst ++ s.waiting k ++ frames format (s.loop.unserved context) ∧
      (s.loop.sockets k).outgoing ++ (context.writeBuffer ++
        (PosixFrame.bytes (s.loop.handler.inHand fd) ++ PosixFrame.bytes queue)) =
          PosixFrame.bytes (answered.filterMap Prod.snd)

/-- What was answered of a socket. -/
def answeredOf (log : List (Received × Option PosixFrame)) (k : ℕ) : List (Bytes × Option PosixFrame) :=
  (log.filter fun answer => answer.1.origin = k).map fun answer => (answer.1.frame.data, answer.2)

theorem Logged.taken (h : s.Logged host text served log) (k : ℕ) :
    s.loop.taken k = (answeredOf log k).map Prod.fst ++ s.waiting k := by
  have hfst : (answeredOf log k).map Prod.fst =
      (((log.map Prod.fst).filter fun received => received.origin = k).map
        fun received => received.frame.data) := by
    rw [answeredOf, List.map_map, List.filter_map, List.map_map]
    rfl
  rw [EventLoop.taken, EventLoop.requestsOf, ← h.order, hfst, waiting]
  simp only [List.filter_append, List.map_append, List.append_assoc]

theorem Logged.responsesTo (h : s.Logged host text served log) (k : ℕ) :
    s.responsesTo k = (answeredOf log k).filterMap Prod.snd := by
  rw [Server.responsesTo, h.responses, answeredOf]
  clear h
  induction log with
  | nil => rfl
  | cons answer log ih =>
    obtain ⟨received, response⟩ := answer
    by_cases hk : received.origin = k <;> cases response <;> simp_all

/-- **The order of the whole gives the order of every socket.** -/
theorem Orderly.inOrder (h : s.Orderly host text served) (k : ℕ) :
    ∃ answered, InOrder host text served s k answered := by
  obtain ⟨log, hlog⟩ := h.logged
  refine ⟨answeredOf log k, ⟨fun answer hanswer => ?_, ?_, ?_, ?_⟩⟩
  · obtain ⟨logged, hlogged, rfl⟩ := List.mem_map.1 hanswer
    obtain ⟨hmem, horigin⟩ := List.mem_filter.1 hlogged
    rw [decide_eq_true_eq] at horigin
    obtain ⟨files, fresh, hserved, hhandled⟩ := hlog.answers logged hmem
    refine ⟨files, fresh, hserved, ?_⟩
    -- the id of the request is the number of its socket
    have hreceived : logged.1 ∈ s.loop.requests := by
      rw [← hlog.order]
      exact List.mem_append_left _ (List.mem_map_of_mem hmem)
    have hid : UInt64.ofNat k = logged.1.frame.connectId := by
      rw [← horigin, ← h.inv.labelled.requests logged.1 hreceived, UInt64.ofNat_toNat]
    rw [hid]
    exact hhandled
  · rw [← hlog.taken]
    exact h.receives.taken_prefix k
  · rw [← hlog.responsesTo]
    refine (h.sends k).trans ?_
    obtain ⟨rest, hrest⟩ := h.pushed.begins k
    rw [← hrest, EventLoop.bytes_append]
    exact List.prefix_append _ _
  · rintro fd context queue hcontext rfl hqueue
    refine ⟨?_, ?_⟩
    · rw [← hlog.taken]
      exact h.receives.frames_eq hcontext
    · rw [← hlog.responsesTo, ← h.pushed.live fd context hcontext,
        ← EventLoop.pushedTo_eq h.inv.connected hcontext]
      exact h.written.law fd context queue hcontext hqueue

/-- **A peer is answered in order**, in every run with one business thread, fewer than
`2 ^ 64` connections, and neither a write of `2 ^ 31` bytes nor a frame of `2 ^ 32`. -/
theorem answered_in_order {actions : List ServerAction} (hfew : actions.countP ServerAction.isAccept < 2 ^ 64)
    (horderly : Run.Meets (fun s action => s.orderly action = true) (Server.step serverFd eventFd host text)
      Server.init actions)
    (hserved : ∀ action ∈ actions, action.serves served) (k : ℕ) :
    ∃ answered, InOrder host text served
      (actions.foldl (Server.step serverFd eventFd host text) Server.init) k answered :=
  (orderly_run hfew horderly hserved).inOrder k

/-! ## What other steps leave alone -/

/-- Every step is one of the loop, or leaves it alone. -/
theorem step_loop (serverFd eventFd : ℕ) (host : Endian) (text : SerializeField → Bytes) (s : Server)
    (action : ServerAction) :
    (s.step serverFd eventFd host text action).loop = s.loop ∨
      ∃ loopAction, (s.step serverFd eventFd host text action).loop =
        s.loop.step serverFd eventFd host loopAction ∧
        ∀ k data, loopAction = .arrive k data → action = .loop (.arrive k data) := by
  cases action with
  | loop action =>
    cases action with
    | take => exact .inl rfl
    | push frame => exact .inl rfl
    | wait batch => exact .inr ⟨.wait batch, rfl, fun k data heq => by rw [heq]⟩
    | io input => exact .inr ⟨.io input, rfl, fun k data heq => by rw [heq]⟩
    | arrive socket data => exact .inr ⟨.arrive socket data, rfl, fun k data heq => by rw [heq]⟩
    | shutdown socket => exact .inr ⟨.shutdown socket, rfl, fun k data heq => by rw [heq]⟩
    | signal => exact .inr ⟨.signal, rfl, fun k data heq => by rw [heq]⟩
  | take =>
    simp only [Server.step]
    split
    · exact .inl rfl
    · exact .inr ⟨.take, rfl, fun k data heq => by cases heq⟩
  | handleRequest received files fresh =>
    simp only [Server.step]
    split
    · split
      · exact .inl rfl
      · exact .inl rfl
      · -- a request that is answered pushes its answer
        rename_i frame hhandled
        exact .inr ⟨.push frame, rfl, fun k data heq => by cases heq⟩
    · exact .inl rfl

/-- What a peer has sent grows only when bytes of it arrive. -/
theorem step_incoming (serverFd eventFd : ℕ) (host : Endian) (text : SerializeField → Bytes) (s : Server)
    {action : ServerAction} {k : ℕ} (harrive : ∀ data, action ≠ .loop (.arrive k data)) :
    ((s.step serverFd eventFd host text action).loop.sockets k).incoming = (s.loop.sockets k).incoming := by
  rcases step_loop serverFd eventFd host text s action with heq | ⟨loopAction, heq, harrives⟩
  · rw [heq]
  · rw [heq]
    exact EventLoop.step_incoming serverFd eventFd host s.loop loopAction fun data h =>
      harrive data (harrives k data h)

/-- What it has got only grows. -/
theorem step_outgoing (serverFd eventFd : ℕ) (host : Endian) (text : SerializeField → Bytes) (s : Server)
    (action : ServerAction) (k : ℕ) :
    (s.loop.sockets k).outgoing <+: ((s.step serverFd eventFd host text action).loop.sockets k).outgoing := by
  rcases step_loop serverFd eventFd host text s action with heq | ⟨loopAction, heq, -⟩
  · rw [heq]
  · rw [heq]
    exact (s.loop.step_change serverFd eventFd host loopAction).outgoing_extends k

/-- A server without files. -/
def noFiles : FileService := ⟨fun _ => none, fun _ => none⟩

/-- Two requests arrive at once and are read in pieces. The first is answered and part of the
answer is written while the second is served. -/
def twoRequests : List ServerAction :=
  [.loop (.wait [(3, { epollIn := true })]), .loop (.io .go), .loop (.io (.accept 5 true ⟨0, 0, 0, .none, 0, 0⟩)),
    .loop (.io .noConnection), .loop (.arrive 0 (helloRequest ++ helloRequest)),
    .loop (.wait [(5, { epollIn := true })]), .loop (.io .go), .loop (.io (.read (.bytes 100))),
    .loop (.io (.read (.bytes 1000))), .loop (.io (.read .again)), .loop (.io .go), .loop (.io .go),
    .loop (.io .go), .take, .handleRequest ⟨0, ⟨0, helloRequest⟩⟩ noFiles ⟨0, 0, 0, [], .json, []⟩, .take,
    .loop .signal, .loop (.wait [(4, { epollIn := true })]), .loop (.io .go), .loop (.io (.order [5])),
    .loop (.io (.order [5])), .loop (.io .go), .loop (.io .go), .loop (.io .go),
    .loop (.io (.write [.bytes 40] []))]

theorem answered_in_order_twoRequests :
    let s := twoRequests.foldl (Server.step 3 4 .little fun _ => []) Server.init
    (s.loop.sockets 0).outgoing.length = 40 ∧ s.waiting 0 = [helloRequest] ∧
      ∃ answered, InOrder .little (fun _ => []) (fun files => files = noFiles) s 0 answered :=
  ⟨by decide +kernel, by decide +kernel,
    answered_in_order (by decide) (by decide +kernel) (by simp [twoRequests, ServerAction.serves]) 0⟩

end Server

end ProjectTrans
