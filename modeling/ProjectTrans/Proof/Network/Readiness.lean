import ProjectTrans.Proof.Network.Connections

/-!
# Events and the connections they are applied to

An event of a batch carries a descriptor, and descriptors are used again. As long as no
connection is registered under a descriptor that an event of the batch still carries,
every event is applied to the connection it was reported for (`events_fresh`); else it
may be applied to one that was not there when it was reported (`staleEvent_applied`).
-/

namespace ProjectTrans

open Wire

namespace EventLoop

/-- `accept` returns no descriptor that an event of the batch still carries. -/
def takesFreshDescriptor (s : EventLoop) : LoopAction → Bool
  | .io (.accept fd true _) =>
    match s.handler with
    | .accepting => s.batch.all fun event => event.fd ≠ fd
    | _ => true
  | _ => true

variable (serverFd eventFd : ℕ) (host : Endian)

/-- The events of the batch that find a connection were reported for it. -/
structure Fresh (s : EventLoop) : Prop where
  batch : ∀ event ∈ s.batch, event.fd ≠ serverFd → event.fd ≠ eventFd → ∀ context,
    s.connectContexts.lookup event.fd = some context → event.reportedFor = some context.socket
  applied : ∀ application ∈ s.applied, application.1 = some application.2

theorem Fresh.init : init.Fresh serverFd eventFd where
  batch := fun _ h => absurd h List.not_mem_nil
  applied := fun _ h => absurd h List.not_mem_nil

variable {s : EventLoop}

/-! ## What a step does to the batch -/

/-- A handler leaves the batch alone. -/
theorem io_batch (hbusy : s.handler ≠ .idle) (input : Input) :
    (s.io serverFd eventFd host input).batch = s.batch ∧
      (s.io serverFd eventFd host input).applied = s.applied := by
  unfold io
  split
  · rename_i hidle
    exact absurd hidle hbusy
  · cases input with
    | accept fd isRegistered freshHeader =>
      simp only [accepting]
      split
      · exact ⟨rfl, rfl⟩
      split <;> exact ⟨rfl, rfl⟩
    | _ => exact ⟨rfl, rfl⟩
  · cases input with
    | order fds =>
      simp only [draining]
      split
      · exact ⟨rfl, rfl⟩
      split <;> exact ⟨rfl, rfl⟩
    | _ => exact ⟨rfl, rfl⟩
  · rename_i visits hhandler
    cases visits <;> exact ⟨rfl, rfl⟩
  · unfold popping
    split
    · exact ⟨rfl, rfl⟩
    split <;> exact ⟨rfl, rfl⟩
  · cases input with
    | write results resume =>
      simp only [flushing]
      split
      · exact ⟨rfl, rfl⟩
      split
      · exact ⟨rfl, rfl⟩
      split
      · exact ⟨removeConnect_batch _ _, removeConnect_applied _ _⟩
      · exact ⟨rfl, rfl⟩
    | _ => exact ⟨rfl, rfl⟩
  · cases input with
    | read result =>
      -- reading ends in the same way in two branches
      have hfinish : ∀ fd isWritable context, (s.finishReading host fd isWritable context).batch = s.batch ∧
          (s.finishReading host fd isWritable context).applied = s.applied := by
        intro fd isWritable context
        unfold finishReading
        split <;> exact ⟨rfl, rfl⟩
      simp only [reading]
      split
      · exact ⟨rfl, rfl⟩
      split
      · exact ⟨removeConnect_batch _ _, removeConnect_applied _ _⟩
      · exact ⟨rfl, rfl⟩
      · exact ⟨rfl, rfl⟩
      · split
        · exact hfinish _ _ _
        · exact ⟨rfl, rfl⟩
      · exact ⟨rfl, rfl⟩
      · exact hfinish _ _ _
    | _ => exact ⟨rfl, rfl⟩
  · rename_i frames isWritable hhandler
    cases frames with
    | nil => exact ⟨rfl, rfl⟩
    | cons frame frames =>
      simp only [delivering]
      split <;> exact ⟨rfl, rfl⟩

/-- An event that is neither the listening socket's nor the eventfd's is applied to the
connection of its descriptor, if there is one. -/
theorem dispatch_applied (event : Event) :
    (s.dispatch serverFd eventFd event).batch = s.batch ∧
      ((s.dispatch serverFd eventFd event).applied = s.applied ∨
        ∃ context, event.fd ≠ serverFd ∧ event.fd ≠ eventFd ∧ s.connectContexts.lookup event.fd = some context ∧
          (s.dispatch serverFd eventFd event).applied = s.applied ++ [(event.reportedFor, context.socket)]) := by
  have hnote : (s.noteApplied event).batch = s.batch ∧ ((s.noteApplied event).applied = s.applied ∨
      ∃ context, s.connectContexts.lookup event.fd = some context ∧
        (s.noteApplied event).applied = s.applied ++ [(event.reportedFor, context.socket)]) := by
    unfold noteApplied
    split
    · exact ⟨rfl, .inl rfl⟩
    · rename_i context hcontext
      exact ⟨rfl, .inr ⟨context, hcontext, rfl⟩⟩
  unfold dispatch
  by_cases hserver : event.fd = serverFd
  · rw [if_pos hserver]
    exact ⟨rfl, .inl rfl⟩
  by_cases hevent : event.fd = eventFd
  · rw [if_neg hserver, if_pos hevent]
    exact ⟨rfl, .inl rfl⟩
  rw [if_neg hserver, if_neg hevent]
  -- what follows the note changes neither
  have happlied : ∀ t : EventLoop, t.batch = (s.noteApplied event).batch →
    t.applied = (s.noteApplied event).applied →
      t.batch = s.batch ∧ (t.applied = s.applied ∨ ∃ context, event.fd ≠ serverFd ∧ event.fd ≠ eventFd ∧
        s.connectContexts.lookup event.fd = some context ∧
          t.applied = s.applied ++ [(event.reportedFor, context.socket)]) := by
    intro t hbatch happlied
    rw [hbatch, happlied]
    refine ⟨hnote.1, hnote.2.imp_right ?_⟩
    rintro ⟨context, hcontext, heq⟩
    exact ⟨context, hserver, hevent, hcontext, heq⟩
  split
  · exact happlied _ (removeConnect_batch _ _) (removeConnect_applied _ _)
  split
  · exact happlied _ rfl rfl
  split
  · exact happlied _ rfl rfl
  · exact ⟨rfl, .inl rfl⟩

/-- What is registered now was registered before, on the same socket, or under a descriptor
that no event of the batch carries. -/
theorem step_lookup (s : EventLoop) {action : LoopAction} (hok : s.takesFreshDescriptor action = true) {fd : ℕ}
    {context' : ConnectContext}
    (hcontext' : (s.step serverFd eventFd host action).connectContexts.lookup fd = some context') :
    (∃ context, s.connectContexts.lookup fd = some context ∧ context.socket = context'.socket) ∨
      ∀ event ∈ s.batch, event.fd ≠ fd := by
  rcases (s.step_change serverFd eventFd host action).lookup hcontext' with
    ⟨context, hcontext, hid⟩ | ⟨freshHeader, rfl, hhandler, -, -⟩
  · exact .inl ⟨context, hcontext, (Prod.mk.inj hid).2⟩
  · right
    intro event hevent
    simp only [takesFreshDescriptor, hhandler, List.all_eq_true] at hok
    exact of_decide_eq_true (hok event hevent)

/-- Events that were in the batch before the step still are as fresh. -/
theorem Fresh.remaining {s : EventLoop} (h : s.Fresh serverFd eventFd) {action : LoopAction}
    (hok : s.takesFreshDescriptor action = true) {event : Event} (hevent : event ∈ s.batch)
    (hserver : event.fd ≠ serverFd) (hevent' : event.fd ≠ eventFd) {context' : ConnectContext}
    (hcontext' : (s.step serverFd eventFd host action).connectContexts.lookup event.fd = some context') :
    event.reportedFor = some context'.socket := by
  rcases step_lookup serverFd eventFd host s hok hcontext' with ⟨context, hcontext, hsocket⟩ | hnone
  · rw [← hsocket]
    exact h.batch event hevent hserver hevent' context hcontext
  · exact absurd rfl (hnone event hevent)

theorem Fresh.io {s : EventLoop} (h : s.Fresh serverFd eventFd) (input : Input)
    (hok : s.takesFreshDescriptor (.io input) = true) :
    (s.io serverFd eventFd host input).Fresh serverFd eventFd := by
  by_cases hidle : s.handler = .idle
  · cases hbatch : s.batch with
    | nil =>
      have hstays : s.io serverFd eventFd host input = s := by
        simp only [EventLoop.io, hidle, hbatch]
      rw [hstays]
      exact h
    | cons event rest =>
      have hmem : event ∈ s.batch := by rw [hbatch]; exact List.mem_cons_self
      have hdispatch : s.io serverFd eventFd host input = { s with batch := rest }.dispatch
          serverFd eventFd event := by
        simp only [EventLoop.io, hidle, hbatch]
      obtain ⟨hrest, happlied⟩ := dispatch_applied serverFd eventFd (s := { s with batch := rest }) event
      refine ⟨fun event' hevent' hserver heventFd context' hcontext' => ?_, fun application happlication => ?_⟩
      · rw [hdispatch, hrest] at hevent'
        have hmem' : event' ∈ s.batch := by rw [hbatch]; exact List.mem_cons_of_mem _ hevent'
        exact h.remaining serverFd eventFd host hok hmem' hserver heventFd hcontext'
      · rw [hdispatch] at happlication
        rcases happlied with heq | ⟨context, hserver, heventFd, hcontext, heq⟩
        · rw [heq] at happlication
          exact h.applied application happlication
        · rw [heq] at happlication
          rcases List.mem_append.1 happlication with hold | hnew
          · exact h.applied application hold
          · rw [List.mem_singleton.1 hnew]
            -- what is applied comes from the batch, where it was fresh
            exact h.batch event hmem hserver heventFd context hcontext
  · obtain ⟨hbatch, happlied⟩ := io_batch serverFd eventFd host hidle input
    refine ⟨fun event hevent hserver heventFd context' hcontext' => ?_, fun application happlication => ?_⟩
    · rw [hbatch] at hevent
      exact h.remaining serverFd eventFd host hok hevent hserver heventFd hcontext'
    · rw [happlied] at happlication
      exact h.applied application happlication

/-- **Events stay fresh** over a step that takes a fresh descriptor, if any. -/
theorem Fresh.step {s : EventLoop} (h : s.Fresh serverFd eventFd) (action : LoopAction)
    (hok : s.takesFreshDescriptor action = true) :
    (s.step serverFd eventFd host action).Fresh serverFd eventFd := by
  cases action with
  | wait batch =>
    simp only [EventLoop.step]
    split
    · refine ⟨fun event hevent hserver heventFd context hcontext => ?_, h.applied⟩
      -- the batch is reported of the contexts that are there now
      obtain ⟨reported, -, rfl⟩ := List.mem_map.1 hevent
      have hreported : s.connectContexts.lookup reported.1 = some context := hcontext
      simp only [report, hreported, Option.map_some]
    · exact h
  | io input => exact h.io serverFd eventFd host input hok
  | arrive socket data =>
    simp only [EventLoop.step]
    split
    · exact ⟨h.batch, h.applied⟩
    · exact h
  | shutdown socket => exact ⟨h.batch, h.applied⟩
  | take =>
    simp only [EventLoop.step]
    split
    · exact h
    · exact ⟨h.batch, h.applied⟩
  | push frame =>
    simp only [EventLoop.step]
    split
    · exact h
    · exact ⟨h.batch, h.applied⟩
  | signal =>
    simp only [EventLoop.step]
    split
    · exact h
    · exact ⟨h.batch, h.applied⟩

/-- **Every event is applied to the connection it was reported for**, in a run that
registers no connection under a descriptor that an event of the batch still carries. -/
theorem events_fresh {actions : List LoopAction}
    (hok : Run.Meets (fun s action => s.takesFreshDescriptor action = true) (step serverFd eventFd host)
      init actions) :
    ∀ application ∈ (actions.foldl (step serverFd eventFd host) init).applied,
      application.1 = some application.2 :=
  (hok.invariant (Fresh serverFd eventFd) (fun _ action h hok => h.step serverFd eventFd host action hok)
    (.init serverFd eventFd)).applied

/-- A connection on descriptor 5 is reset while a frame waits for it: the batch tells the
loop of the eventfd, of the listening socket, and of the reset, in this order. -/
def resetBatch : List LoopAction :=
  [.wait [(3, { epollIn := true })], .io .go, .io (.accept 5 true ⟨0, 0, 0, .none, 0, 0⟩), .io .noConnection,
    .push ⟨0, [1]⟩, .signal,
    .wait [(4, { epollIn := true }), (3, { epollIn := true }),
      (5, { epollIn := true, epollHup := true, epollErr := true })],
    .io .go, .io (.order [5]), .io (.order [5]), .io .go, .io .go, .io .go, .io (.write [.failed] []), .io .go,
      .io .go]

/-- Somebody connects once the batch is done, and is reset as well. -/
def resetLater : List LoopAction :=
  resetBatch ++ [.io .noConnection, .io .go, .wait [(3, { epollIn := true })], .io .go,
    .io (.accept 5 true ⟨0, 0, 0, .none, 0, 0⟩), .io .noConnection, .wait [(5, { epollErr := true })], .io .go]

/-- Somebody connects before. -/
def resetAccept : List LoopAction :=
  resetBatch ++ [.io (.accept 5 true ⟨0, 0, 0, .none, 0, 0⟩), .io .noConnection, .io .go]

theorem events_fresh_reset :
    (resetLater.foldl (step 3 4 .little) init).applied = [(some 1, 1)] ∧
      ∀ application ∈ (resetLater.foldl (step 3 4 .little) init).applied, application.1 = some application.2 :=
  ⟨by decide +kernel, events_fresh 3 4 .little (by decide +kernel)⟩

/-- **A connection is removed by an event that is not its own**: the write of the frame fails,
`accept` returns descriptor 5 again, and the event of the reset comes last. -/
theorem staleEvent_applied :
    let s := resetAccept.foldl (step 3 4 .little) init
    (some 0, 1) ∈ s.applied ∧ s.removed = [(0, []), (1, [])] ∧
      ¬∀ application ∈ s.applied, application.1 = some application.2 := by
  decide +kernel

end EventLoop

end ProjectTrans
