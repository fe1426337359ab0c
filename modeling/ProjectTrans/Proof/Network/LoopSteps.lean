import ProjectTrans.Proof.Network.LoopChanges

/-!
# What a step of the event loop does to connections

Each handler makes one of the changes of connections, and so does each step (`step_change`).
-/

namespace ProjectTrans

open Wire

namespace EventLoop

variable {s : EventLoop} {action : LoopAction}

/-! ## Handlers -/

/-- An error comes from a call that failed. -/
theorem posixWrite_error {size : ℕ} {results : List SysResult} {hasWrite : ℕ}
    (h : (PosixSocketHandle.write size hasWrite results).2 = .error) : .failed ∈ results := by
  induction results generalizing hasWrite with
  | nil =>
    unfold PosixSocketHandle.write at h
    split at h <;> exact absurd h (by simp)
  | cons result results ih =>
    unfold PosixSocketHandle.write at h
    split at h
    · cases result with
      | bytes n => exact List.mem_cons_of_mem _ (ih h)
      | interrupted => exact List.mem_cons_of_mem _ (ih h)
      | again => exact absurd h (by simp)
      | failed => exact List.mem_cons_self
    · exact absurd h (by simp)

theorem write_error {context context' : ConnectContext} {frames : List PosixFrame} {results : List SysResult}
    {hasWrite : ℕ} (h : context.write frames results = .ok (context', hasWrite, .error)) : .failed ∈ results := by
  simp only [ConnectContext.write] at h
  split at h
  · rename_i hwrite
    exact posixWrite_error (congrArg Prod.snd hwrite)
  rename_i written status hnot hwrite
  split at h
  · exact absurd (Prod.mk.inj (Prod.mk.inj (Except.ok.inj h)).2).2 hnot
  split at h
  · exact absurd h (by simp)
  · exact absurd (Prod.mk.inj (Prod.mk.inj (Except.ok.inj h)).2).2 (by simp)

variable (serverFd eventFd : ℕ)

theorem dispatch_change (hidle : s.handler = .idle) (event : Event) (batch : List Event) :
    s.Change action ({ s with batch := batch }.dispatch serverFd eventFd event) := by
  have hhand : ∀ fd, s.handler.inHand fd = [] := fun fd => by rw [hidle]; rfl
  have hcomes : ∀ fd, ¬s.handler.ComesTo fd := fun fd => by rw [hidle]; exact id
  obtain ⟨applied, happlied⟩ := noteApplied_eq { s with batch := batch } event
  unfold dispatch
  rw [happlied]
  split
  · exact .same (.of_handler (fun fd _ => (hhand fd).symm) fun fd _ _ _ _ _ h => absurd h (hcomes fd))
  split
  · exact .same (.of_handler (fun fd _ => (hhand fd).symm) fun fd _ _ _ _ _ h => absurd h (hcomes fd))
  split
  · have hsame : s.Same { s with batch := batch, applied := applied } :=
      .of_handler (fun _ _ => rfl) fun _ _ _ _ _ _ h => h
    rw [← removeConnect_with_handler]
    exact .remove hsame hhand hhand fun _ h => h
  split
  · exact .same (.of_handler (fun fd _ => (hhand fd).symm) fun fd _ _ _ _ _ h => absurd h (hcomes fd))
  split
  · refine .same (.of_handler (fun fd _ => ?_) fun fd _ _ _ _ _ h => absurd h (hcomes fd))
    rw [hhand, Handler.inHand, ite_self]
  · exact .same (.of_handler (fun _ _ => rfl) fun _ _ _ _ _ _ h => h)

theorem accepting_change (hhandler : s.handler = .accepting) (input : Input) :
    s.Change (.io input) (s.accepting serverFd eventFd input) := by
  have hend : ∀ action, s.Change action { s with handler := .idle } := fun _ =>
    .same (.of_handler (fun _ _ => by rw [hhandler]; rfl) fun _ _ _ _ _ _ h => by rw [hhandler] at h; exact h)
  cases input with
  | accept fd isRegistered freshHeader =>
    simp only [accepting]
    split
    · exact .same (.refl s)
    rename_i hfd
    split
    · rename_i hregistered
      exact .add (by rw [hregistered]) hhandler fun hmem => hfd (.inl hmem)
    · exact hend _
  | noConnection => exact hend _
  | go => exact .same (.refl s)
  | order fds => exact .same (.refl s)
  | read result => exact .same (.refl s)
  | write results resume => exact .same (.refl s)

theorem draining_change (hhandler : s.handler = .draining) (input : Input) :
    s.Change (.io input) (s.draining input) := by
  cases input with
  | order fds =>
    simp only [draining]
    split
    · -- whoever is awaited, the thread still comes to them
      refine .same ⟨fun _ => rfl, rfl, fun _ => rfl, rfl, rfl, rfl, rfl, rfl, fun _ _ => rfl, ?_⟩
      intro fd context frame queue hcontext hqueue h
      exact .inr (.inr (by rw [hhandler]; trivial))
    split
    · rename_i hperm
      refine .same (.of_handler (fun _ _ => by rw [hhandler]; rfl) fun fd context _ _ hcontext _ _ => ?_)
      have hmem : fd ∈ s.connectContexts.keys := AList.mem_keys.1 (AList.lookup_isSome.1 (by rw [hcontext]; rfl))
      exact hperm.mem_iff.2 hmem
    · exact .same (.refl s)
  | accept fd isRegistered freshHeader => exact .same (.refl s)
  | noConnection => exact .same (.refl s)
  | go => exact .same (.refl s)
  | read result => exact .same (.refl s)
  | write results resume => exact .same (.refl s)

theorem visiting_change {visits : List ℕ} (hhandler : s.handler = .visiting visits) :
    s.Change action (s.visiting visits) := by
  cases visits with
  | nil =>
    refine .same (.of_handler (fun _ _ => by rw [hhandler]; rfl) fun _ _ _ _ _ _ h => ?_)
    rw [hhandler] at h
    exact absurd h List.not_mem_nil
  | cons fd visits =>
    refine .same (.of_handler (fun _ _ => ?_) fun _ _ _ _ _ _ h => ?_)
    · rw [hhandler]
      exact ite_self _
    · rw [hhandler] at h
      rcases List.mem_cons.1 h with rfl | hmem
      · exact .inl rfl
      · exact .inr hmem

theorem comesTo_afterWrite {fd : ℕ} {visits : Option (List ℕ)} :
    (afterWrite visits).ComesTo fd ↔ fd ∈ visits.getD [] := by
  cases visits with
  | none => exact ⟨False.elim, fun h => absurd h List.not_mem_nil⟩
  | some visits => exact Iff.rfl

@[simp] theorem inHand_afterWrite (fd : ℕ) (visits : Option (List ℕ)) : (afterWrite visits).inHand fd = [] := by
  cases visits <;> rfl

@[simp] theorem inHand_afterRead (fd fd' : ℕ) (isWritable : Bool) :
    (afterRead fd' isWritable).inHand fd = [] := by
  cases isWritable
  · rfl
  · exact ite_self _

theorem popping_change {fd : ℕ} {frames : List PosixFrame} {visits : Option (List ℕ)}
    (hhandler : s.handler = .popping fd frames visits) : s.Change action (s.popping fd frames visits) := by
  unfold popping
  split
  · -- the descriptor has no context any more, so its visit ends
    rename_i hnone
    refine .same (.of_handler (fun fd' hfd' => ?_) fun fd' context _ _ hcontext _ h => ?_)
    · have hne : fd ≠ fd' := by
        rintro rfl
        exact absurd hfd' (AList.lookup_eq_none.1 hnone)
      rw [inHand_afterWrite, hhandler, Handler.inHand, if_neg hne]
    · rw [hhandler] at h
      rcases h with rfl | hmem
      · rw [hnone] at hcontext
        exact absurd hcontext (by simp)
      · exact comesTo_afterWrite.2 hmem
  -- its queue is popped, frame by frame, until it is empty
  rename_i context hcontext
  unfold ReactorMailBox.popFromToClientQueue
  split
  · rename_i frame mailBox hpop
    split at hpop
    · rename_i frame' queue hqueue
      obtain ⟨rfl, rfl⟩ := Prod.mk.inj (Option.some.inj hpop)
      exact .pop hhandler hcontext hqueue
    · exact absurd hpop (by simp)
  · rename_i hpop
    split at hpop
    · exact absurd hpop (by simp)
    · rename_i hnone
      refine .same (.of_handler (fun fd' _ => by rw [hhandler]; rfl) fun fd' context' frame queue
        hcontext' hqueue h => ?_)
      rw [hhandler] at h
      rcases h with rfl | hmem
      · rw [hcontext] at hcontext'
        obtain rfl := Option.some.inj hcontext'
        exact absurd hqueue (hnone frame queue)
      · exact hmem

theorem flushing_change {fd : ℕ} {frames : List PosixFrame} {visits : Option (List ℕ)}
    (hhandler : s.handler = .flushing fd frames visits) (input : Input) :
    s.Change (.io input) (s.flushing fd frames visits input) := by
  cases input with
  | write results resume =>
    simp only [flushing]
    split
    · rename_i hnone
      refine .same (.of_handler (fun fd' hfd' => ?_) fun fd' _ _ _ _ _ h => ?_)
      · have hne : fd ≠ fd' := by
          rintro rfl
          exact absurd hfd' (AList.lookup_eq_none.1 hnone)
        rw [inHand_afterWrite, hhandler, Handler.inHand, if_neg hne]
      · rw [hhandler] at h
        exact comesTo_afterWrite.2 h
    rename_i context hcontext
    split
    · exact .same (.refl s)
    rename_i context' hasWrite status hwrite
    split
    · -- a write error removes the context, and what it held is lost
      rename_i hstatus
      rw [hstatus] at hwrite
      exact .flushFailed (List.contains_iff_mem.2 (write_error hwrite)) hhandler hcontext hwrite
    · rename_i hstatus
      exact .flush ⟨_, rfl⟩ hhandler hcontext hwrite hstatus
  | accept fd isRegistered freshHeader => exact .same (.refl s)
  | noConnection => exact .same (.refl s)
  | go => exact .same (.refl s)
  | order fds => exact .same (.refl s)
  | read result => exact .same (.refl s)

theorem out_readFrames {host : Endian} {context context' : ConnectContext} {frames : List PosixFrame}
    (h : context.readFrames host = .ok (frames, context')) : out context' = out context := by
  obtain ⟨popped, -, h⟩ := Checked.bind_eq_ok.1 h
  obtain ⟨-, rfl⟩ := Prod.mk.inj (Except.ok.inj h)
  rfl

variable (host : Endian)

theorem finishReading_change {fd : ℕ} {isWritable : Bool} (hhandler : s.handler = .reading fd isWritable)
    {context : ConnectContext} (hcontext : s.connectContexts.lookup fd = some context) :
    s.Change action (s.finishReading host fd isWritable context) := by
  unfold finishReading
  split
  · exact .same (.refl s)
  · rename_i frames context' hframes
    refine .same (.of_context hcontext (out_readFrames hframes) (fun _ => rfl) (fun _ => ?_) fun _ h => ?_)
    · rw [hhandler]
      rfl
    · rw [hhandler] at h
      exact h

theorem reading_change {fd : ℕ} {isWritable : Bool} (hhandler : s.handler = .reading fd isWritable)
    (input : Input) : s.Change (.io input) (s.reading host fd isWritable input) := by
  have hhand : ∀ fd, s.handler.inHand fd = [] := fun fd => by rw [hhandler]; rfl
  have hcomes : ∀ fd, ¬s.handler.ComesTo fd := fun fd => by rw [hhandler]; exact id
  cases input with
  | read result =>
    simp only [reading]
    split
    · refine .same (.of_handler (fun fd' _ => ?_) fun fd' _ _ _ _ _ h => absurd h (hcomes fd'))
      rw [inHand_afterRead, hhand]
    rename_i context hcontext
    split
    · -- only a read error removes the context here
      exact .remove (.refl s) hhand (inHand_afterRead · fd isWritable) fun fd' h => absurd h (hcomes fd')
    · exact .same (.refl s)
    · exact .same (.of_context hcontext rfl (socket_update Socket.outgoing rfl) (fun _ => rfl) fun _ h => h)
    · split
      · exact finishReading_change host hhandler hcontext
      · exact .same (.refl s)
    · exact .same (.refl s)
    · exact finishReading_change host hhandler hcontext
  | accept fd isRegistered freshHeader => exact .same (.refl s)
  | noConnection => exact .same (.refl s)
  | go => exact .same (.refl s)
  | order fds => exact .same (.refl s)
  | write results resume => exact .same (.refl s)

theorem delivering_change {origin fd : ℕ} {frames : List PosixFrame} {isWritable : Bool}
    (hhandler : s.handler = .delivering origin fd frames isWritable) :
    s.Change action (s.delivering origin fd isWritable frames) := by
  have hhand : ∀ fd, s.handler.inHand fd = [] := fun fd => by rw [hhandler]; rfl
  have hcomes : ∀ fd, ¬s.handler.ComesTo fd := fun fd => by rw [hhandler]; exact id
  cases frames with
  | nil =>
    refine .same (.of_handler (fun fd' _ => ?_) fun fd' _ _ _ _ _ h => absurd h (hcomes fd'))
    rw [inHand_afterRead, hhand]
  | cons frame frames =>
    simp only [delivering, ReactorMailBox.pushToServerFrame]
    split
    · exact .same (.refl s)
    · rename_i mailBox hpush
      split at hpush
      · -- the frame goes to the mailbox, where no connection is looked at
        obtain rfl := Option.some.inj hpush
        exact .same (.of_handler (fun fd' _ => (hhand fd').symm) fun fd' _ _ _ _ _ h => absurd h (hcomes fd'))
      · exact absurd hpush (by simp)

/-! ## Steps -/

/-- **What the loop's thread does to connections.** -/
theorem io_change (input : Input) : s.Change (.io input) (s.io serverFd eventFd host input) := by
  unfold io
  split
  · rename_i hidle
    split
    · exact .same (.refl s)
    · exact dispatch_change serverFd eventFd hidle _ _
  · rename_i hhandler
    exact accepting_change serverFd eventFd hhandler input
  · rename_i hhandler
    exact draining_change hhandler input
  · rename_i hhandler
    exact visiting_change hhandler
  · rename_i hhandler
    exact popping_change hhandler
  · rename_i hhandler
    exact flushing_change hhandler input
  · rename_i hhandler
    exact reading_change host hhandler input
  · rename_i hhandler
    exact delivering_change hhandler

/-- **What a step does to connections.** -/
theorem step_change (action : LoopAction) : s.Change action (s.step serverFd eventFd host action) := by
  cases action with
  | wait batch =>
    simp only [step]
    split
    · exact .same (.of_handler (fun _ _ => rfl) fun _ _ _ _ _ _ h => h)
    · exact .same (.refl s)
  | io input => exact io_change serverFd eventFd host input
  | arrive socket data =>
    simp only [step]
    split
    · exact .same ⟨fun _ => rfl, rfl, socket_update Socket.outgoing rfl, rfl, rfl, rfl, rfl, rfl, fun _ _ => rfl,
        fun _ _ _ _ _ _ h => h⟩
    · exact .same (.refl s)
  | shutdown socket =>
    exact .same ⟨fun _ => rfl, rfl, socket_update Socket.outgoing rfl, rfl, rfl, rfl, rfl, rfl, fun _ _ => rfl,
      fun _ _ _ _ _ _ h => h⟩
  | take =>
    simp only [step, ReactorMailBox.popFromToServerFrame]
    split
    · exact .same (.refl s)
    · rename_i received mailBox hpop
      split at hpop
      · exact absurd hpop (by simp)
      · obtain ⟨rfl, rfl⟩ := Prod.mk.inj (Option.some.inj hpop)
        exact .same (.of_handler (fun _ _ => rfl) fun _ _ _ _ _ _ h => h)
  | push frame =>
    simp only [step, ReactorMailBox.pushToClientFrame]
    split
    · exact .same (.refl s)
    · rename_i mailBox hpush
      obtain ⟨queue, hqueue, rfl⟩ := Option.map_eq_some_iff.1 hpush
      exact .push rfl hqueue
  | signal =>
    simp only [step]
    split
    · exact .same (.refl s)
    · refine .same ⟨fun _ => rfl, rfl, fun _ => rfl, rfl, rfl, rfl, rfl, rfl, fun _ _ => rfl,
        fun _ _ _ _ _ _ _ => ?_⟩
      -- whatever is queued, the counter of the event descriptor now tells of it
      exact .inl (Nat.succ_pos _)

end EventLoop

end ProjectTrans
