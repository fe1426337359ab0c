import ProjectTrans.Proof.Network.Connections

/-!
# The connections `notify_event` visits

The second loop of `notify_event` goes over the connections themselves and calls
`writable_event` for each, which removes the connection if its write fails. The loop then
goes on from an element that is not there any more. As long as no write fails, each
connection is visited once and stays (`notifySound_iff`).
-/

namespace ProjectTrans

open Wire

namespace EventLoop

/-- The connection whose queue a visit of `notify_event` finds empty in this step. -/
def drainedVisit (s : EventLoop) : LoopAction → Option ℕ
  | .io _ =>
    match s.handler with
    | .popping fd _ (some _) =>
      match s.connectContexts.lookup fd with
      | none => none
      | some context =>
        match s.mailBox.popFromToClientQueue context.connectId with
        | none => some fd
        | some _ => none
    | _ => none
  | _ => none

/-- The connection that a visit of `notify_event` writes to in this step. -/
def writtenVisit (s : EventLoop) : LoopAction → Option ℕ
  | .io (.write results _) =>
    match s.handler with
    | .flushing fd frames (some _) =>
      match s.connectContexts.lookup fd with
      | none => none
      | some context =>
        match context.write frames results with
        | .ok _ => some fd
        | .error _ => none
    | _ => none
  | _ => none

/-- The connection whose write the socket fails in this step of a visit of `notify_event`. -/
def failedVisit (s : EventLoop) : LoopAction → Option ℕ
  | .io (.write results _) =>
    match s.handler with
    | .flushing fd frames (some _) =>
      match s.connectContexts.lookup fd with
      | none => none
      | some context =>
        if (PosixSocketHandle.write (context.toWrite frames).length 0 results).2 = .error then some fd else none
    | _ => none
  | _ => none

/-- The connection that the loop of `notify_event` is at. -/
def visited (s : EventLoop) : Option ℕ :=
  match s.handler with
  | .popping fd _ (some _) => some fd
  | .flushing fd _ (some _) => some fd
  | _ => none

variable (serverFd eventFd : ℕ) (host : Endian)

/-- The step erases the element that the loop of `notify_event` is at; the loop has no other
way on than from that element. -/
def erasesVisited (s : EventLoop) (action : LoopAction) : Prop :=
  ∃ fd, s.visited = some fd ∧ fd ∈ s.connectContexts ∧ fd ∉ (s.step serverFd eventFd host action).connectContexts

/-- One call of `notify_event`, from its beginning to its end. -/
structure NotifyRun (s : EventLoop) (actions : List LoopAction) : Prop where
  start : s.handler = .draining
  during : Run.Meets (fun s _ => s.handler ≠ .idle) (step serverFd eventFd host) s actions
  finish : (actions.foldl (step serverFd eventFd host) s).handler = .idle

/-- Every connection has its queue emptied and written once, those whose write fails are
removed and no others, and no element is erased while the loop is at it. -/
structure NotifySound (s : EventLoop) (actions : List LoopAction) : Prop where
  drained : ∀ fd ∈ s.connectContexts, (Run.trace drainedVisit (step serverFd eventFd host) s actions).count fd = 1
  written : ∀ fd ∈ s.connectContexts, (Run.trace writtenVisit (step serverFd eventFd host) s actions).count fd = 1
  removed : ∀ fd, fd ∈ (actions.foldl (step serverFd eventFd host) s).connectContexts ↔
    fd ∈ s.connectContexts ∧ fd ∉ Run.trace failedVisit (step serverFd eventFd host) s actions
  present : Run.Meets (fun s action => ¬s.erasesVisited serverFd eventFd host action)
    (step serverFd eventFd host) s actions

/-- The connections whose queue the loop of `notify_event` has yet to find empty. -/
def toDrain (s : EventLoop) : List ℕ :=
  match s.handler with
  | .draining => s.connectContexts.keys
  | .visiting visits => visits
  | .popping fd _ (some visits) => fd :: visits
  | .flushing _ _ (some visits) => visits
  | _ => []

/-- The connections that the loop of `notify_event` has yet to write to. -/
def toWrite (s : EventLoop) : List ℕ :=
  match s.handler with
  | .flushing fd _ (some visits) => fd :: visits
  | _ => s.toDrain

/-- The loop's thread is in `notify_event`, or has just left it, and what the loop has yet to
come to is there. -/
structure Notifying (s : EventLoop) : Prop where
  handler : s.handler = .idle ∨ s.handler = .draining ∨ (∃ visits, s.handler = .visiting visits) ∨
    (∃ fd frames visits, s.handler = .popping fd frames (some visits)) ∨
    ∃ fd frames visits, s.handler = .flushing fd frames (some visits)
  live : ∀ fd ∈ s.toWrite, fd ∈ s.connectContexts

variable {s : EventLoop} {serverFd eventFd host}

/-- What a step of `notify_event` does if no write fails. -/
structure VisitStep (s : EventLoop) (action : LoopAction) (s' : EventLoop) : Prop where
  notifying : s'.Notifying
  mem : ∀ fd, fd ∈ s'.connectContexts ↔ fd ∈ s.connectContexts
  drain : ((s.drainedVisit action).toList ++ s'.toDrain).Perm s.toDrain
  write : ((s.writtenVisit action).toList ++ s'.toWrite).Perm s.toWrite

theorem Notifying.congr (h : s.Notifying) {s' : EventLoop} (hcontexts : s'.connectContexts = s.connectContexts)
    (hhandler : s'.handler = s.handler) : s'.Notifying := by
  refine ⟨hhandler ▸ h.handler, ?_⟩
  unfold toWrite toDrain
  rw [hcontexts, hhandler]
  exact h.live

/-- A step that is not one of the loop's thread, or does not take it on. -/
theorem Notifying.still (h : s.Notifying) {action : LoopAction} {s' : EventLoop}
    (hcontexts : s'.connectContexts = s.connectContexts) (hhandler : s'.handler = s.handler)
    (hdrained : s.drainedVisit action = none) (hwritten : s.writtenVisit action = none) :
    VisitStep s action s' where
  notifying := h.congr hcontexts hhandler
  mem := by simp [hcontexts]
  drain := by
    unfold toDrain
    rw [hdrained, hcontexts, hhandler]
    exact List.Perm.refl _
  write := by
    unfold toWrite toDrain
    rw [hwritten, hcontexts, hhandler]
    exact List.Perm.refl _

theorem Notifying.draining (h : s.Notifying) (hhandler : s.handler = .draining) (input : Input) :
    VisitStep s (.io input) (s.draining input) := by
  have hdrained : s.drainedVisit (.io input) = none := by simp only [drainedVisit, hhandler]
  have hwritten : s.writtenVisit (.io input) = none := by cases input <;> simp only [writtenVisit, hhandler]
  cases input with
  | order fds =>
    simp only [EventLoop.draining]
    split
    · exact h.still rfl rfl hdrained hwritten
    split
    · rename_i hperm
      have hdrain : s.toDrain = s.connectContexts.keys := by simp only [toDrain, hhandler]
      have hwrite : s.toWrite = s.connectContexts.keys := by simp only [toWrite, toDrain, hhandler]
      refine ⟨⟨.inr (.inr (.inl ⟨fds, rfl⟩)), fun fd hfd => hperm.mem_iff.1 hfd⟩, fun _ => Iff.rfl, ?_, ?_⟩
      · rw [hdrained, hdrain]
        exact hperm
      · rw [hwritten, hwrite]
        exact hperm
    · exact h.still rfl rfl hdrained hwritten
  | _ => exact h.still rfl rfl hdrained hwritten

theorem Notifying.visiting (h : s.Notifying) {visits : List ℕ} (hhandler : s.handler = .visiting visits)
    (input : Input) : VisitStep s (.io input) (s.visiting visits) := by
  have hdrained : s.drainedVisit (.io input) = none := by simp only [drainedVisit, hhandler]
  have hwritten : s.writtenVisit (.io input) = none := by cases input <;> simp only [writtenVisit, hhandler]
  have hdrain : s.toDrain = visits := by simp only [toDrain, hhandler]
  have hwrite : s.toWrite = visits := by simp only [toWrite, toDrain, hhandler]
  have hlive := h.live
  rw [hwrite] at hlive
  cases visits with
  | nil =>
    refine ⟨⟨.inl rfl, fun fd hfd => absurd hfd List.not_mem_nil⟩, fun _ => Iff.rfl, ?_, ?_⟩
    · rw [hdrained, hdrain]
      rfl
    · rw [hwritten, hwrite]
      rfl
  | cons fd visits =>
    refine ⟨⟨.inr (.inr (.inr (.inl ⟨fd, [], visits, rfl⟩))), hlive⟩, fun _ => Iff.rfl, ?_, ?_⟩
    · rw [hdrained, hdrain]
      rfl
    · rw [hwritten, hwrite]
      rfl

theorem Notifying.popping (h : s.Notifying) {fd : ℕ} {frames : List PosixFrame} {visits : List ℕ}
    (hhandler : s.handler = .popping fd frames (some visits)) (input : Input) :
    VisitStep s (.io input) (s.popping fd frames (some visits)) := by
  have hwritten : s.writtenVisit (.io input) = none := by cases input <;> simp only [writtenVisit, hhandler]
  have hdrain : s.toDrain = fd :: visits := by simp only [toDrain, hhandler]
  have hwrite : s.toWrite = fd :: visits := by simp only [toWrite, toDrain, hhandler]
  have hlive := h.live
  rw [hwrite] at hlive
  obtain ⟨context, hcontext⟩ := Option.isSome_iff_exists.1 (AList.lookup_isSome.2 (hlive fd List.mem_cons_self))
  simp only [EventLoop.popping, hcontext]
  cases hpop : s.mailBox.popFromToClientQueue context.connectId with
  | some popped =>
    have hdrained : s.drainedVisit (.io input) = none := by simp only [drainedVisit, hhandler, hcontext, hpop]
    refine ⟨⟨.inr (.inr (.inr (.inl ⟨fd, _, visits, rfl⟩))), hlive⟩, fun _ => Iff.rfl, ?_, ?_⟩
    · rw [hdrained, hdrain]
      rfl
    · rw [hwritten, hwrite]
      rfl
  | none =>
    have hdrained : s.drainedVisit (.io input) = some fd := by simp only [drainedVisit, hhandler, hcontext, hpop]
    refine ⟨⟨.inr (.inr (.inr (.inr ⟨fd, frames, visits, rfl⟩))), hlive⟩, fun _ => Iff.rfl, ?_, ?_⟩
    · rw [hdrained, hdrain]
      rfl
    · rw [hwritten, hwrite]
      rfl

/-- A write is an error exactly if the socket's is. -/
theorem write_status {context context' : ConnectContext} {frames : List PosixFrame} {results : List SysResult}
    {hasWrite : ℕ} {status : StatusLevel} (h : context.write frames results = .ok (context', hasWrite, status)) :
    status = .error ↔ (PosixSocketHandle.write (context.toWrite frames).length 0 results).2 = .error := by
  simp only [ConnectContext.write] at h
  split at h
  · rename_i hwrite
    rw [hwrite, ← (Prod.mk.inj (Prod.mk.inj (Except.ok.inj h)).2).2]
  rename_i written status' hnot hwrite
  have hsocket : (PosixSocketHandle.write (context.toWrite frames).length 0 results).2 = status' :=
    congrArg Prod.snd hwrite
  rw [hsocket]
  split at h
  · rw [(Prod.mk.inj (Prod.mk.inj (Except.ok.inj h)).2).2]
  split at h
  · exact absurd h (by simp)
  · rw [← (Prod.mk.inj (Prod.mk.inj (Except.ok.inj h)).2).2]
    exact iff_of_false (by simp) hnot

theorem Notifying.flushing (h : s.Notifying) {fd : ℕ} {frames : List PosixFrame} {visits : List ℕ}
    (hhandler : s.handler = .flushing fd frames (some visits)) {input : Input}
    (hok : s.failedVisit (.io input) = none) :
    VisitStep s (.io input) (s.flushing fd frames (some visits) input) := by
  have hdrained : s.drainedVisit (.io input) = none := by simp only [drainedVisit, hhandler]
  have hdrain : s.toDrain = visits := by simp only [toDrain, hhandler]
  have hwrite : s.toWrite = fd :: visits := by simp only [toWrite, hhandler]
  have hlive := h.live
  rw [hwrite] at hlive
  have hfd := hlive fd List.mem_cons_self
  obtain ⟨context, hcontext⟩ := Option.isSome_iff_exists.1 (AList.lookup_isSome.2 hfd)
  cases input with
  | write results resume =>
    simp only [failedVisit, hhandler, hcontext] at hok
    simp only [EventLoop.flushing, hcontext]
    cases hresult : context.write frames results with
    | error e =>
      have hwritten : s.writtenVisit (.io (.write results resume)) = none := by
        simp only [writtenVisit, hhandler, hcontext, hresult]
      exact h.still rfl rfl hdrained hwritten
    | ok result =>
      obtain ⟨context', hasWrite, status⟩ := result
      have hwritten : s.writtenVisit (.io (.write results resume)) = some fd := by
        simp only [writtenVisit, hhandler, hcontext, hresult]
      -- a failed visit is excluded, so the context stays
      have hstatus : status ≠ .error := by
        intro herror
        rw [if_pos ((write_status hresult).1 herror)] at hok
        exact absurd hok (by simp)
      -- the context is replaced, and the descriptors are the same
      have hmem : ∀ fd', fd' ∈ s.connectContexts.insert fd context' ↔ fd' ∈ s.connectContexts := by
        intro fd'
        rw [AList.mem_insert, or_iff_right_of_imp]
        rintro rfl
        exact hfd
      simp only [hstatus, if_false]
      refine ⟨⟨.inr (.inr (.inl ⟨visits, rfl⟩)),
        fun fd' hfd' => (hmem fd').2 (hlive fd' (List.mem_cons_of_mem _ hfd'))⟩, hmem, ?_, ?_⟩
      · rw [hdrained, hdrain]
        exact List.Perm.refl _
      · rw [hwritten, hwrite]
        exact List.Perm.refl _
  | _ => exact h.still rfl rfl hdrained rfl

/-- **A step of `notify_event`** in which no write fails. -/
theorem Notifying.step (h : s.Notifying) (hbusy : s.handler ≠ .idle) {action : LoopAction}
    (hok : s.failedVisit action = none) : VisitStep s action (s.step serverFd eventFd host action) := by
  cases action with
  | io input =>
    -- wherever the handler is, the input is for it
    rcases h.handler with hhandler | hhandler | ⟨visits, hhandler⟩ | ⟨fd, frames, visits, hhandler⟩ |
      ⟨fd, frames, visits, hhandler⟩
    · exact absurd hhandler hbusy
    · simp only [EventLoop.step, io, hhandler]
      exact h.draining hhandler input
    · simp only [EventLoop.step, io, hhandler]
      exact h.visiting hhandler input
    · simp only [EventLoop.step, io, hhandler]
      exact h.popping hhandler input
    · simp only [EventLoop.step, io, hhandler]
      exact h.flushing hhandler hok
  | wait batch =>
    rw [EventLoop.step, if_neg fun hidle => hbusy hidle.1]
    exact h.still rfl rfl rfl rfl
  | arrive socket data =>
    simp only [EventLoop.step]
    split <;> exact h.still rfl rfl rfl rfl
  | shutdown socket => exact h.still rfl rfl rfl rfl
  | take =>
    simp only [EventLoop.step]
    split <;> exact h.still rfl rfl rfl rfl
  | push frame =>
    simp only [EventLoop.step]
    split <;> exact h.still rfl rfl rfl rfl
  | signal =>
    simp only [EventLoop.step]
    split <;> exact h.still rfl rfl rfl rfl

/-! ## Runs of `notify_event` -/

theorem Notifying.start (h : s.handler = .draining) : s.Notifying where
  handler := .inr (.inl h)
  live fd hfd := by
    simp only [toWrite, toDrain, h] at hfd
    exact hfd

/-- An error of the socket is one of the write. -/
theorem exists_write_error {context : ConnectContext} {frames : List PosixFrame} {results : List SysResult}
    (h : (PosixSocketHandle.write (context.toWrite frames).length 0 results).2 = .error) :
    ∃ context' hasWrite, context.write frames results = .ok (context', hasWrite, .error) := by
  simp only [ConnectContext.write]
  split
  · exact ⟨_, _, rfl⟩
  · rename_i hnot hwrite
    rw [hwrite] at h
    exact (hnot h).elim

/-- What there is if a write fails. -/
theorem failedVisit_eq_some {action : LoopAction} {fd : ℕ} (h : s.failedVisit action = some fd) :
    ∃ results resume frames visits context context' hasWrite, action = .io (.write results resume) ∧
      s.handler = .flushing fd frames (some visits) ∧ s.connectContexts.lookup fd = some context ∧
      context.write frames results = .ok (context', hasWrite, .error) := by
  unfold failedVisit at h
  split at h
  · rename_i results resume
    split at h
    · rename_i fd' frames visits hhandler
      split at h
      · exact absurd h (by simp)
      rename_i context hcontext
      split at h
      · rename_i hfails
        obtain rfl := Option.some.inj h
        obtain ⟨context', hasWrite, hwrite⟩ := exists_write_error hfails
        exact ⟨results, resume, frames, visits, context, context', hasWrite, rfl, hhandler, hcontext, hwrite⟩
      · exact absurd h (by simp)
    · exact absurd h (by simp)
  · exact absurd h (by simp)

/-- **A write that fails** erases the element that the loop is at. -/
theorem erasesVisited_of_failedVisit {action : LoopAction} {fd : ℕ} (h : s.failedVisit action = some fd) :
    s.erasesVisited serverFd eventFd host action := by
  obtain ⟨results, resume, frames, visits, context, context', hasWrite, rfl, hhandler, hcontext, hwrite⟩ :=
    failedVisit_eq_some h
  refine ⟨fd, by simp only [visited, hhandler], AList.lookup_isSome.1 (by rw [hcontext]; rfl), ?_⟩
  simp only [EventLoop.step, io, hhandler, EventLoop.flushing, hcontext, hwrite, if_true]
  intro hmem
  obtain ⟨later, hlater⟩ := Option.isSome_iff_exists.1 (AList.lookup_isSome.2 hmem)
  exact (removeConnect_lookup hlater).1 rfl

/-- Descriptors are those of live connections once each. -/
theorem count_keys {fd : ℕ} (h : fd ∈ s.connectContexts) : s.connectContexts.keys.count fd = 1 :=
  List.count_eq_one_of_mem s.connectContexts.keys_nodup (AList.mem_keys.1 h)

/-- **A `notify_event` in which no write fails** visits every connection once and keeps it. -/
theorem NotifyRun.sound {actions : List LoopAction} (h : NotifyRun serverFd eventFd host s actions)
    (hok : Run.Meets (fun s action => s.failedVisit action = none) (EventLoop.step serverFd eventFd host)
      s actions) :
    NotifySound serverFd eventFd host s actions := by
  have hnotifying := Notifying.start h.start
  have hm := h.during.and hok
  have hdrain : (Run.trace drainedVisit (EventLoop.step serverFd eventFd host) s actions ++
      toDrain (actions.foldl (EventLoop.step serverFd eventFd host) s)).Perm s.toDrain :=
    hm.trace_perm Notifying
      (fun s action hs hok => ⟨(hs.step hok.1 hok.2).notifying, (hs.step hok.1 hok.2).drain⟩) hnotifying
  have hwrite : (Run.trace writtenVisit (EventLoop.step serverFd eventFd host) s actions ++
      toWrite (actions.foldl (EventLoop.step serverFd eventFd host) s)).Perm s.toWrite :=
    hm.trace_perm Notifying
      (fun s action hs hok => ⟨(hs.step hok.1 hok.2).notifying, (hs.step hok.1 hok.2).write⟩) hnotifying
  -- nothing is pending at the end, and at the beginning every connection is
  have hstart : s.toDrain = s.connectContexts.keys := by simp only [toDrain, h.start]
  have hstart' : s.toWrite = s.connectContexts.keys := by simp only [toWrite, toDrain, h.start]
  have hfinish : toDrain (actions.foldl (EventLoop.step serverFd eventFd host) s) = [] := by
    simp only [toDrain, h.finish]
  have hfinish' : toWrite (actions.foldl (EventLoop.step serverFd eventFd host) s) = [] := by
    simp only [toWrite, toDrain, h.finish]
  rw [hstart, hfinish, List.append_nil] at hdrain
  rw [hstart', hfinish', List.append_nil] at hwrite
  have hkept := hm.invariant (fun t => t.Notifying ∧ ∀ fd, fd ∈ t.connectContexts ↔ fd ∈ s.connectContexts)
    (fun t action ht hok => ⟨(ht.1.step hok.1 hok.2).notifying,
      fun fd => ((ht.1.step hok.1 hok.2).mem fd).trans (ht.2 fd)⟩) ⟨hnotifying, fun _ => Iff.rfl⟩
  constructor
  · intro fd hfd
    rw [hdrain.count_eq, count_keys hfd]
  · intro fd hfd
    rw [hwrite.count_eq, count_keys hfd]
  · intro fd
    rw [hok.trace_eq_nil, hkept.2 fd]
    simp
  · refine hm.imp_of_invariant Notifying (fun t action ht hok => ⟨(ht.step hok.1 hok.2).notifying, ?_⟩) hnotifying
    rintro ⟨fd, -, hmem, hgone⟩
    exact hgone (((ht.step hok.1 hok.2).mem fd).2 hmem)

/-- **When `notify_event` is sound**: no write of a connection that it visits fails. -/
theorem notifySound_iff {actions : List LoopAction} (h : NotifyRun serverFd eventFd host s actions) :
    NotifySound serverFd eventFd host s actions ↔
      Run.Meets (fun s action => s.failedVisit action = none) (step serverFd eventFd host) s actions := by
  constructor
  · intro hsound
    refine hsound.present.imp_of_invariant (fun _ => True) (fun t action _ hkeeps => ⟨trivial, ?_⟩) trivial
    by_contra hfails
    obtain ⟨fd, hfd⟩ := Option.ne_none_iff_exists'.1 hfails
    exact hkeeps (erasesVisited_of_failedVisit hfd)
  · exact h.sound

/-- Connections on descriptors 5 and 6, and a frame for each of them; the loop's thread enters
`notify_event`. -/
def twoConnections : EventLoop :=
  [.wait [(3, { epollIn := true })], .io .go, .io (.accept 5 true ⟨0, 0, 0, .none, 0, 0⟩),
    .io (.accept 6 true ⟨0, 0, 0, .none, 0, 0⟩), .io .noConnection, .push ⟨0, [1]⟩, .push ⟨1, [2]⟩, .signal,
    .wait [(4, { epollIn := true })], .io .go].foldl (step 3 4 .little) init

/-- The loop of `notify_event` visits 5 and then 6; the socket answers the write to 5 so. -/
def twoVisits (answer : SysResult) : List LoopAction :=
  [.io (.order [5, 6]), .io (.order [5, 6]), .io .go, .io .go, .io .go, .io (.write [answer] [6]), .io .go,
    .io .go, .io .go, .io (.write [.bytes 1] []), .io .go]

instance (s : EventLoop) (action : LoopAction) : Decidable (s.erasesVisited serverFd eventFd host action) :=
  decidable_of_iff (∃ fd ∈ s.visited, fd ∈ s.connectContexts ∧
    fd ∉ (s.step serverFd eventFd host action).connectContexts) Iff.rfl

theorem notifySound_iff_two :
    NotifyRun 3 4 .little twoConnections (twoVisits (.bytes 1)) ∧
      (NotifySound 3 4 .little twoConnections (twoVisits (.bytes 1)) ↔
        Run.Meets (fun s action => s.failedVisit action = none) (step 3 4 .little) twoConnections
          (twoVisits (.bytes 1))) := by
  have h : NotifyRun 3 4 .little twoConnections (twoVisits (.bytes 1)) :=
    ⟨by decide +kernel, by decide +kernel, by decide +kernel⟩
  exact ⟨h, notifySound_iff h⟩

/-- **The write to one of two connections fails**: the element is erased while the loop is at it,
and the loop goes on from it. -/
theorem notifyEvent_advances_erased :
    NotifyRun 3 4 .little twoConnections (twoVisits .failed) ∧
      Run.trace failedVisit (step 3 4 .little) twoConnections (twoVisits .failed) = [5] ∧
      ¬NotifySound 3 4 .little twoConnections (twoVisits .failed) := by
  refine ⟨⟨by decide +kernel, by decide +kernel, by decide +kernel⟩, by decide +kernel, ?_⟩
  intro h
  exact absurd h.present (by decide +kernel)

end EventLoop

end ProjectTrans
