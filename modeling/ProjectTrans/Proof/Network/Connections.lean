import ProjectTrans.Lib.Run
import ProjectTrans.Proof.Network.LoopSteps

/-!
# Live connections

Descriptors, ids, sockets and queues of live connections correspond one to one after every run
in which the counter does not wrap (`connected_run`).
-/

namespace ProjectTrans

open Wire

namespace EventLoop

variable {s : EventLoop} {action : LoopAction}

/-- No socket is behind two descriptors. -/
structure Distinct (s : EventLoop) : Prop where
  accepted : ∀ fd context, s.connectContexts.lookup fd = some context → context.socket < s.accepted
  sockets : ∀ fd fd' context context', s.connectContexts.lookup fd = some context →
    s.connectContexts.lookup fd' = some context' → context.socket = context'.socket → fd = fd'

/-- Descriptors, ids, sockets and queues of live connections correspond one to one. -/
structure Connected (s : EventLoop) : Prop extends Distinct s where
  counter : s.connectCounter.toNat = s.accepted
  ids : ∀ fd context, s.connectContexts.lookup fd = some context → context.connectId.toNat = context.socket
  /-- There are queues for the live connections. -/
  queues : ∀ connectId, connectId ∈ s.mailBox.toClientQueues ↔
    ∃ fd context, s.connectContexts.lookup fd = some context ∧ context.connectId = connectId

theorem Connected.init : init.Connected where
  accepted := fun _ _ h => absurd h (by simp [EventLoop.init])
  sockets := fun _ _ _ _ h => absurd h (by simp [EventLoop.init])
  counter := rfl
  ids := fun _ _ h => absurd h (by simp [EventLoop.init])
  queues := fun connectId => ⟨fun h => absurd h (AList.notMem_empty connectId), fun ⟨_, _, h, _⟩ =>
    absurd h (by simp [EventLoop.init])⟩

/-- What makes a connection: its id and its socket. -/
def identity (context : ConnectContext) : UInt64 × ℕ := (context.connectId, context.socket)

/-- It is enough that live connections were live before, on the same sockets. -/
theorem Distinct.of_lookup (h : s.Distinct) {s' : EventLoop}
    (hold : ∀ fd context', s'.connectContexts.lookup fd = some context' →
      ∃ context, s.connectContexts.lookup fd = some context ∧ context.socket = context'.socket)
    (haccepted : s.accepted ≤ s'.accepted) : s'.Distinct where
  accepted := by
    intro fd context' hcontext'
    obtain ⟨context, hcontext, hsocket⟩ := hold fd context' hcontext'
    rw [← hsocket]
    exact lt_of_lt_of_le (h.accepted fd context hcontext) haccepted
  sockets := by
    intro fd fd' context₁ context₂ hcontext₁ hcontext₂ heq
    obtain ⟨context, hcontext, hsocket⟩ := hold fd context₁ hcontext₁
    obtain ⟨context', hcontext', hsocket'⟩ := hold fd' context₂ hcontext₂
    refine h.sockets fd fd' context context' hcontext hcontext' ?_
    rw [hsocket, heq, hsocket']

/-- What is found after a connection is registered was there before, or is the new connection. -/
theorem addConnect_lookup {fd fd' : ℕ} {freshHeader : SerializeHeader} {context : ConnectContext}
    (h : (s.addConnect fd freshHeader).connectContexts.lookup fd' = some context) :
    (fd' = fd ∧ context = ⟨s.connectCounter, s.accepted, .new freshHeader, []⟩) ∨
      fd' ≠ fd ∧ s.connectContexts.lookup fd' = some context :=
  Table.lookup_insert_eq_some.1 h

theorem Distinct.addConnect (h : s.Distinct) (fd : ℕ) (freshHeader : SerializeHeader) :
    (s.addConnect fd freshHeader).Distinct where
  accepted := by
    intro fd' context' hcontext'
    show context'.socket < s.accepted + 1
    rcases addConnect_lookup hcontext' with ⟨-, rfl⟩ | ⟨-, hcontext'⟩
    · exact Nat.lt_succ_self _
    · exact Nat.lt_succ_of_lt (h.accepted fd' context' hcontext')
  sockets := by
    intro fd' fd'' context' context'' hcontext' hcontext'' heq
    -- the new connection has the next number, the old ones have smaller numbers
    rcases addConnect_lookup hcontext' with ⟨hfd', rfl⟩ | ⟨-, hcontext'⟩ <;>
      rcases addConnect_lookup hcontext'' with ⟨hfd'', rfl⟩ | ⟨-, hcontext''⟩
    · rw [hfd', hfd'']
    · have hlt := h.accepted fd'' context'' hcontext''
      rw [← heq] at hlt
      exact absurd hlt (lt_irrefl _)
    · have hlt := h.accepted fd' context' hcontext'
      rw [heq] at hlt
      exact absurd hlt (lt_irrefl _)
    · exact h.sockets fd' fd'' context' context'' hcontext' hcontext'' heq

/-- It is enough that connections keep their ids and sockets, and the mailbox its queues. -/
theorem Connected.congr (h : s.Connected) {s' : EventLoop}
    (hcontexts : ∀ fd, (s'.connectContexts.lookup fd).map identity = (s.connectContexts.lookup fd).map identity)
    (hqueues : ∀ connectId, connectId ∈ s'.mailBox.toClientQueues ↔ connectId ∈ s.mailBox.toClientQueues)
    (hcounter : s'.connectCounter = s.connectCounter) (haccepted : s'.accepted = s.accepted) : s'.Connected := by
  -- contexts may change, and keep socket and id
  have hold : ∀ fd context', s'.connectContexts.lookup fd = some context' →
      ∃ context, s.connectContexts.lookup fd = some context ∧ identity context = identity context' :=
    fun fd _ hcontext' => Table.lookup_of_map_eq (hcontexts fd) hcontext'
  have hnew : ∀ fd context, s.connectContexts.lookup fd = some context →
      ∃ context', s'.connectContexts.lookup fd = some context' ∧ identity context' = identity context :=
    fun fd _ hcontext => Table.lookup_of_map_eq (hcontexts fd).symm hcontext
  refine ⟨h.toDistinct.of_lookup (fun fd context' hcontext' => ?_) haccepted.ge,
    by rw [hcounter, haccepted, h.counter], fun fd context' hcontext' => ?_, fun connectId => ?_⟩
  · obtain ⟨context, hcontext, hid⟩ := hold fd context' hcontext'
    exact ⟨context, hcontext, (Prod.mk.inj hid).2⟩
  · obtain ⟨context, hcontext, hid⟩ := hold fd context' hcontext'
    obtain ⟨hconnectId, hsocket⟩ := Prod.mk.inj hid
    rw [← hconnectId, ← hsocket]
    exact h.ids fd context hcontext
  · rw [hqueues, h.queues]
    constructor
    · rintro ⟨fd, context, hcontext, rfl⟩
      obtain ⟨context', hcontext', hid⟩ := hnew fd context hcontext
      exact ⟨fd, context', hcontext', (Prod.mk.inj hid).1⟩
    · rintro ⟨fd, context', hcontext', rfl⟩
      obtain ⟨context, hcontext, hid⟩ := hold fd context' hcontext'
      exact ⟨fd, context, hcontext, (Prod.mk.inj hid).1⟩

/-- Ids tell live connections apart. -/
theorem Connected.fd_eq (h : s.Connected) {fd fd' : ℕ} {context context' : ConnectContext}
    (hcontext : s.connectContexts.lookup fd = some context)
    (hcontext' : s.connectContexts.lookup fd' = some context')
    (hid : context.connectId = context'.connectId) : fd = fd' := by
  refine h.sockets fd fd' context context' hcontext hcontext' ?_
  rw [← h.ids fd context hcontext, ← h.ids fd' context' hcontext', hid]

theorem Distinct.removeConnect (h : s.Distinct) (fd : ℕ) : (s.removeConnect fd).Distinct :=
  h.of_lookup (fun _ context hcontext => ⟨context, (removeConnect_lookup hcontext).2, rfl⟩)
    (removeConnect_accepted s fd).ge

theorem Connected.removeConnect (h : s.Connected) (fd : ℕ) : (s.removeConnect fd).Connected := by
  refine { h.toDistinct.removeConnect fd with counter := ?_, ids := ?_, queues := ?_ }
  · rw [removeConnect_accepted, removeConnect_connectCounter, h.counter]
  · intro fd' context hcontext
    exact h.ids fd' context (removeConnect_lookup hcontext).2
  · intro connectId
    unfold EventLoop.removeConnect
    split
    · exact h.queues connectId
    rename_i context hcontext
    simp only [ReactorMailBox.removeToClientQueue, AList.mem_erase, h.queues]
    constructor
    · rintro ⟨hne, fd', context', hcontext', rfl⟩
      have hfd : fd' ≠ fd := by
        rintro rfl
        rw [hcontext] at hcontext'
        exact hne (congrArg ConnectContext.connectId (Option.some.inj hcontext')).symm
      exact ⟨fd', context', by rw [AList.lookup_erase_ne hfd, hcontext'], rfl⟩
    · rintro ⟨fd', context', hcontext', rfl⟩
      -- the queue of the removed connection is gone, and only that one
      by_cases hfd : fd' = fd
      · subst hfd
        rw [AList.lookup_erase] at hcontext'
        exact absurd hcontext' (by simp)
      · rw [AList.lookup_erase_ne hfd] at hcontext'
        exact ⟨fun heq => hfd (h.fd_eq hcontext' hcontext heq), fd', context', hcontext', rfl⟩

theorem Connected.addConnect (h : s.Connected) {fd : ℕ} (hfd : fd ∉ s.connectContexts)
    (freshHeader : SerializeHeader)
    (hfew : s.accepted + 1 < 2 ^ 64) : (s.addConnect fd freshHeader).Connected := by
  have hcounter := h.counter
  refine { h.toDistinct.addConnect fd freshHeader with counter := ?_, ids := ?_, queues := ?_ }
  · show (s.connectCounter + 1).toNat = s.accepted + 1
    rw [UInt64.toNat_add, hcounter, show (1 : UInt64).toNat = 1 from rfl]
    omega
  · intro fd' context' hcontext'
    rcases addConnect_lookup hcontext' with ⟨-, rfl⟩ | ⟨-, hcontext'⟩
    · exact hcounter
    · exact h.ids fd' context' hcontext'
  · intro connectId
    -- the new connection has a queue, and the others keep theirs
    have hqueues : connectId ∈ (s.addConnect fd freshHeader).mailBox.toClientQueues ↔
        connectId = s.connectCounter ∨ connectId ∈ s.mailBox.toClientQueues := AList.mem_insert _
    rw [hqueues, h.queues]
    constructor
    · rintro (rfl | ⟨fd', context', hcontext', rfl⟩)
      · exact ⟨fd, _, AList.lookup_insert _, rfl⟩
      · refine ⟨fd', context', ?_, rfl⟩
        have hne : fd' ≠ fd := by
          rintro rfl
          rw [AList.lookup_eq_none.2 hfd] at hcontext'
          exact absurd hcontext' (by simp)
        exact (AList.lookup_insert_ne hne).trans hcontext'
    · rintro ⟨fd', context', hcontext', rfl⟩
      rcases addConnect_lookup hcontext' with ⟨-, rfl⟩ | ⟨-, hcontext'⟩
      · exact .inl rfl
      · exact .inr ⟨fd', context', hcontext', rfl⟩

/-- A write that does not fault changes the buffer and nothing else. -/
theorem write_context {context context' : ConnectContext} {frames : List PosixFrame} {results : List SysResult}
    {hasWrite : ℕ} {status : StatusLevel} (h : context.write frames results = .ok (context', hasWrite, status)) :
    context' = { context with writeBuffer := context'.writeBuffer } := by
  simp only [ConnectContext.write] at h
  split at h
  · obtain ⟨rfl, -⟩ := Prod.mk.inj (Except.ok.inj h)
    rfl
  split at h
  · obtain ⟨rfl, -⟩ := Prod.mk.inj (Except.ok.inj h)
    rfl
  split at h
  · exact absurd h (by simp)
  · obtain ⟨rfl, -⟩ := Prod.mk.inj (Except.ok.inj h)
    rfl

theorem write_identity {context context' : ConnectContext} {frames : List PosixFrame} {results : List SysResult}
    {hasWrite : ℕ} {status : StatusLevel} (h : context.write frames results = .ok (context', hasWrite, status)) :
    identity context' = identity context := by
  rw [write_context h]
  rfl

/-- What is found where another context was put in the place of one. -/
theorem lookup_insert_identity {fd fd' : ℕ} {context context₁ context₂ : ConnectContext}
    (hcontext : s.connectContexts.lookup fd = some context) (hid : identity context₁ = identity context)
    (h : (s.connectContexts.insert fd context₁).lookup fd' = some context₂) :
    ∃ context', s.connectContexts.lookup fd' = some context' ∧ identity context' = identity context₂ := by
  rcases Table.lookup_insert_eq_some.1 h with ⟨rfl, rfl⟩ | ⟨-, hold⟩
  · exact ⟨context, hcontext, hid.symm⟩
  · exact ⟨context₂, hold, rfl⟩

theorem Same.lookup {s' : EventLoop} (h : s.Same s') {fd : ℕ} {context' : ConnectContext}
    (hcontext' : s'.connectContexts.lookup fd = some context') :
    ∃ context, s.connectContexts.lookup fd = some context ∧ out context = out context' :=
  Table.lookup_of_map_eq (h.contexts fd) hcontext'

theorem identity_of_out {context context' : ConnectContext} (h : out context = out context') :
    identity context = identity context' := by
  simp only [out, Prod.mk.injEq] at h
  exact Prod.ext h.1 h.2.1

/-- **A live connection was live before**, or is the one that is registered. -/
theorem Change.lookup {s' : EventLoop} (h : s.Change action s') {fd : ℕ} {context' : ConnectContext}
    (hcontext' : s'.connectContexts.lookup fd = some context') :
    (∃ context, s.connectContexts.lookup fd = some context ∧ identity context = identity context') ∨
      ∃ freshHeader, action = .io (.accept fd true freshHeader) ∧ s.handler = .accepting ∧
        identity context' = (s.connectCounter, s.accepted) ∧ s.accepted < s'.accepted := by
  have hsame : ∀ {t : EventLoop}, s.Same t → t.connectContexts.lookup fd = some context' →
      ∃ context, s.connectContexts.lookup fd = some context ∧ identity context = identity context' := by
    intro t ht hcontext
    obtain ⟨context, hcontext, hout⟩ := ht.lookup hcontext
    exact ⟨context, hcontext, identity_of_out hout⟩
  cases h with
  | same hs => exact .inl (hsame hs hcontext')
  | @add fd' freshHeader haction hhandler hfd =>
    rcases addConnect_lookup hcontext' with ⟨rfl, rfl⟩ | ⟨-, hcontext⟩
    · exact .inr ⟨freshHeader, haction, hhandler, rfl, Nat.lt_succ_self _⟩
    · exact .inl ⟨context', hcontext, rfl⟩
  | remove hs hhand hhand' hcomes => exact .inl (hsame hs (removeConnect_lookup hcontext').2)
  | pop hhandler hcontext hqueue => exact .inl ⟨context', hcontext', rfl⟩
  | flush haction hhandler hcontext hwrite hstatus =>
    exact .inl (lookup_insert_identity hcontext (write_identity hwrite) hcontext')
  | flushFailed haction hhandler hcontext hwrite => exact .inl ⟨context', (removeConnect_lookup hcontext').2, rfl⟩
  | push haction hqueue => exact .inl ⟨context', hcontext', rfl⟩

theorem Change.accepted_le {s' : EventLoop} (h : s.Change action s') : s.accepted ≤ s'.accepted := by
  cases h with
  | same hs => exact hs.accepted.ge
  | add haction hhandler hfd => exact Nat.le_succ _
  | remove hs hhand hhand' hcomes =>
    simp only [removeConnect_accepted]
    exact hs.accepted.ge
  | pop hhandler hcontext hqueue => exact le_rfl
  | flush haction hhandler hcontext hwrite hstatus => exact le_rfl
  | flushFailed haction hhandler hcontext hwrite =>
    simp only [removeConnect_accepted]
    exact le_rfl
  | push haction hqueue => exact le_rfl

/-- **Sockets stay apart** over every change. -/
theorem Distinct.change (h : s.Distinct) {s' : EventLoop} (hchange : s.Change action s') : s'.Distinct where
  accepted := by
    intro fd context' hcontext'
    rcases hchange.lookup hcontext' with ⟨context, hcontext, hid⟩ | ⟨-, -, -, hid, hlt⟩
    · rw [← (Prod.mk.inj hid).2]
      exact lt_of_lt_of_le (h.accepted fd context hcontext) hchange.accepted_le
    · rw [(Prod.mk.inj hid).2]
      exact hlt
  sockets := by
    intro fd fd' context₁ context₂ hcontext₁ hcontext₂ heq
    rcases hchange.lookup hcontext₁ with ⟨context, hcontext, hid⟩ | ⟨_, haction, -, hid, -⟩ <;>
      rcases hchange.lookup hcontext₂ with ⟨context', hcontext', hid'⟩ | ⟨_, haction', -, hid', -⟩
    · refine h.sockets fd fd' context context' hcontext hcontext' ?_
      rw [(Prod.mk.inj hid).2, heq, (Prod.mk.inj hid').2]
    · have hlt := h.accepted fd context hcontext
      rw [(Prod.mk.inj hid).2, heq, (Prod.mk.inj hid').2] at hlt
      exact absurd hlt (lt_irrefl _)
    · have hlt := h.accepted fd' context' hcontext'
      rw [(Prod.mk.inj hid').2, ← heq, (Prod.mk.inj hid).2] at hlt
      exact absurd hlt (lt_irrefl _)
    · rw [haction] at haction'
      exact (Input.accept.inj (LoopAction.io.inj haction')).1

/-- **Connections stay in order** over every change, as long as the counter does not wrap. -/
theorem Connected.change (h : s.Connected) {s' : EventLoop} (hchange : s.Change action s')
    (hfew : s'.accepted < 2 ^ 64) : s'.Connected := by
  have hsame : ∀ {t : EventLoop}, s.Same t → t.Connected := by
    intro t ht
    refine h.congr (fun fd => ?_) (fun _ => by rw [ht.queues]) ht.connectCounter ht.accepted
    have hfd := congrArg (Option.map fun o : UInt64 × ℕ × Bytes => (o.1, o.2.1)) (ht.contexts fd)
    rwa [Option.map_map, Option.map_map] at hfd
  cases hchange with
  | same hs => exact hsame hs
  | add haction hhandler hfd => exact h.addConnect hfd _ hfew
  | remove hs hhand hhand' hcomes =>
    exact ((hsame hs).removeConnect _).congr (fun _ => rfl) (fun _ => Iff.rfl) rfl rfl
  | pop hhandler hcontext hqueue =>
    exact h.congr (fun _ => rfl) (fun _ => Table.mem_insert_of_lookup hqueue) rfl rfl
  | flush haction hhandler hcontext hwrite hstatus =>
    exact h.congr (fun _ => Table.map_lookup_insert hcontext (write_identity hwrite)) (fun _ => Iff.rfl) rfl rfl
  | flushFailed haction hhandler hcontext hwrite =>
    refine Connected.congr (Connected.removeConnect ?_ _) (fun _ => rfl) (fun _ => Iff.rfl) rfl rfl
    exact h.congr (fun _ => rfl) (fun _ => Iff.rfl) rfl rfl
  | push haction hqueue => exact h.congr (fun _ => rfl) (fun _ => Table.mem_insert_of_lookup hqueue) rfl rfl

variable {serverFd eventFd : ℕ} {host : Endian}

/-- Only `accept` registers connections, one at a time. -/
theorem step_accepted (s : EventLoop) (action : LoopAction) :
    (s.step serverFd eventFd host action).accepted ≤ s.accepted + if action.isAccept then 1 else 0 := by
  have hchange := s.step_change serverFd eventFd host action
  generalize s.step serverFd eventFd host action = s' at hchange
  cases hchange with
  | same h => exact h.accepted.le.trans (Nat.le_add_right _ _)
  | add haction hhandler hfd =>
    rw [haction]
    exact le_rfl
  | @remove t fd _ h =>
    have haccepted : (t.removeConnect fd).accepted = s.accepted := (removeConnect_accepted t fd).trans h.accepted
    exact haccepted.le.trans (Nat.le_add_right _ _)
  | pop => exact Nat.le_add_right _ _
  | flush => exact Nat.le_add_right _ _
  | @flushFailed fd frames _ context _ _ hasWrite =>
    have haccepted : ((s.handOver context frames hasWrite).removeConnect fd).accepted = s.accepted :=
      removeConnect_accepted _ fd
    exact haccepted.le.trans (Nat.le_add_right _ _)
  | push => exact Nat.le_add_right _ _

/-- **Fewer than `2 ^ 64` connections**: the counter does not wrap on the run. -/
theorem meets_few {actions : List LoopAction} (hfew : actions.countP LoopAction.isAccept < 2 ^ 64) :
    Run.Meets (fun s action => (EventLoop.step serverFd eventFd host s action).accepted < 2 ^ 64)
      (EventLoop.step serverFd eventFd host) EventLoop.init actions := by
  have hbudget : Run.Meets
      (fun (s : EventLoop) (action : LoopAction) => s.accepted + (if action.isAccept then 1 else 0) ≤ 2 ^ 64 - 1)
      (EventLoop.step serverFd eventFd host) EventLoop.init actions := by
    refine Run.Meets.of_countP step_accepted ?_
    show 0 + _ ≤ _
    omega
  refine hbudget.imp_of_invariant (fun _ => True) (fun s action _ hok => ⟨trivial, ?_⟩) trivial
  refine lt_of_le_of_lt (step_accepted s action) ?_
  omega

/-- **Live connections correspond one to one** to ids, sockets and queues after every run. -/
theorem connected_run {actions : List LoopAction} (hfew : actions.countP LoopAction.isAccept < 2 ^ 64) :
    (actions.foldl (EventLoop.step serverFd eventFd host) EventLoop.init).Connected :=
  (meets_few hfew).invariant Connected
    (fun s action h hok => h.change (s.step_change serverFd eventFd host action) hok) .init

end EventLoop

end ProjectTrans
