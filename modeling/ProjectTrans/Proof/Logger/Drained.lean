import ProjectTrans.Proof.Logger.AsyncLogger

/-!
# What the asynchronous logger writes

`log_msg` tests the flag outside the lock that protects the queue. `drained`: in every run
in which no call pushes its message once the file handler is gone, and the log file opens
when it is needed, each message for the file is written once, the queued ones in the order
of the queue, and those of the calls that have returned are there when `stop_async_log`
has. A message that is pushed too late is never written (`late_push_lost`).
-/

namespace ProjectTrans

/-- The steps a call has left. -/
def LogPhase.left : LogPhase → ℕ
  | .called => 2
  | .pushing => 1
  | .writing => 1
  | .returned => 0

namespace AsyncLogger

variable {config : LoggerConfig} {s : AsyncLogger}

/-- The logger in the course of a run without end. -/
abbrev stateAt (config : LoggerConfig) (s : AsyncLogger) (actions : ℕ → LogAction) : ℕ → AsyncLogger :=
  Run.states (step config) s actions

/-- A run without end whose steps meet the condition, and in which the file handler and every
call always go on. -/
structure FairRun (config : LoggerConfig) (s : AsyncLogger) (actions : ℕ → LogAction) : Prop where
  good : ∀ t, (stateAt config s actions t).Good (actions t)
  handler : ∀ t, ∃ t', t ≤ t' ∧ ∃ opens, actions t' = .handler opens
  calls : ∀ id t, ∃ t', t ≤ t' ∧ ∃ opens, actions t' = .log id opens

/-- **What the file gets.** Every line is the message of a call for the file that has
returned, no call's is there twice, and those that went through the queue stand in its
order. Once `stop_async_log` has returned, the messages of all calls that have returned are
there; and every call that has begun will have its message written. -/
structure Drained (config : LoggerConfig) (s : AsyncLogger) : Prop where
  lines : ∀ m ∈ s.logFile, s.Owed config m
  once : (s.logFile.map Message.call).Nodup
  inOrder : s.logFile.filter (· ∈ s.pushed) <+: s.pushed
  afterStop : s.stop = .returned → ∀ m, s.Owed config m → m ∈ s.logFile
  written : ∀ actions, FairRun config s actions → ∀ (id : ℕ) (call : LogMsg), s.calls[id]? = some call →
    config.writesFile call.level = true → ∃ t, ⟨id, call.logStr⟩ ∈ (stateAt config s actions t).logFile

/-! ## Calls go on -/

section Calls

@[simp] theorem notifyAll_calls (s : AsyncLogger) : s.notifyAll.calls = s.calls := rfl

@[simp] theorem notifyOne_calls (s : AsyncLogger) : s.notifyOne.calls = s.calls := rfl

@[simp] theorem write_calls (s : AsyncLogger) (m : Message) (opens : Bool) :
    (s.write m opens).calls = s.calls := by
  unfold write
  split <;> rfl

@[simp] theorem waitUntilEmpty_calls (s : AsyncLogger) : s.waitUntilEmpty.calls = s.calls := by
  unfold waitUntilEmpty
  split <;> rfl

@[simp] theorem stopAsyncLog_calls (s : AsyncLogger) : s.stopAsyncLog.calls = s.calls := by
  unfold stopAsyncLog
  split <;> try split
  all_goals simp

@[simp] theorem asyncFileLogHandler_calls (s : AsyncLogger) (opens : Bool) :
    (s.asyncFileLogHandler opens).calls = s.calls := by
  unfold asyncFileLogHandler
  split
  · split
    · split <;> simp
    · simp
  · simp
  · rfl

variable {id : ℕ} {call : LogMsg}

theorem logMsg_calls_ne {id' : ℕ} (h : id ≠ id') (opens : Bool) :
    (s.logMsg config id opens).calls[id']? = s.calls[id']? := by
  unfold logMsg
  split
  · rfl
  · split
    · split
      · split <;> exact getElem?_setPhase_ne h
      · exact getElem?_setPhase_ne h
    · exact getElem?_setPhase_ne h
    · rw [write_calls]
      exact getElem?_setPhase_ne h
    · rfl

/-- **A step of the call itself** leaves it fewer. -/
theorem logMsg_calls_self (config : LoggerConfig) (hcall : s.calls[id]? = some call) (opens : Bool) :
    ∃ phase, (s.logMsg config id opens).calls[id]? = some { call with phase := phase } ∧
      phase.left ≤ call.phase.left - 1 := by
  unfold logMsg
  rw [hcall]
  simp only
  cases hat : call.phase with
  | called =>
    simp only
    split
    · split
      · exact ⟨.pushing, getElem?_setPhase_self hcall, le_rfl⟩
      · exact ⟨.writing, getElem?_setPhase_self hcall, le_rfl⟩
    · exact ⟨.returned, getElem?_setPhase_self hcall, Nat.zero_le _⟩
  | pushing => exact ⟨.returned, getElem?_setPhase_self hcall, Nat.zero_le _⟩
  | writing =>
    refine ⟨.returned, ?_, Nat.zero_le _⟩
    simp only
    rw [write_calls]
    exact getElem?_setPhase_self hcall
  | returned =>
    refine ⟨.returned, ?_, Nat.zero_le _⟩
    rw [hcall, ← hat]

/-- **A call keeps what it was called with**, and has no more steps left than before. -/
theorem step_calls (config : LoggerConfig) (hcall : s.calls[id]? = some call) (action : LogAction) :
    ∃ phase, (s.step config action).calls[id]? = some { call with phase := phase } ∧
      phase.left ≤ call.phase.left := by
  have hsame : s.calls[id]? = some { call with phase := call.phase } := hcall
  cases action with
  | begin level logStr =>
    refine ⟨call.phase, ?_, le_rfl⟩
    have hlt := (List.getElem?_eq_some_iff.1 hcall).1
    exact (List.getElem?_append_left hlt).trans hcall
  | log id' opens =>
    by_cases hid : id' = id
    · subst hid
      obtain ⟨phase, hphase, hleft⟩ := logMsg_calls_self config hcall opens
      exact ⟨phase, hphase, by omega⟩
    · exact ⟨call.phase, (logMsg_calls_ne hid opens).trans hsame, le_rfl⟩
  | handler opens => exact ⟨call.phase, by simpa [step] using hsame, le_rfl⟩
  | stop => exact ⟨call.phase, by simpa [step] using hsame, le_rfl⟩
  | wake => exact ⟨call.phase, by simpa [step] using hsame, le_rfl⟩

theorem Owed.step {m : Message} (h : s.Owed config m) (action : LogAction) :
    (s.step config action).Owed config m := by
  obtain ⟨call, hcall, hlogStr, hreturned, hwrites⟩ := h
  obtain ⟨phase, hnext, hleft⟩ := step_calls config hcall action
  refine ⟨_, hnext, hlogStr, ?_, hwrites⟩
  rw [hreturned] at hleft
  cases phase <;> simp [LogPhase.left] at hleft ⊢

end Calls

/-! ## Messages go on -/

section Messages

variable {m : Message}

/-- The steps of the file handler until the message is written. -/
def behind (s : AsyncLogger) (m : Message) : ℕ :=
  if m ∈ s.logFile then 0 else 2 * s.pending.idxOf m + if s.handler.inHand = [] then 2 else 1

theorem behind_eq_zero : s.behind m = 0 ↔ m ∈ s.logFile := by
  unfold behind
  split
  · rename_i hm
    simp [hm]
  · rename_i hm
    simp only [hm, iff_false]
    split <;> omega

/-- What a step other than the file handler's makes of the file, the queue and the handler. -/
structure Appends (s s' : AsyncLogger) (lines more : List Message) : Prop where
  logFile : s'.logFile = s.logFile ++ lines
  fileLogQueue : s'.fileLogQueue = s.fileLogQueue ++ more
  inHand : s'.handler.inHand = s.handler.inHand
  isRunning : s'.handler.isRunning = s.handler.isRunning
  writing : ∀ line ∈ lines, s.phaseOf line.call = some .writing

theorem appends_nil {s' : AsyncLogger} (hfile : s'.logFile = s.logFile)
    (hqueue : s'.fileLogQueue = s.fileLogQueue)
    (hhandler : s'.handler = s.handler ∨ s'.handler = s.handler.wake) :
    ∃ lines more, Appends s s' lines more := by
  refine ⟨[], [], by simpa using hfile, by simpa using hqueue, ?_, ?_, by simp⟩
  · rcases hhandler with heq | heq <;> rw [heq]
    exact FileHandler.inHand_wake _
  · rcases hhandler with heq | heq <;> rw [heq]
    exact FileHandler.isRunning_wake _

theorem logMsg_appends (config : LoggerConfig) (s : AsyncLogger) (id : ℕ) (opens : Bool) :
    ∃ lines more, Appends s (s.logMsg config id opens) lines more := by
  unfold logMsg
  split
  · exact appends_nil rfl rfl (.inl rfl)
  · rename_i call hcall
    split
    · split
      · split <;> exact appends_nil rfl rfl (.inl rfl)
      · exact appends_nil rfl rfl (.inl rfl)
    · refine ⟨[], [⟨id, call.logStr⟩], by simp [notifyOne, setPhase], rfl, ?_, ?_, by simp⟩
      · exact FileHandler.inHand_wake _
      · exact FileHandler.isRunning_wake _
    · rename_i hwriting
      unfold write
      split
      · refine ⟨[⟨id, call.logStr⟩], [], rfl, by simp [setPhase], rfl, rfl, fun line hline => ?_⟩
        rw [List.mem_singleton.1 hline, phaseOf, hcall, Option.map_some, hwriting]
      · exact appends_nil rfl rfl (.inl rfl)
    · exact appends_nil rfl rfl (.inl rfl)

/-- Only the file handler takes messages out, and only a call that is writing puts a line
into the file beside it. -/
theorem step_appends (config : LoggerConfig) (s : AsyncLogger) {action : LogAction}
    (hother : ∀ opens, action ≠ .handler opens) : ∃ lines more, Appends s (s.step config action) lines more := by
  cases action with
  | begin level logStr => exact appends_nil rfl rfl (.inl rfl)
  | log id opens => exact logMsg_appends config s id opens
  | handler opens => exact absurd rfl (hother opens)
  | stop =>
    simp only [step]
    unfold stopAsyncLog
    split
    · exact appends_nil rfl rfl (.inl rfl)
    · unfold waitUntilEmpty
      split
      · exact appends_nil rfl rfl (.inr (FileHandler.wake_wake s.handler))
      · exact appends_nil rfl rfl (.inr rfl)
    · unfold waitUntilEmpty
      split
      · exact appends_nil rfl rfl (.inr rfl)
      · exact appends_nil rfl rfl (.inl rfl)
    · split <;> exact appends_nil rfl rfl (.inl rfl)
    · exact appends_nil rfl rfl (.inl rfl)
  | wake => exact appends_nil rfl rfl (.inr rfl)

/-- What is appended elsewhere does not put a message back. -/
theorem Appends.behind_le {s' : AsyncLogger} {lines more : List Message} (h : Appends s s' lines more)
    (hm : m ∈ s.held) : s'.behind m ≤ s.behind m := by
  unfold behind
  rw [h.logFile, h.inHand]
  by_cases hold : m ∈ s.logFile
  · rw [if_pos (List.mem_append_left _ hold)]
    exact Nat.zero_le _
  have hpending : m ∈ s.pending := (List.mem_append.1 hm).resolve_left hold
  have hplace : s'.pending.idxOf m = s.pending.idxOf m := by
    rw [pending, h.inHand, h.fileLogQueue, ← List.append_assoc, ← pending, List.idxOf_append_of_mem hpending]
  rw [hplace, if_neg hold]
  split
  · exact Nat.zero_le _
  · exact le_rfl

/-- **The file handler brings every message forward** that is not written. -/
theorem Inv.behind_lt (h : Inv config s) (opens : Bool) (hgood : s.Good (.handler opens)) (hm : m ∈ s.held)
    (hnot : m ∉ s.logFile) : (s.asyncFileLogHandler opens).behind m < s.behind m := by
  have hpending : m ∈ s.pending := (List.mem_append.1 hm).resolve_left hnot
  have hidle : s.handler.inHand = [] → s.fileLogQueue ≠ [] := by
    intro hhand hempty
    rw [pending, hhand, hempty] at hpending
    cases hpending
  cases hhandler : s.handler with
  | absent =>
    have hgone : s.handler.isRunning = false := by rw [hhandler]; rfl
    exact absurd (h.drained hgone) (hidle (by rw [hhandler]; rfl))
  | exited =>
    have hgone : s.handler.isRunning = false := by rw [hhandler]; rfl
    exact absurd (h.drained hgone) (hidle (by rw [hhandler]; rfl))
  | parked => exact absurd (h.attended hhandler).2 (hidle (by rw [hhandler]; rfl))
  | awake =>
    -- it takes the next message out
    obtain ⟨message, rest, hqueue⟩ := List.exists_cons_of_ne_nil (hidle (by rw [hhandler]; rfl))
    have hnext : s.asyncFileLogHandler opens =
        notifyAll { s with fileLogQueue := rest, handler := .writing message } := by
      unfold AsyncLogger.asyncFileLogHandler
      rw [hhandler, hqueue]
    rw [hnext]
    simp [behind, notifyAll, FileHandler.wake, pending, FileHandler.inHand, hnot, hhandler, hqueue]
  | writing message =>
    -- it writes the message it has taken out
    have hopen : (s.logFileIsOpen || opens) = true := hgood.2 (by rw [hhandler]; simp [FileHandler.inHand])
    rw [asyncFileLogHandler_of_writing hhandler hopen]
    by_cases hfirst : m = message
    · have hwritten : m ∈ s.logFile ++ [message] := by simp [hfirst]
      simp [behind, hnot, hwritten, hhandler, FileHandler.inHand]
    · have hback : (message :: s.fileLogQueue).idxOf m = s.fileLogQueue.idxOf m + 1 :=
        List.idxOf_cons_ne _ (Ne.symm hfirst)
      simp only [behind, pending, hhandler, FileHandler.inHand, hnot, hfirst, List.mem_append,
        List.mem_singleton, or_self, if_false, List.nil_append, List.singleton_append, hback]
      simp
      omega

/-- A line stays in the file. -/
theorem mem_logFile_step (hm : m ∈ s.logFile) (action : LogAction) : m ∈ (s.step config action).logFile := by
  by_cases hhandler : ∃ opens, action = .handler opens
  · obtain ⟨opens, rfl⟩ := hhandler
    simp only [step, asyncFileLogHandler]
    split
    · split
      · split <;> exact hm
      · exact hm
    · unfold write
      split
      · exact List.mem_append_left _ hm
      · exact hm
    · exact hm
  · obtain ⟨lines, more, happends⟩ := step_appends config s fun opens heq => hhandler ⟨opens, heq⟩
    rw [happends.logFile]
    exact List.mem_append_left _ hm

/-- **One step** puts no message back. -/
theorem Inv.behind_step_le (h : Inv config s) {action : LogAction} (hgood : s.Good action) (hm : m ∈ s.held) :
    (s.step config action).behind m ≤ s.behind m := by
  by_cases hwritten : m ∈ s.logFile
  · rw [behind_eq_zero.2 (mem_logFile_step hwritten action)]
    exact Nat.zero_le _
  by_cases hhandler : ∃ opens, action = .handler opens
  · obtain ⟨opens, rfl⟩ := hhandler
    exact (h.behind_lt opens hgood hm hwritten).le
  · obtain ⟨lines, more, happends⟩ := step_appends config s fun opens heq => hhandler ⟨opens, heq⟩
    exact happends.behind_le hm

end Messages

/-! ## Runs -/

section Runs

variable {actions : ℕ → LogAction}

theorem Inv.stateAt (h : Inv config s) (hfair : FairRun config s actions) (t : ℕ) :
    Inv config (stateAt config s actions t) :=
  Run.states_invariant_of (Inv config) (fun _ _ h hgood => h.step hgood) h hfair.good t

/-- **Every call returns.** -/
theorem FairRun.returns (hfair : FairRun config s actions) {id : ℕ} {call : LogMsg}
    (hcall : s.calls[id]? = some call) :
    ∃ t, (AsyncLogger.stateAt config s actions t).calls[id]? = some { call with phase := .returned } := by
  have hkept : ∀ t, ∃ phase, (AsyncLogger.stateAt config s actions t).calls[id]? =
      some { call with phase := phase } := by
    intro t
    refine Run.states_invariant (fun s : AsyncLogger => ∃ phase, s.calls[id]? = some { call with phase := phase })
      (fun s action hinv => ?_) ⟨call.phase, hcall⟩ actions t
    obtain ⟨phase, hphase⟩ := hinv
    obtain ⟨next, hnext, -⟩ := step_calls config hphase action
    exact ⟨next, hnext⟩
  -- the rank is the steps the call has left; only its own thread takes them
  let rank (s : AsyncLogger) : ℕ := ((s.calls[id]?).map fun call => call.phase.left).getD 0
  obtain ⟨t, -, hzero⟩ := Run.exists_rank_eq_zero (step config) rank
    (fun action => ∃ opens, action = .log id opens)
    s actions 0
    (fun t _ => by
      obtain ⟨phase, hphase⟩ := hkept t
      obtain ⟨next, hnext, hleft⟩ := step_calls config hphase (actions t)
      simp only [rank, Run.states] at hphase hnext ⊢
      rw [hphase, hnext]
      exact hleft)
    (fun t _ hlog hpos => by
      obtain ⟨opens, hopens⟩ := hlog
      obtain ⟨phase, hphase⟩ := hkept t
      obtain ⟨next, hnext, hleft⟩ := logMsg_calls_self config hphase opens
      simp only [rank, Run.states, hopens, step] at hphase hnext hpos ⊢
      rw [hphase] at hpos
      rw [hphase, hnext]
      have hpos : 0 < phase.left := hpos
      show next.left < phase.left
      have hleft : next.left ≤ phase.left - 1 := hleft
      omega)
    (fun t => hfair.calls id t)
  obtain ⟨phase, hphase⟩ := hkept t
  refine ⟨t, ?_⟩
  simp only [rank] at hzero
  rw [hphase] at hzero ⊢
  have hzero : phase.left = 0 := hzero
  -- no step left means that it has returned
  cases phase <;> simp [LogPhase.left] at hzero ⊢

/-- **Every message for the file is written.** -/
theorem Inv.written (h : Inv config s) (hfair : FairRun config s actions) {id : ℕ} {call : LogMsg}
    (hcall : s.calls[id]? = some call) (hwrites : config.writesFile call.level = true) :
    ∃ t, ⟨id, call.logStr⟩ ∈ (AsyncLogger.stateAt config s actions t).logFile := by
  obtain ⟨t₀, hreturned⟩ := hfair.returns hcall
  -- from its return on the message is in the queue, in hand or written
  have hheld : ∀ t, t₀ ≤ t → (⟨id, call.logStr⟩ : Message) ∈ (AsyncLogger.stateAt config s actions t).held := by
    intro t ht
    refine ((h.stateAt hfair t).held_iff _).2 ?_
    induction t, ht using Nat.le_induction with
    | base => exact ⟨_, hreturned, rfl, rfl, hwrites⟩
    | succ t _ ih => exact ih.step (actions t)
  obtain ⟨t, -, hzero⟩ := Run.exists_rank_eq_zero (AsyncLogger.step config) (fun s => s.behind ⟨id, call.logStr⟩)
    (fun action => ∃ opens, action = .handler opens) s actions t₀
    (fun t ht => (h.stateAt hfair t).behind_step_le (hfair.good t) (hheld t ht))
    (fun t ht hhandler hpos => by
      obtain ⟨opens, hopens⟩ := hhandler
      have hgood := hfair.good t
      rw [hopens] at hgood
      have hnot : (⟨id, call.logStr⟩ : Message) ∉ (AsyncLogger.stateAt config s actions t).logFile := by
        intro hm
        rw [behind_eq_zero.2 hm] at hpos
        exact absurd hpos (Nat.lt_irrefl 0)
      have hlt := (h.stateAt hfair t).behind_lt opens hgood (hheld t ht) hnot
      rw [Run.states, hopens]
      exact hlt)
    (fun t => hfair.handler t)
  exact ⟨t, behind_eq_zero.1 hzero⟩

/-- Every thread goes on again and again, and the log file opens. -/
def roundRobin (t : ℕ) : LogAction :=
  match t.unpair.1 with
  | 0 => .handler true
  | id + 1 => .log id true

theorem logMsg_asyncFileLogFlag (s : AsyncLogger) (id : ℕ) (opens : Bool) :
    (s.logMsg config id opens).asyncFileLogFlag = s.asyncFileLogFlag := by
  unfold logMsg
  split
  · rfl
  · split
    · split
      · split <;> rfl
      · rfl
    · rfl
    · unfold write
      split <;> rfl
    · rfl

/-- While the flag is set the file handler does not exit. -/
theorem asyncFileLogHandler_running (opens : Bool) (hflag : s.asyncFileLogFlag = true)
    (hrunning : s.handler.isRunning = true) :
    (s.asyncFileLogHandler opens).asyncFileLogFlag = true ∧
      (s.asyncFileLogHandler opens).handler.isRunning = true := by
  unfold asyncFileLogHandler
  split
  · split
    · rw [if_pos hflag]
      exact ⟨hflag, rfl⟩
    · exact ⟨hflag, rfl⟩
  · unfold write
    split
    · exact ⟨hflag, rfl⟩
    · exact ⟨hflag, rfl⟩
  · exact ⟨hflag, hrunning⟩

/-- **While nobody stops the logger** there is a fair run. -/
theorem fairRun_roundRobin (hflag : s.asyncFileLogFlag = true) (hrunning : s.handler.isRunning = true) :
    FairRun config s roundRobin := by
  -- everybody's turn comes again
  have hturn : ∀ k t : ℕ, ∃ t' : ℕ, t ≤ t' ∧ t'.unpair.1 = k := fun k t =>
    ⟨Nat.pair k t, Nat.right_le_pair k t, by rw [Nat.unpair_pair]⟩
  have hkept : ∀ t, (AsyncLogger.stateAt config s roundRobin t).asyncFileLogFlag = true ∧
      (AsyncLogger.stateAt config s roundRobin t).handler.isRunning = true := by
    intro t
    induction t with
    | zero => exact ⟨hflag, hrunning⟩
    | succ t ih =>
      simp only [AsyncLogger.stateAt, Run.states, roundRobin] at ih ⊢
      split
      · exact asyncFileLogHandler_running true ih.1 ih.2
      · obtain ⟨lines, more, happends⟩ := logMsg_appends config (Run.states (step config) s roundRobin t) _ true
        exact ⟨(logMsg_asyncFileLogFlag _ _ _).trans ih.1, happends.isRunning.trans ih.2⟩
  refine ⟨fun t => ?_, fun t => ?_, fun id t => ?_⟩
  · unfold roundRobin
    split
    · exact ⟨trivial, fun _ => Bool.or_true _⟩
    · exact ⟨fun _ => (hkept t).2, fun _ => Bool.or_true _⟩
  · obtain ⟨t', hle, hzero⟩ := hturn 0 t
    exact ⟨t', hle, true, by simp [roundRobin, hzero]⟩
  · obtain ⟨t', hle, hid⟩ := hturn (id + 1) t
    exact ⟨t', hle, true, by simp [roundRobin, hid]⟩

theorem Inv.toDrained (h : Inv config s) : Drained config s where
  lines := fun m hm => (h.held_iff m).1 (List.mem_append_left _ hm)
  once := by
    have honce := h.once
    rw [held, List.map_append] at honce
    exact (List.nodup_append.1 honce).1
  inOrder := ⟨s.pending, h.queued⟩
  afterStop := by
    intro hstop m howed
    have hgone := h.stopped hstop
    have hempty := h.drained hgone
    have hhand : s.handler.inHand = [] := by
      cases hhandler : s.handler <;> simp [hhandler, FileHandler.isRunning, FileHandler.inHand] at hgone ⊢
    have hm := (h.held_iff m).2 howed
    rw [held, pending, hhand, hempty, List.append_nil, List.append_nil] at hm
    exact hm
  written := fun _ hfair _ _ hcall hwrites => h.written hfair hcall hwrites

/-- **The file gets every message once, in the order of the queue**, in every run in which
no message is pushed once the file handler is gone and the log file opens when it is
needed. -/
theorem drained (config : LoggerConfig) {actions : List LogAction}
    (hm : Run.Meets Good (step config) (init config) actions) :
    Drained config (actions.foldl (step config) (init config)) :=
  (hm.invariant (Inv config) (fun _ _ h hgood => h.step hgood) (Inv.init config)).toDrained

/-- A call that pushes while the logger is being stopped, and one that finds the flag not
set; and a call whose message will be written when all threads go on. -/
theorem drained_two :
    let config : LoggerConfig := ⟨.info, true, true⟩
    let last := [LogAction.begin .info ['a'], .log 0 true, .begin .warn ['b'], .stop, .log 0 true, .stop,
      .log 1 true, .handler true, .log 1 true, .handler true, .stop, .handler true, .stop].foldl
      (step config) (init config)
    let called := [LogAction.begin .info ['a']].foldl (step config) (init config)
    last.stop = .returned ∧ last.logFile = [⟨1, ['b']⟩, ⟨0, ['a']⟩] ∧ Drained config last ∧
      ∃ t, ⟨0, ['a']⟩ ∈ (stateAt config called roundRobin t).logFile := by
  intro config last called
  refine ⟨by decide, by decide, drained config (by decide), ?_⟩
  have hcalled : Drained config called := drained config (by decide)
  exact hcalled.written roundRobin (fairRun_roundRobin rfl rfl) 0 ⟨.info, ['a'], .called⟩ rfl rfl

/-- **A message that is pushed too late is never written**: nobody takes it out. -/
theorem late_push_lost {m : Message} (hgone : s.handler.isRunning = false)
    (hreturned : s.phaseOf m.call = some .returned)
    (hnot : m ∉ s.logFile) (actions : List LogAction) : m ∉ (actions.foldl (step config) s).logFile := by
  induction actions generalizing s with
  | nil => exact hnot
  | cons action actions ih =>
    obtain ⟨call, hcall, hphase⟩ := Option.map_eq_some_iff.1 hreturned
    -- the call stays where it is
    have hnext : (s.step config action).phaseOf m.call = some .returned := by
      obtain ⟨phase, hkept, hleft⟩ := step_calls config hcall action
      rw [phaseOf, hkept, Option.map_some]
      rw [hphase] at hleft
      cases phase <;> simp [LogPhase.left] at hleft ⊢
    by_cases hhandler : ∃ opens, action = .handler opens
    · have hsame : s.step config action = s := by
        obtain ⟨opens, rfl⟩ := hhandler
        simp only [step, asyncFileLogHandler]
        cases hat : s.handler <;> simp [hat, FileHandler.isRunning] at hgone ⊢
      rw [List.foldl_cons, hsame]
      exact ih hgone hreturned hnot
    · obtain ⟨lines, more, happends⟩ := step_appends config s fun opens heq => hhandler ⟨opens, heq⟩
      refine ih (happends.isRunning.trans hgone) hnext ?_
      rw [happends.logFile]
      intro hm
      have hline := (List.mem_append.1 hm).resolve_left hnot
      have hwriting := happends.writing m hline
      rw [hreturned] at hwriting
      cases hwriting

/-- A call finds the flag set; `stop_async_log` is called and returns; the call pushes its
message. -/
theorem message_lost :
    let config : LoggerConfig := ⟨.info, true, true⟩
    let m : Message := ⟨0, ['a']⟩
    let last := [LogAction.begin .info ['a'], .log 0 true, .stop, .stop, .handler true, .stop, .log 0 true].foldl
      (step config) (init config)
    last.stop = .returned ∧ last.Owed config m ∧
      (∀ actions : List LogAction, m ∉ (actions.foldl (step config) last).logFile) ∧
      ¬Drained config last := by
  intro config m last
  have howed : last.Owed config m := ⟨⟨.info, ['a'], .returned⟩, rfl, rfl, rfl, rfl⟩
  have hstop : last.stop = .returned := by decide
  have hnot : m ∉ last.logFile := by decide
  have hlost : ∀ actions : List LogAction, m ∉ (actions.foldl (step config) last).logFile :=
    late_push_lost (by decide) (by decide) hnot
  refine ⟨hstop, howed, hlost, fun h => ?_⟩
  exact hnot (h.afterStop hstop m howed)

end Runs

end AsyncLogger

end ProjectTrans
