import ProjectTrans.Lib.Run
import ProjectTrans.Model.Logger.AsyncLogger

/-!
# What the asynchronous logger holds

A message is held from where its call returns: in the queue, in the hand of the file
handler, or in the file. `Inv` says so, as long as no call pushes its message once the
file handler is gone and the log file opens when it is needed (`Good`); `Inv.step` is one
step.
-/

namespace ProjectTrans

/-- The message it has taken out and not written yet. -/
def FileHandler.inHand : FileHandler → List Message
  | .writing message => [message]
  | _ => []

/-- It has been started and has not exited. -/
def FileHandler.isRunning : FileHandler → Bool
  | .absent => false
  | .exited => false
  | _ => true

@[simp] theorem FileHandler.inHand_wake (handler : FileHandler) : handler.wake.inHand = handler.inHand := by
  cases handler <;> rfl

@[simp] theorem FileHandler.isRunning_wake (handler : FileHandler) :
    handler.wake.isRunning = handler.isRunning := by
  cases handler <;> rfl

theorem FileHandler.wake_wake (handler : FileHandler) : handler.wake.wake = handler.wake := by
  cases handler <;> rfl

theorem FileHandler.wake_ne_parked (handler : FileHandler) : handler.wake ≠ .parked := by
  cases handler <;> simp [wake]

namespace AsyncLogger

variable {config : LoggerConfig} {s : AsyncLogger}

/-- The messages that are yet to be written, the next one first. -/
def pending (s : AsyncLogger) : List Message := s.handler.inHand ++ s.fileLogQueue

/-- The messages that are written or yet to be. -/
def held (s : AsyncLogger) : List Message := s.logFile ++ s.pending

/-- Where a call is. -/
def phaseOf (s : AsyncLogger) (id : ℕ) : Option LogPhase := (s.calls[id]?).map LogMsg.phase

/-- The message of a call that has returned, and was for the file. -/
def Owed (config : LoggerConfig) (s : AsyncLogger) (m : Message) : Prop :=
  ∃ call, s.calls[m.call]? = some call ∧ call.logStr = m.logStr ∧ call.phase = .returned ∧
    config.writesFile call.level = true

/-! ## The condition on the steps -/

/-- No call pushes its message while no file handler is there to take it out. -/
def InTime (s : AsyncLogger) : LogAction → Prop
  | .log id _ => s.phaseOf id = some .pushing → s.handler.isRunning = true
  | _ => True

/-- The log file is open when a message is written, or can be opened. -/
def Opens (s : AsyncLogger) : LogAction → Prop
  | .log id opens => s.phaseOf id = some .writing → (s.logFileIsOpen || opens) = true
  | .handler opens => s.handler.inHand ≠ [] → (s.logFileIsOpen || opens) = true
  | _ => True

/-- Both. -/
def Good (s : AsyncLogger) (action : LogAction) : Prop := s.InTime action ∧ s.Opens action

instance : ∀ action, Decidable (s.InTime action)
  | .log id _ => inferInstanceAs (Decidable (s.phaseOf id = some .pushing → _))
  | .begin _ _ => isTrue trivial
  | .handler _ => isTrue trivial
  | .stop => isTrue trivial
  | .wake => isTrue trivial

instance : ∀ action, Decidable (s.Opens action)
  | .log id _ => inferInstanceAs (Decidable (s.phaseOf id = some .writing → _))
  | .handler _ => inferInstanceAs (Decidable (s.handler.inHand ≠ [] → _))
  | .begin _ _ => isTrue trivial
  | .stop => isTrue trivial
  | .wake => isTrue trivial

instance (action : LogAction) : Decidable (s.Good action) := inferInstanceAs (Decidable (_ ∧ _))

/-! ## The invariant -/

/-- What holds while a notification may be due: the messages held are those of the calls
that have returned, none twice, and what was pushed is written in order. -/
structure Core (config : LoggerConfig) (s : AsyncLogger) : Prop where
  once : (s.held.map Message.call).Nodup
  held_iff : ∀ m, m ∈ s.held ↔ s.Owed config m
  queued : s.logFile.filter (· ∈ s.pushed) ++ s.pending = s.pushed
  enabled : ∀ (id : ℕ) (call : LogMsg), s.calls[id]? = some call → call.phase = .pushing ∨ call.phase = .writing →
    config.writesFile call.level = true
  drained : s.handler.isRunning = false → s.fileLogQueue = []
  stopped : s.stop = .returned → s.handler.isRunning = false
  unstopped : s.asyncFileLogFlag = true → s.stop = .idle ∨ s.stop = .called

/-- The handler sleeps only while there is nothing for it to do. -/
structure Inv (config : LoggerConfig) (s : AsyncLogger) : Prop extends Core config s where
  attended : s.handler = .parked → s.asyncFileLogFlag = true ∧ s.fileLogQueue = []

/-- **At most one thread waits**: while the handler does, the flag is set. -/
theorem Inv.alone (h : Inv config s) (hparked : s.handler = .parked) : s.stop ≠ .parked := by
  intro hstop
  rcases h.unstopped (h.attended hparked).1 with hidle | hcalled
  · rw [hstop] at hidle
    cases hidle
  · rw [hstop] at hcalled
    cases hcalled

theorem init_pending (config : LoggerConfig) : (init config).pending = [] := by
  cases hasync : config.enableAsync <;> simp [init, pending, FileHandler.inHand, hasync]

theorem Inv.init (config : LoggerConfig) : Inv config (init config) where
  once := by
    rw [held, init_pending]
    exact List.nodup_nil
  held_iff := by
    intro m
    rw [held, init_pending]
    simp [AsyncLogger.init, Owed]
  queued := by
    rw [init_pending]
    rfl
  enabled := by
    intro id call hcall
    simp [AsyncLogger.init] at hcall
  drained := fun _ => rfl
  stopped := by simp [AsyncLogger.init]
  unstopped := fun _ => .inl rfl
  attended := by
    intro hparked
    cases hasync : config.enableAsync <;> simp [AsyncLogger.init, hasync] at hparked

/-- **Notifications**: whoever is woken, nothing else changes. -/
theorem Core.wakes (h : Core config s) {stop : StopPhase}
    (hstop : stop = s.stop ∨ s.stop = .parked ∧ stop = .waiting) :
    Inv config { s with handler := s.handler.wake, stop := stop } where
  once := by simpa [held, pending] using h.once
  held_iff := by simpa [held, pending, Owed] using h.held_iff
  queued := by simpa [pending] using h.queued
  enabled := h.enabled
  drained := by simpa using h.drained
  stopped := by
    rcases hstop with rfl | ⟨-, rfl⟩
    · simpa using h.stopped
    · simp
  unstopped := by
    rcases hstop with rfl | ⟨hparked, rfl⟩
    · exact h.unstopped
    · intro hflag
      have := h.unstopped hflag
      simp [hparked] at this
  attended := fun hparked => absurd hparked (FileHandler.wake_ne_parked _)

theorem StopPhase.wake_cases (stop : StopPhase) : stop.wake = stop ∨ stop = .parked ∧ stop.wake = .waiting := by
  cases stop <;> simp [StopPhase.wake]

theorem Core.notifyAll (h : Core config s) : Inv config s.notifyAll := h.wakes (StopPhase.wake_cases s.stop)

theorem Core.notifyOne (h : Core config s) : Inv config s.notifyOne := by
  apply h.wakes
  split
  · exact .inl rfl
  · exact StopPhase.wake_cases s.stop

/-! ## Calls -/

/-- A call begins. -/
theorem Inv.begin (h : Inv config s) (level : LogLevel) (logStr : Text) :
    Inv config { s with calls := s.calls ++ [⟨level, logStr, .called⟩] } := by
  -- a call that is further than called was there before
  have hnew : ∀ (id : ℕ) (call : LogMsg), (s.calls ++ [⟨level, logStr, .called⟩])[id]? = some call →
    call.phase ≠ .called →
      s.calls[id]? = some call := by
    intro id call hcall hphase
    rcases Nat.lt_or_ge id s.calls.length with hlt | hge
    · rwa [List.getElem?_append_left hlt] at hcall
    · rw [List.getElem?_append_right hge] at hcall
      have hlast := List.mem_of_getElem? hcall
      rw [List.mem_singleton.1 hlast] at hphase
      exact absurd rfl hphase
  have hold : ∀ (id : ℕ) (call : LogMsg), s.calls[id]? = some call →
      (s.calls ++ [⟨level, logStr, .called⟩])[id]? = some call := by
    intro id call hcall
    rw [List.getElem?_append_left (List.getElem?_eq_some_iff.1 hcall).1, hcall]
  refine { h with held_iff := fun m => ?_, enabled := fun id call hcall hphase => ?_ }
  · rw [show m ∈ held { s with calls := s.calls ++ [⟨level, logStr, .called⟩] } ↔ m ∈ s.held from Iff.rfl,
      h.held_iff m]
    constructor
    · rintro ⟨call, hcall, hrest⟩
      exact ⟨call, hold _ _ hcall, hrest⟩
    · rintro ⟨call, hcall, hlogStr, hreturned, hwrites⟩
      exact ⟨call, hnew _ _ hcall (by rw [hreturned]; simp), hlogStr, hreturned, hwrites⟩
  · refine h.enabled id call (hnew id call hcall ?_) hphase
    rcases hphase with hphase | hphase <;> rw [hphase] <;> simp

variable {id : ℕ} {call : LogMsg} {phase : LogPhase}

@[simp] theorem getElem?_setPhase_self (hcall : s.calls[id]? = some call) :
    (s.setPhase id call phase).calls[id]? = some { call with phase := phase } :=
  List.getElem?_set_self (List.getElem?_eq_some_iff.1 hcall).1

theorem getElem?_setPhase_ne {id' : ℕ} (h : id ≠ id') : (s.setPhase id call phase).calls[id']? = s.calls[id']? :=
  List.getElem?_set_ne h

/-- **Who is owed** after a call has gone on: the others as before, and its own message once
it has returned. -/
theorem owed_setPhase (hcall : s.calls[id]? = some call) {m : Message} :
    (s.setPhase id call phase).Owed config m ↔
      (m = ⟨id, call.logStr⟩ ∧ phase = .returned ∧ config.writesFile call.level = true) ∨ m.call ≠ id ∧
        s.Owed config m := by
  by_cases hid : m.call = id
  · constructor
    · rintro ⟨call', hcall', hlogStr, hreturned, hwrites⟩
      rw [hid, getElem?_setPhase_self hcall] at hcall'
      cases hcall'
      refine .inl ⟨?_, hreturned, hwrites⟩
      rw [← hid, hlogStr]
    · rintro (⟨rfl, hreturned, hwrites⟩ | ⟨hne, -⟩)
      · exact ⟨_, getElem?_setPhase_self hcall, rfl, hreturned, hwrites⟩
      · exact absurd hid hne
  · have hsame : (s.setPhase id call phase).Owed config m ↔ s.Owed config m := by
      unfold Owed
      rw [getElem?_setPhase_ne (Ne.symm hid)]
    rw [hsame]
    constructor
    · exact fun h => .inr ⟨hid, h⟩
    · rintro (⟨rfl, -⟩ | ⟨-, h⟩)
      · exact absurd rfl hid
      · exact h

/-- Nobody holds a message of a call that has not returned. -/
theorem Core.fresh (h : Core config s) (hcall : s.calls[id]? = some call) (hphase : call.phase ≠ .returned) :
    ∀ m ∈ s.held, m.call ≠ id := by
  intro m hm hid
  obtain ⟨call', hcall', -, hreturned, -⟩ := (h.held_iff m).1 hm
  rw [hid, hcall] at hcall'
  cases hcall'
  exact hphase hreturned

/-- The calls about to push or write, after one has gone on. -/
theorem Core.enabled_setPhase (h : Core config s) (hcall : s.calls[id]? = some call)
    (hwrites : phase = .pushing ∨ phase = .writing → config.writesFile call.level = true) :
    ∀ (id' : ℕ) (call' : LogMsg), (s.setPhase id call phase).calls[id']? = some call' →
      call'.phase = .pushing ∨ call'.phase = .writing → config.writesFile call'.level = true := by
  intro id' call' hcall' hphase
  by_cases hid : id = id'
  · subst hid
    rw [getElem?_setPhase_self hcall] at hcall'
    cases hcall'
    exact hwrites hphase
  · rw [getElem?_setPhase_ne hid] at hcall'
    exact h.enabled id' call' hcall' hphase

/-- **The flag is tested**, or the level is found too low. -/
theorem Inv.tested (h : Inv config s) (hcall : s.calls[id]? = some call) (hcalled : call.phase = .called)
    (hwrites : phase ≠ .returned ↔ config.writesFile call.level = true) :
    Inv config (s.setPhase id call phase) := by
  have hnot : call.phase ≠ .returned := by
    rw [hcalled]
    simp
  refine { h with held_iff := fun m => ?_, enabled := h.enabled_setPhase hcall fun hphase => ?_ }
  · rw [owed_setPhase hcall, show m ∈ (s.setPhase id call phase).held ↔ m ∈ s.held from Iff.rfl]
    constructor
    · exact fun hm => .inr ⟨h.fresh hcall hnot m hm, (h.held_iff m).1 hm⟩
    · rintro (⟨-, hreturned, hfile⟩ | ⟨-, howed⟩)
      · exact absurd hreturned (hwrites.2 hfile)
      · exact (h.held_iff m).2 howed
  · apply hwrites.1
    rcases hphase with rfl | rfl <;> simp

/-- What is held when a call delivers its message. -/
theorem Core.deliver (h : Core config s) (hcall : s.calls[id]? = some call) (hphase : call.phase ≠ .returned)
    (hwrites : config.writesFile call.level = true) {l : List Message}
    (hl : l.Perm (⟨id, call.logStr⟩ :: s.held)) :
    (l.map Message.call).Nodup ∧ ∀ m, m ∈ l ↔ (s.setPhase id call .returned).Owed config m := by
  have hfresh := h.fresh hcall hphase
  constructor
  · rw [(hl.map Message.call).nodup_iff, List.map_cons, List.nodup_cons]
    refine ⟨fun hmem => ?_, h.once⟩
    obtain ⟨m, hm, hid⟩ := List.mem_map.1 hmem
    exact hfresh m hm hid
  · intro m
    rw [hl.mem_iff, List.mem_cons, owed_setPhase hcall]
    constructor
    · rintro (rfl | hm)
      · exact .inl ⟨rfl, rfl, hwrites⟩
      · exact .inr ⟨hfresh m hm, (h.held_iff m).1 hm⟩
    · rintro (⟨rfl, -, -⟩ | ⟨-, howed⟩)
      · exact .inl rfl
      · exact .inr ((h.held_iff m).2 howed)

/-- **A message is pushed**, behind the others. -/
theorem Core.push (h : Core config s) (hcall : s.calls[id]? = some call) (hpushing : call.phase = .pushing)
    (hrunning : s.handler.isRunning = true) : Core config
      { s.setPhase id call .returned with
        fileLogQueue := s.fileLogQueue ++ [⟨id, call.logStr⟩]
        pushed := s.pushed ++ [⟨id, call.logStr⟩] } := by
  have hnot : call.phase ≠ .returned := by
    rw [hpushing]
    simp
  have hwrites := h.enabled id call hcall (.inl hpushing)
  have hheld : (s.held ++ [(⟨id, call.logStr⟩ : Message)]).Perm (⟨id, call.logStr⟩ :: s.held) :=
    List.perm_append_singleton _ _
  have hassoc : s.logFile ++ (s.handler.inHand ++ (s.fileLogQueue ++ [⟨id, call.logStr⟩])) =
      s.held ++ [⟨id, call.logStr⟩] := by
    rw [held, pending, List.append_assoc, List.append_assoc]
  obtain ⟨honce, hmem⟩ := h.deliver hcall hnot hwrites hheld
  rw [← hassoc] at honce hmem
  -- none of the lines in the file is the message
  have hlines : s.logFile.filter (· ∈ s.pushed ++ [(⟨id, call.logStr⟩ : Message)]) =
      s.logFile.filter (· ∈ s.pushed) := by
    apply List.filter_congr
    intro m hm
    have hne : m ≠ ⟨id, call.logStr⟩ := by
      rintro rfl
      exact h.fresh hcall hnot _ (List.mem_append_left _ hm) rfl
    simp [hne]
  refine { once := honce, held_iff := hmem, queued := ?_, enabled := h.enabled_setPhase hcall (by simp),
           drained := fun hgone => ?_, stopped := h.stopped, unstopped := h.unstopped }
  · show s.logFile.filter (· ∈ s.pushed ++ [(⟨id, call.logStr⟩ : Message)]) ++
        (s.handler.inHand ++ (s.fileLogQueue ++ [⟨id, call.logStr⟩])) = s.pushed ++ [⟨id, call.logStr⟩]
    rw [hlines, ← List.append_assoc s.handler.inHand, ← List.append_assoc, ← pending, h.queued]
  · rw [show (s.setPhase id call .returned).handler = s.handler from rfl, hrunning] at hgone
    cases hgone

theorem write_of_opens {opens : Bool} (hopens : (s.logFileIsOpen || opens) = true) (m : Message) :
    s.write m opens = { s with logFileIsOpen := true, logFile := s.logFile ++ [m] } := if_pos hopens

/-- **A message is written** by the call itself. -/
theorem Inv.write (h : Inv config s) (hcall : s.calls[id]? = some call) (hwriting : call.phase = .writing) :
    Inv config
      { s.setPhase id call .returned with
        logFileIsOpen := true
        logFile := s.logFile ++ [⟨id, call.logStr⟩] } := by
  have hnot : call.phase ≠ .returned := by
    rw [hwriting]
    simp
  have hwrites := h.enabled id call hcall (.inr hwriting)
  have hheld : (s.logFile ++ [(⟨id, call.logStr⟩ : Message)] ++ s.pending).Perm
      (⟨id, call.logStr⟩ :: s.held) := by
    rw [List.append_assoc]
    exact List.perm_middle
  obtain ⟨honce, hmem⟩ := h.deliver hcall hnot hwrites hheld
  -- what was pushed is held, and the message is not
  have hdirect : (⟨id, call.logStr⟩ : Message) ∉ s.pushed := by
    intro hm
    rw [← h.queued] at hm
    apply h.fresh hcall hnot ⟨id, call.logStr⟩ _ rfl
    rcases List.mem_append.1 hm with hm | hm
    · exact List.mem_append_left _ (List.mem_of_mem_filter hm)
    · exact List.mem_append_right _ hm
  refine { once := honce, held_iff := hmem, queued := ?_, enabled := h.enabled_setPhase hcall (by simp),
           drained := h.drained, stopped := h.stopped, unstopped := h.unstopped, attended := h.attended }
  show (s.logFile ++ [(⟨id, call.logStr⟩ : Message)]).filter (· ∈ s.pushed) ++ s.pending = s.pushed
  rw [List.filter_append, List.filter_singleton, decide_eq_false hdirect]
  simpa using h.queued

/-- One step of a call. -/
theorem Inv.logMsg (h : Inv config s) {opens : Bool} (hgood : s.Good (.log id opens)) :
    Inv config (s.logMsg config id opens) := by
  obtain ⟨hintime, hopens⟩ := hgood
  unfold AsyncLogger.logMsg
  cases hcall : s.calls[id]? with
  | none => exact h
  | some call =>
    have hphase : s.phaseOf id = some call.phase := by rw [phaseOf, hcall, Option.map_some]
    simp only
    cases hat : call.phase with
    | called =>
      simp only
      split
      · rename_i hwrites
        split
        · exact h.tested hcall hat (by simp [hwrites])
        · exact h.tested hcall hat (by simp [hwrites])
      · rename_i hwrites
        exact h.tested hcall hat (by simpa using hwrites)
    | pushing => exact (h.push hcall hat (hintime (by rw [hphase, hat]))).notifyOne
    | writing =>
      have hopen : (s.logFileIsOpen || opens) = true := hopens (by rw [hphase, hat])
      simp only
      rw [write_of_opens (s := s.setPhase id call .returned) hopen]
      exact h.write hcall hat
    | returned => exact h

/-! ## The file handler and the thread that stops -/

/-- **What the file handler does to what is held**: nothing. It passes messages on, and is
there until it exits. -/
theorem Core.handle (h : Core config s) {s' : AsyncLogger} (hrunning : s.handler.isRunning = true)
    (hcalls : s'.calls = s.calls) (hstop : s'.stop = s.stop) (hflag : s'.asyncFileLogFlag = s.asyncFileLogFlag)
    (hpushed : s'.pushed = s.pushed) (hheld : s'.held = s.held)
    (hqueued : s'.logFile.filter (· ∈ s.pushed) ++ s'.pending = s.pushed)
    (hdrained : s'.handler.isRunning = false → s'.fileLogQueue = []) : Core config s' where
  once := by
    rw [hheld]
    exact h.once
  held_iff := by
    intro m
    rw [hheld, h.held_iff, Owed, Owed, hcalls]
  queued := by
    rw [hpushed]
    exact hqueued
  enabled := by
    rw [hcalls]
    exact h.enabled
  drained := hdrained
  stopped := by
    intro hreturned
    rw [hstop] at hreturned
    -- with `stop` returned the handler would not be running
    have hgone := h.stopped hreturned
    rw [hrunning] at hgone
    cases hgone
  unstopped := by
    rw [hflag, hstop]
    exact h.unstopped

/-- **The next step of an awake file handler**: it takes a message out, or waits for one, or
ends when there is none and the flag is not set. -/
theorem Inv.awake (h : Inv config s) (opens : Bool) (hawake : s.handler = .awake) :
    Inv config (s.asyncFileLogHandler opens) := by
  have hrunning : s.handler.isRunning = true := by rw [hawake]; rfl
  have hpending : s.pending = s.fileLogQueue := by simp [pending, hawake, FileHandler.inHand]
  have hheld : s.held = s.logFile ++ s.fileLogQueue := by rw [held, hpending]
  have hqueued := h.queued
  rw [hpending] at hqueued
  unfold AsyncLogger.asyncFileLogHandler
  rw [hawake]
  simp only
  split
  · -- nothing is queued: the handler waits again, or ends when it is told to
    rename_i hempty
    split
    · rename_i hflag
      have hcore : Core config { s with handler := .parked } :=
        h.handle hrunning rfl rfl rfl rfl hheld.symm hqueued fun _ => hempty
      exact { hcore with attended := fun _ => ⟨hflag, hempty⟩ }
    · have hcore : Core config { s with handler := .exited } :=
        h.handle hrunning rfl rfl rfl rfl hheld.symm hqueued fun _ => hempty
      exact hcore.notifyAll
  · rename_i message rest hqueue
    rw [hqueue] at hheld hqueued
    have hcore : Core config { s with fileLogQueue := rest, handler := .writing message } :=
      h.handle hrunning rfl rfl rfl rfl hheld.symm hqueued fun hgone => by cases hgone
    exact hcore.notifyAll

/-- **The message the file handler has taken out is written.** -/
theorem Inv.handWritten (h : Inv config s) {message : Message} (hwriting : s.handler = .writing message) :
    Inv config { s with handler := .awake, logFileIsOpen := true, logFile := s.logFile ++ [message] } := by
  have hrunning : s.handler.isRunning = true := by rw [hwriting]; rfl
  have hpending : s.pending = message :: s.fileLogQueue := by rw [pending, hwriting]; rfl
  have hheld : s.logFile ++ [message] ++ s.fileLogQueue = s.held := by
    rw [held, hpending, List.append_assoc, List.singleton_append]
  have hqueued := h.queued
  rw [hpending] at hqueued
  -- what it has in hand was pushed, so the line is one of the queued ones
  have hpushed : message ∈ s.pushed := by
    rw [← hqueued]
    exact List.mem_append_right _ List.mem_cons_self
  have hlines : (s.logFile ++ [message]).filter (· ∈ s.pushed) ++ s.fileLogQueue = s.pushed := by
    rw [List.filter_append, List.filter_singleton, decide_eq_true hpushed, cond_true, List.append_assoc,
      List.singleton_append]
    exact hqueued
  have hcore :
      Core config { s with handler := .awake, logFileIsOpen := true, logFile := s.logFile ++ [message] } :=
    h.handle hrunning rfl rfl rfl rfl hheld hlines fun hgone => by cases hgone
  exact { hcore with attended := fun hparked => by cases hparked }

theorem asyncFileLogHandler_of_writing {opens : Bool} {message : Message}
    (hwriting : s.handler = .writing message)
    (hopen : (s.logFileIsOpen || opens) = true) : s.asyncFileLogHandler opens =
      { s with handler := .awake, logFileIsOpen := true, logFile := s.logFile ++ [message] } := by
  unfold asyncFileLogHandler
  rw [hwriting]
  exact write_of_opens (s := { s with handler := .awake }) hopen message

/-- One step of the file handler. -/
theorem Inv.asyncFileLogHandler (h : Inv config s) {opens : Bool} (hgood : s.Good (.handler opens)) :
    Inv config (s.asyncFileLogHandler opens) := by
  cases hhandler : s.handler with
  | awake => exact h.awake opens hhandler
  | writing message =>
    have hopen : (s.logFileIsOpen || opens) = true := hgood.2 (by rw [hhandler]; simp [FileHandler.inHand])
    rw [asyncFileLogHandler_of_writing hhandler hopen]
    exact h.handWritten hhandler
  | _ =>
    have hsame : s.asyncFileLogHandler opens = s := by
      unfold AsyncLogger.asyncFileLogHandler
      rw [hhandler]
    rw [hsame]
    exact h

/-- The wait for an empty queue, once the flag is not set. -/
theorem Inv.waitUntilEmpty (h : Inv config s) (hflag : s.asyncFileLogFlag = false) :
    Inv config s.waitUntilEmpty := by
  have hcore : ∀ stop, stop ≠ .returned → Core config { s with stop := stop } := fun stop hne =>
    { h.toCore with
      stopped := fun hstop => absurd hstop hne
      unstopped := fun hset => by
        rw [show ({ s with stop := stop } : AsyncLogger).asyncFileLogFlag = s.asyncFileLogFlag from rfl,
          hflag] at hset
        cases hset }
  unfold AsyncLogger.waitUntilEmpty
  split
  · exact (hcore .joining (by simp)).notifyAll
  · exact { hcore .parked (by simp) with attended := h.attended }

/-- The flag is not set once the thread that stops has come to the file queue. -/
theorem Core.flag_eq_false (h : Core config s) (hidle : s.stop ≠ .idle) (hcalled : s.stop ≠ .called) :
    s.asyncFileLogFlag = false := by
  cases hflag : s.asyncFileLogFlag with
  | false => rfl
  | true =>
    rcases h.unstopped hflag with hstop | hstop
    · exact absurd hstop hidle
    · exact absurd hstop hcalled

theorem Inv.stopAsyncLog (h : Inv config s) : Inv config s.stopAsyncLog := by
  unfold AsyncLogger.stopAsyncLog
  split
  · -- called
    exact { h with
      stopped := fun hstop => by cases hstop
      unstopped := fun _ => .inr rfl }
  · -- the flag and the queue
    have hcore : Core config { s with asyncFileLogFlag := false } :=
      { h.toCore with unstopped := fun hset => by cases hset }
    exact hcore.notifyAll.waitUntilEmpty rfl
  · -- waiting
    rename_i hwaiting
    exact h.waitUntilEmpty (h.flag_eq_false (by simp [hwaiting]) (by simp [hwaiting]))
  · -- joining
    rename_i hjoining
    have hflag := h.flag_eq_false (by simp [hjoining]) (by simp [hjoining])
    split
    · rename_i hgone
      refine { h with stopped := fun _ => ?_, unstopped := fun hset => ?_ }
      · rcases hgone with hgone | hgone <;> simp [hgone, FileHandler.isRunning]
      · have hset : s.asyncFileLogFlag = true := hset
        rw [hflag] at hset
        cases hset
    · exact h
  · exact h

/-- **One step.** -/
theorem Inv.step (h : Inv config s) {action : LogAction} (hgood : s.Good action) :
    Inv config (s.step config action) := by
  cases action with
  | begin level logStr => exact h.begin level logStr
  | log id opens => exact h.logMsg hgood
  | handler opens => exact h.asyncFileLogHandler hgood
  | stop => exact h.stopAsyncLog
  | wake => exact h.notifyAll

end AsyncLogger

end ProjectTrans
