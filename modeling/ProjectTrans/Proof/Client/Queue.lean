import ProjectTrans.Proof.Client.Schedule

/-!
# Block requests, entry by entry

Every entry of the queue is tracked from the enqueue that puts it in to the tick that
takes it out for good. Entries are told apart by the number of that enqueue. A cancelled
task comes back to life with its next enqueue, and with it whatever it still has in the
queue; `scheduling_sound` is about the runs in which nothing is left then.
-/

namespace ProjectTrans

open BlockScheduleController

/-- A queue entry, with the number of the enqueue that put it in. -/
abbrev Entry := ℕ × BlockRequestTransfer

/-- What an entry is for: a block, and the enqueue of its task. -/
def Entry.key (entry : Entry) : ℕ × Int64 := (entry.1, entry.2.blockId)

/-- The controller, its history, and what became of every entry. -/
structure Tracked extends Recorded where
  entries : List Entry
  enqueues : ℕ
  put : List Entry
  issued : List Entry
  cancelled : List Entry

namespace Tracked

/-- The entries an enqueue of a task puts in. -/
def newEntries (t : Tracked) (taskId : Int64) : List Entry :=
  (BlockRepository.getByTaskId t.controller.blocks taskId).map fun block => (t.enqueues, .ofBlock block)

/-- A call is recorded, and its entries are followed. -/
def track (t : Tracked) (call : ScheduleCall) : Tracked :=
  let recorded := t.toRecorded.record call
  match call with
  | .onTaskEnqueue _ _ taskEntity =>
    { toRecorded := recorded
      entries := t.entries ++ t.newEntries taskEntity.taskId
      enqueues := t.enqueues + 1
      put := t.put ++ t.newEntries taskEntity.taskId
      issued := t.issued
      cancelled := t.cancelled }
  | .onTaskCancle taskId =>
    { t with
      toRecorded := recorded
      cancelled := t.cancelled ++ t.put.filter fun entry => entry.2.taskId = taskId }
  | .onBlockRequest =>
    match t.entries with
    | [] => { t with toRecorded := recorded }
    | entry :: rest =>
      match t.controller.pending entry.2.taskId with
      | none => { t with toRecorded := recorded, entries := rest }
      | some task =>
        if task.isPaused then { t with toRecorded := recorded, entries := rest ++ [entry] }
        else { t with toRecorded := recorded, entries := rest, issued := t.issued ++ [entry] }
  | _ => { t with toRecorded := recorded }

/-- Nothing has been called. -/
def start (c : BlockScheduleController) : Tracked := ⟨⟨c, []⟩, [], 0, [], [], []⟩

end Tracked

/-- Whether a task is scheduled and paused, from the calls alone: none without a schedule. -/
def mark (taskId : Int64) (history : List Happening) : Option Bool :=
  history.foldl (fun m happening =>
    match happening with
    | .call (.onTaskEnqueue _ _ taskEntity) => if taskEntity.taskId = taskId then some false else m
    | .call (.onTaskCancle cancelled) => if cancelled = taskId then none else m
    | .call (.onTaskPaused paused isPaused) => if paused = taskId then m.map fun _ => isPaused else m
    | _ => m) none

/-- The requests a history lists. -/
def requests (history : List Happening) : List BlockRequestTransfer :=
  history.filterMap fun
    | .signal (.blockRequest _ _ transfer) => some transfer
    | _ => none

/-- What the schedule promises in every state: a block is requested once at most for each
enqueue of its task, and entries that were not cancelled are requested or still queued. -/
structure Tracked.Scheduled (t : Tracked) : Prop where
  queue : t.entries.map Prod.snd = t.controller.queue
  requested : t.issued.map Prod.snd = requests t.history
  once : (t.issued.map Entry.key).Nodup
  kept : ∀ entry ∈ t.put, entry ∈ t.issued ∨ entry ∈ t.entries ∨ entry ∈ t.cancelled

/-- What a call promises: the state after it is scheduled, and what it requests was
queued, is not cancelled, and its task is scheduled and not paused. -/
structure Tracked.SchedulesRightly (t : Tracked) (call : ScheduleCall) : Prop where
  scheduled : (t.track call).Scheduled
  request : ∀ entry ∈ (t.track call).issued, entry ∉ t.issued →
    entry ∈ t.entries ∧ entry ∉ t.cancelled ∧ mark entry.2.taskId t.history = some false

/-- A task that is not scheduled is enqueued only when none of its entries is left in the queue. -/
def Tracked.EnqueuesAfresh (t : Tracked) : ScheduleCall → Prop
  | .onTaskEnqueue _ _ taskEntity =>
    (t.controller.pending taskEntity.taskId).isSome = true ∨
      ∀ transfer ∈ t.controller.queue, transfer.taskId ≠ taskEntity.taskId
  | _ => True

/-! ## The invariant -/

/-- What holds between calls. -/
structure Tracked.Inv (t : Tracked) : Prop extends t.Scheduled where
  keyed : t.controller.KeyedBlocks
  marks : ∀ taskId, (t.controller.pending taskId).map (·.isPaused) = mark taskId t.history
  numbers : ∀ entry ∈ t.put, entry.1 < t.enqueues
  queued : ∀ entry ∈ t.entries, entry ∈ t.put
  issuedPut : ∀ entry ∈ t.issued, entry ∈ t.put
  cancelledPut : ∀ entry ∈ t.cancelled, entry ∈ t.put
  distinct : ((t.entries ++ t.issued).map Entry.key).Nodup
  stale : ∀ entry ∈ t.entries, entry ∈ t.cancelled ↔ t.controller.pending entry.2.taskId = none

namespace Tracked

variable {t : Tracked}

theorem Inv.start {c : BlockScheduleController} (hfresh : c.Fresh) (hkeyed : c.KeyedBlocks) :
    (Tracked.start c).Inv where
  queue := hfresh.queue.symm
  requested := rfl
  once := List.nodup_nil
  kept := fun _ h => absurd h List.not_mem_nil
  keyed := hkeyed
  marks := fun taskId => congrArg _ (hfresh.pending taskId)
  numbers := fun _ h => absurd h List.not_mem_nil
  queued := fun _ h => absurd h List.not_mem_nil
  issuedPut := fun _ h => absurd h List.not_mem_nil
  cancelledPut := fun _ h => absurd h List.not_mem_nil
  distinct := List.nodup_nil
  stale := fun _ h => absurd h List.not_mem_nil

/-- Signals change no mark. -/
theorem mark_signals (taskId : Int64) (history : List Happening) (signals : List ScheduleSignal) :
    mark taskId (history ++ signals.map .signal) = mark taskId history := by
  unfold mark
  rw [List.foldl_append, List.foldl_map]
  exact List.foldl_fixed signals

/-- The marks after a call. -/
theorem mark_record (r : Recorded) (call : ScheduleCall) (taskId : Int64) :
    mark taskId (r.record call).history =
      match call with
      | .onTaskEnqueue _ _ taskEntity => if taskEntity.taskId = taskId then some false else mark taskId r.history
      | .onTaskCancle cancelled => if cancelled = taskId then none else mark taskId r.history
      | .onTaskPaused paused isPaused =>
        if paused = taskId then (mark taskId r.history).map fun _ => isPaused else mark taskId r.history
      | _ => mark taskId r.history := by
  have hsplit : (r.record call).history =
      (r.history ++ [.call call]) ++ (r.controller.step call).2.map .signal := by
    simp [Recorded.record]
  rw [hsplit, mark_signals]
  unfold mark
  rw [List.foldl_append]
  cases call <;> rfl

/-- The requests after a call. -/
theorem requests_record (r : Recorded) (call : ScheduleCall) :
    requests (r.record call).history =
      requests r.history ++ requests ((r.controller.step call).2.map .signal) := by
  unfold requests Recorded.record
  rw [List.filterMap_append, List.filterMap_cons_none rfl]

/-- The new entries of a task are for different blocks. -/
theorem newEntries_nodup (hkeyed : t.controller.KeyedBlocks) (taskId : Int64) :
    ((t.newEntries taskId).map Entry.key).Nodup := by
  have hids : ((BlockRepository.getByTaskId t.controller.blocks taskId).map (·.blockId)).Nodup :=
    hkeyed.sublist (List.filter_sublist.map _)
  have hmap : (t.newEntries taskId).map Entry.key =
      ((BlockRepository.getByTaskId t.controller.blocks taskId).map (·.blockId)).map fun id =>
        (t.enqueues, id) := by
    rw [newEntries, List.map_map, List.map_map]
    rfl
  rw [hmap]
  exact hids.map fun a b h => (Prod.mk.inj h).2

theorem mem_newEntries {taskId : Int64} {entry : Entry} (h : entry ∈ t.newEntries taskId) :
    entry.1 = t.enqueues ∧ entry.2.taskId = taskId := by
  obtain ⟨block, hblock, rfl⟩ := List.mem_map.1 h
  exact ⟨rfl, (BlockRepository.mem_getByTaskId.1 hblock).2⟩

/-- Entries of earlier enqueues are for something else. -/
theorem disjoint_newEntries {l : List Entry} (h : ∀ entry ∈ l, entry.1 < t.enqueues) (taskId : Int64) :
    (l.map Entry.key).Disjoint ((t.newEntries taskId).map Entry.key) := by
  intro key hold hnew
  obtain ⟨entry, hentry, rfl⟩ := List.mem_map.1 hold
  obtain ⟨entry', hentry', heq⟩ := List.mem_map.1 hnew
  have h1 := h entry hentry
  have h2 : entry'.1 = entry.1 := (Prod.mk.inj heq).1
  have h3 := (mem_newEntries hentry').1
  omega

/-- Every entry that is queued or issued has a number that was given. -/
theorem Inv.number_lt (h : t.Inv) : ∀ entry ∈ t.entries ++ t.issued, entry.1 < t.enqueues := by
  intro entry hentry
  rcases List.mem_append.1 hentry with hq | hi
  · exact h.numbers entry (h.queued entry hq)
  · exact h.numbers entry (h.issuedPut entry hi)

/-- New entries carry a number that no entry had. -/
theorem Inv.enqueue_distinct (h : t.Inv) (taskId : Int64) :
    ((t.entries ++ t.newEntries taskId ++ t.issued).map Entry.key).Nodup := by
  have hperm : (t.entries ++ t.newEntries taskId ++ t.issued).Perm
      (t.entries ++ t.issued ++ t.newEntries taskId) := by
    rw [List.append_assoc, List.append_assoc]
    exact List.perm_append_comm.append_left _
  rw [(hperm.map _).nodup_iff, List.map_append]
  exact List.nodup_append'.2 ⟨h.distinct, newEntries_nodup h.keyed _, disjoint_newEntries h.number_lt _⟩

/-- After an enqueue the stale entries are still those that were cancelled. -/
theorem Inv.enqueue_stale (h : t.Inv) {eventSource : EventContext} {endpoint : NetworkEndpoint}
    {taskEntity : TaskEntity}
    (hafresh : t.EnqueuesAfresh (.onTaskEnqueue eventSource endpoint taskEntity)) (task : TaskPending) :
    ∀ entry ∈ t.entries ++ t.newEntries taskEntity.taskId, entry ∈ t.cancelled ↔
      Function.update t.controller.pending taskEntity.taskId (some task) entry.2.taskId = none := by
  intro entry hentry
  rcases List.mem_append.1 hentry with hq | hnew
  · by_cases ht : entry.2.taskId = taskEntity.taskId
    · rw [ht, Function.update_self, h.stale entry hq, ht]
      -- a task that is not scheduled has no entry left
      refine iff_of_false (fun hnone => ?_) (by simp)
      rcases hafresh with hsome | hleft
      · rw [hnone] at hsome
        exact absurd hsome (by simp)
      · refine hleft entry.2 ?_ ht
        rw [← h.queue]
        exact List.mem_map_of_mem hq
    · rw [Function.update_of_ne ht, h.stale entry hq]
  · -- no new entry was cancelled, for its number is new
    obtain ⟨hnumber, ht⟩ := mem_newEntries hnew
    rw [ht, Function.update_self]
    refine iff_of_false (fun hcancelled => ?_) (by simp)
    have := h.numbers entry (h.cancelledPut entry hcancelled)
    omega

/-- An enqueue puts in what nobody has put in before. -/
theorem Inv.enqueue (h : t.Inv) {eventSource : EventContext} {endpoint : NetworkEndpoint}
    {taskEntity : TaskEntity} (hafresh : t.EnqueuesAfresh (.onTaskEnqueue eventSource endpoint taskEntity)) :
    (t.track (.onTaskEnqueue eventSource endpoint taskEntity)).Inv := by
  refine { queue := ?_, requested := ?_, once := h.once, kept := ?_, keyed := h.keyed, marks := ?_, numbers := ?_,
           queued := ?_, issuedPut := ?_, cancelledPut := ?_, distinct := h.enqueue_distinct taskEntity.taskId,
           stale := h.enqueue_stale hafresh _ }
  · show (t.entries ++ t.newEntries taskEntity.taskId).map Prod.snd = t.controller.queue ++ _
    rw [List.map_append, h.queue, newEntries, List.map_map]
    rfl
  · show t.issued.map Prod.snd = requests (t.toRecorded.record _).history
    rw [requests_record, h.requested]
    exact (List.append_nil _).symm
  · intro entry hentry
    -- an entry that was put in before is where it was; the new ones are in the queue
    rcases List.mem_append.1 hentry with hput | hnew
    · rcases h.kept entry hput with hi | hq | hc
      · exact .inl hi
      · exact .inr (.inl (List.mem_append_left _ hq))
      · exact .inr (.inr hc)
    · exact .inr (.inl (List.mem_append_right _ hnew))
  · -- only the task that is enqueued gets a mark
    intro taskId
    show Option.map _ (Function.update t.controller.pending taskEntity.taskId _ taskId) =
      mark taskId (t.toRecorded.record _).history
    rw [mark_record]
    dsimp only
    rw [← h.marks]
    by_cases ht : taskEntity.taskId = taskId
    · subst ht
      rw [Function.update_self]
      simp
    · rw [Function.update_of_ne (Ne.symm ht), if_neg ht]
  · intro entry hentry
    show entry.1 < t.enqueues + 1
    rcases List.mem_append.1 hentry with hput | hnew
    · have := h.numbers entry hput
      omega
    · rw [(mem_newEntries hnew).1]
      omega
  · intro entry hentry
    rcases List.mem_append.1 hentry with hq | hnew
    · exact List.mem_append_left _ (h.queued entry hq)
    · exact List.mem_append_right _ hnew
  · exact fun entry hentry => List.mem_append_left _ (h.issuedPut entry hentry)
  · exact fun entry hentry => List.mem_append_left _ (h.cancelledPut entry hentry)

/-- A cancel takes its task off the schedule, and its entries with it. -/
theorem Inv.cancel (h : t.Inv) (taskId : Int64) : (t.track (.onTaskCancle taskId)).Inv := by
  refine { queue := h.queue, requested := ?_, once := h.once, kept := ?_, keyed := h.keyed, marks := ?_,
           numbers := h.numbers, queued := h.queued, issuedPut := h.issuedPut, cancelledPut := ?_,
           distinct := h.distinct, stale := ?_ }
  · show t.issued.map Prod.snd = requests (t.toRecorded.record _).history
    rw [requests_record, h.requested]
    exact (List.append_nil _).symm
  · intro entry hentry
    rcases h.kept entry hentry with hi | hq | hc
    · exact .inl hi
    · exact .inr (.inl hq)
    · exact .inr (.inr (List.mem_append_left _ hc))
  · intro other
    show Option.map _ (Function.update t.controller.pending taskId none other) =
      mark other (t.toRecorded.record _).history
    rw [mark_record]
    dsimp only
    rw [← h.marks]
    by_cases ht : taskId = other
    · subst ht
      rw [Function.update_self, if_pos rfl]
      rfl
    · rw [Function.update_of_ne (Ne.symm ht), if_neg ht]
  · intro entry hentry
    rcases List.mem_append.1 hentry with hc | hput
    · exact h.cancelledPut entry hc
    · exact (List.mem_filter.1 hput).1
  · intro entry hentry
    show entry ∈ t.cancelled ++ t.put.filter _ ↔
      Function.update t.controller.pending taskId none entry.2.taskId = none
    rw [List.mem_append, List.mem_filter, h.stale entry hentry]
    -- the entries of the cancelled task are stale from now on, and no others
    by_cases ht : entry.2.taskId = taskId
    · rw [ht, Function.update_self]
      exact iff_of_true (.inr ⟨h.queued entry hentry, by simp⟩) rfl
    · rw [Function.update_of_ne ht]
      simp [ht]

/-- A call that leaves queue, rows' ids and schedule alone, and requests nothing. -/
theorem Inv.of_same (h : t.Inv) {call : ScheduleCall}
    (htrack : t.track call = { t with toRecorded := t.record call })
    (hqueue : (t.controller.step call).1.queue = t.controller.queue)
    (hids : (t.controller.step call).1.blocks.map (·.blockId) = t.controller.blocks.map (·.blockId))
    (hmarks : ∀ taskId, ((t.controller.step call).1.pending taskId).map (·.isPaused) =
      mark taskId (t.record call).history)
    (hlive : ∀ taskId, t.controller.pending taskId = none ↔ (t.controller.step call).1.pending taskId = none)
    (hrequests : requests ((t.controller.step call).2.map .signal) = []) : (t.track call).Inv := by
  rw [htrack]
  refine { queue := h.queue.trans hqueue.symm, requested := ?_, once := h.once, kept := h.kept, keyed := ?_,
           marks := hmarks, numbers := h.numbers, queued := h.queued, issuedPut := h.issuedPut,
           cancelledPut := h.cancelledPut, distinct := h.distinct,
           stale := fun entry hentry => (h.stale entry hentry).trans (hlive _) }
  · show t.issued.map Prod.snd = requests (t.record call).history
    rw [requests_record, hrequests, List.append_nil, h.requested]
  · show ((t.controller.step call).1.blocks.map (·.blockId)).Nodup
    rw [hids]
    exact h.keyed

theorem Inv.pause (h : t.Inv) (taskId : Int64) (isPaused : Bool) :
    (t.track (.onTaskPaused taskId isPaused)).Inv := by
  refine h.of_same rfl (onTaskPaused_queue taskId isPaused) (step_ids _ _) (fun other => ?_)
    (fun other => ?_) rfl
  · rw [mark_record, BlockScheduleController.step, onTaskPaused_pending]
    dsimp only
    rw [← h.marks]
    by_cases ht : taskId = other
    · subst ht
      rw [Function.update_self, if_pos rfl, Option.map_map, Option.map_map]
      rfl
    · rw [Function.update_of_ne (Ne.symm ht), if_neg ht]
  · rw [BlockScheduleController.step, onTaskPaused_pending]
    by_cases ht : other = taskId
    · subst ht
      rw [Function.update_self, Option.map_eq_none_iff]
    · rw [Function.update_of_ne ht]

theorem Inv.response (h : t.Inv) (outcome : FileOutcome) (response : BlockResponseTransfer) :
    (t.track (.onBlockResponse outcome response)).Inv := by
  have hsame := onBlockResponse_same (c := t.controller) outcome response
  refine h.of_same rfl hsame.queue (step_ids _ _) (fun taskId => ?_) (fun taskId => ?_) ?_
  · rw [mark_record]
    exact (hsame.marks taskId).trans (h.marks taskId)
  · have hmark := hsame.marks taskId
    rw [← Option.map_eq_none_iff (f := (·.isPaused)), ← hmark, Option.map_eq_none_iff]
    rfl
  · rw [BlockScheduleController.step]
    obtain hs | ⟨completed, hs⟩ := onBlockResponse_signals t.controller outcome response
    · rw [hs]
      rfl
    · rw [hs]
      rfl

/-- What a tick does to the entries. -/
theorem track_onBlockRequest (t : Tracked) : t.track .onBlockRequest =
    match t.entries with
    | [] => { t with toRecorded := t.record .onBlockRequest }
    | entry :: rest =>
      match t.controller.pending entry.2.taskId with
      | none => { t with toRecorded := t.record .onBlockRequest, entries := rest }
      | some task =>
        if task.isPaused then { t with toRecorded := t.record .onBlockRequest, entries := rest ++ [entry] }
        else
          { t with toRecorded := t.record .onBlockRequest, entries := rest, issued := t.issued ++ [entry] } :=
      rfl

/-- A tick with an empty queue. -/
theorem Inv.request_nil (h : t.Inv) (hentries : t.entries = []) : (t.track .onBlockRequest).Inv := by
  have hqueue : t.controller.queue = [] := by rw [← h.queue, hentries]; rfl
  have hstep : t.controller.step .onBlockRequest = (t.controller, []) := by
    rw [BlockScheduleController.step, onBlockRequest, hqueue]
  refine h.of_same (by rw [track_onBlockRequest, hentries]) (by rw [hstep]) (step_ids _ _) (fun taskId => ?_)
    (fun taskId => ?_)
    (by rw [hstep]; rfl)
  · rw [mark_record, hstep]
    exact h.marks taskId
  · rw [hstep]

/-- A tick that leaves `entries` in the queue, `issued` having been requested. -/
theorem Inv.of_tick (h : t.Inv) {entries issued : List Entry} (signals : List ScheduleSignal)
    (htrack : t.track .onBlockRequest =
      { t with toRecorded := t.record .onBlockRequest, entries := entries, issued := issued })
    (hstep : t.controller.step .onBlockRequest = ({ t.controller with queue := entries.map Prod.snd }, signals))
    (hissued : issued.map Prod.snd = t.issued.map Prod.snd ++ requests (signals.map .signal))
    (hdistinct : ((entries ++ issued).map Entry.key).Nodup) (hsub : ∀ entry ∈ entries, entry ∈ t.entries)
    (hput : ∀ entry ∈ issued, entry ∈ t.put) (hold : ∀ entry ∈ t.issued, entry ∈ issued)
    (hkept : ∀ entry ∈ t.entries, entry ∈ issued ∨ entry ∈ entries ∨ entry ∈ t.cancelled) :
    (t.track .onBlockRequest).Inv := by
  have hcontroller : (t.record .onBlockRequest).controller =
    { t.controller with queue := entries.map Prod.snd } :=
    congrArg Prod.fst hstep
  rw [htrack]
  refine { queue := by rw [hcontroller], requested := ?_, once := ?_, kept := fun entry hentry => ?_,
           keyed := by rw [hcontroller]; exact h.keyed, marks := fun taskId => ?_, numbers := h.numbers,
           queued := fun entry hentry => h.queued entry (hsub entry hentry), issuedPut := hput,
           cancelledPut := h.cancelledPut, distinct := hdistinct, stale := fun entry hentry => ?_ }
  · show issued.map Prod.snd = requests (t.record .onBlockRequest).history
    rw [requests_record, hstep, hissued, h.requested]
  · -- nothing issued is issued twice, as nothing in both lists is
    rw [List.map_append] at hdistinct
    exact hdistinct.of_append_right
  · rcases h.kept entry hentry with hi | hq | hc
    · exact .inl (hold entry hi)
    · exact hkept entry hq
    · exact .inr (.inr hc)
  · show ((t.record .onBlockRequest).controller.pending taskId).map _ = mark taskId
      (t.record .onBlockRequest).history
    rw [hcontroller, mark_record]
    exact h.marks taskId
  · show entry ∈ t.cancelled ↔ (t.record .onBlockRequest).controller.pending entry.2.taskId = none
    rw [hcontroller]
    exact h.stale entry (hsub entry hentry)

section Tick

variable {entry : Entry} {rest : List Entry}

/-- The queue of the controller before a tick. -/
theorem Inv.queue_cons (h : t.Inv) (hentries : t.entries = entry :: rest) :
    t.controller.queue = entry.2 :: rest.map Prod.snd := by
  rw [← h.queue, hentries, List.map_cons]

/-- A tick drops an entry of a cancelled task. -/
theorem Inv.request_dropped (h : t.Inv) (hentries : t.entries = entry :: rest)
    (hpending : t.controller.pending entry.2.taskId = none) :
    (t.track .onBlockRequest).Inv ∧ (t.track .onBlockRequest).issued = t.issued := by
  have hfirst : entry ∈ t.entries := hentries ▸ List.mem_cons_self
  have hmem : ∀ e ∈ rest, e ∈ t.entries := fun e he => hentries ▸ List.mem_cons_of_mem _ he
  have hdistinct := h.distinct
  rw [hentries] at hdistinct
  have htrack : t.track .onBlockRequest = { t with toRecorded := t.record .onBlockRequest, entries := rest } := by
    simp only [track_onBlockRequest, hentries, hpending]
  refine ⟨h.of_tick [] htrack ?_ (List.append_nil _).symm hdistinct.of_cons hmem h.issuedPut (fun e he => he)
    (fun e he => ?_), by rw [htrack]⟩
  · simp only [BlockScheduleController.step, onBlockRequest, h.queue_cons hentries, hpending]
  · rw [hentries] at he
    rcases List.mem_cons.1 he with rfl | he
    · exact .inr (.inr ((h.stale e hfirst).2 hpending))
    · exact .inr (.inl he)

/-- A tick puts an entry of a paused task at the back. -/
theorem Inv.request_postponed (h : t.Inv) (hentries : t.entries = entry :: rest) {task : TaskPending}
    (hpending : t.controller.pending entry.2.taskId = some task) (hpaused : task.isPaused = true) :
    (t.track .onBlockRequest).Inv ∧ (t.track .onBlockRequest).issued = t.issued := by
  have htrack : t.track .onBlockRequest =
      { t with toRecorded := t.record .onBlockRequest, entries := rest ++ [entry] } := by
    simp only [track_onBlockRequest, hentries, hpending, hpaused, if_true]
  have hperm : (rest ++ [entry]).Perm t.entries := by
    rw [hentries]
    exact List.perm_append_singleton entry rest
  refine ⟨h.of_tick [] htrack ?_ (List.append_nil _).symm ?_ (fun e he => hperm.mem_iff.1 he) h.issuedPut
    (fun e he => he) (fun e he => .inr (.inl (hperm.mem_iff.2 he))), by rw [htrack]⟩
  · simp only [BlockScheduleController.step, onBlockRequest, h.queue_cons hentries, hpending, hpaused, if_true,
      List.map_append, List.map_cons, List.map_nil]
  · exact (((hperm.append_right _).map _).nodup_iff).2 h.distinct

/-- A tick requests an entry of any other task. -/
theorem Inv.request_issued (h : t.Inv) (hentries : t.entries = entry :: rest) {task : TaskPending}
    (hpending : t.controller.pending entry.2.taskId = some task) (hpaused : task.isPaused = false) :
    (t.track .onBlockRequest).Inv ∧ (t.track .onBlockRequest).issued = t.issued ++ [entry] := by
  have hfirst : entry ∈ t.entries := hentries ▸ List.mem_cons_self
  have hmem : ∀ e ∈ rest, e ∈ t.entries := fun e he => hentries ▸ List.mem_cons_of_mem _ he
  have hdistinct := h.distinct
  rw [hentries] at hdistinct
  have htrack : t.track .onBlockRequest =
      { t with toRecorded := t.record .onBlockRequest, entries := rest, issued := t.issued ++ [entry] } := by
    simp only [track_onBlockRequest, hentries, hpending, hpaused, Bool.false_eq_true, if_false]
  -- the entry only changes its list
  have hperm : (rest ++ (t.issued ++ [entry])).Perm (entry :: rest ++ t.issued) := by
    rw [← List.append_assoc]
    exact List.perm_append_singleton entry (rest ++ t.issued)
  refine ⟨h.of_tick [.blockRequest task.eventSource task.endpoint entry.2] htrack ?_ ?_ ?_ hmem (fun e he => ?_)
    (fun e he => List.mem_append_left _ he) (fun e he => ?_), by rw [htrack]⟩
  · simp only [BlockScheduleController.step, onBlockRequest, h.queue_cons hentries, hpending, hpaused,
      Bool.false_eq_true, if_false]
  · rw [List.map_append]
    rfl
  · exact ((hperm.map _).nodup_iff).2 hdistinct
  · rcases List.mem_append.1 he with he | he
    · exact h.issuedPut e he
    · rw [List.mem_singleton.1 he]
      exact h.queued entry hfirst
  · rw [hentries] at he
    rcases List.mem_cons.1 he with rfl | he
    · exact .inl (List.mem_append_right _ List.mem_cons_self)
    · exact .inr (.inl he)

/-- **A tick with a queue**: what is requested was queued, and its task is scheduled and not paused. -/
theorem Inv.request_cons (h : t.Inv) (hentries : t.entries = entry :: rest) :
    (t.track .onBlockRequest).Inv ∧ ∀ e ∈ (t.track .onBlockRequest).issued, e ∉ t.issued →
      e ∈ t.entries ∧ e ∉ t.cancelled ∧ mark e.2.taskId t.history = some false := by
  cases hpending : t.controller.pending entry.2.taskId with
  | none =>
    obtain ⟨hinv, hissued⟩ := h.request_dropped hentries hpending
    exact ⟨hinv, fun e he hnew => absurd (hissued ▸ he) hnew⟩
  | some task =>
    cases hpaused : task.isPaused with
    | true =>
      obtain ⟨hinv, hissued⟩ := h.request_postponed hentries hpending hpaused
      exact ⟨hinv, fun e he hnew => absurd (hissued ▸ he) hnew⟩
    | false =>
      obtain ⟨hinv, hissued⟩ := h.request_issued hentries hpending hpaused
      refine ⟨hinv, fun e he hnew => ?_⟩
      rw [hissued] at he
      obtain rfl := List.mem_singleton.1 ((List.mem_append.1 he).resolve_left hnew)
      have hfirst : e ∈ t.entries := hentries ▸ List.mem_cons_self
      refine ⟨hfirst, fun hc => ?_, ?_⟩
      · rw [(h.stale e hfirst).1 hc] at hpending
        exact absurd hpending (by simp)
      · rw [← h.marks, hpending, Option.map_some, hpaused]

end Tick

/-- **Blocks are requested once for each enqueue**, not while paused nor after a cancel,
and none is lost, in every run that enqueues tasks afresh. -/
theorem scheduling_sound {c : BlockScheduleController} (hfresh : c.Fresh) (hkeyed : c.KeyedBlocks)
    {calls : List ScheduleCall} (hm : Run.Meets EnqueuesAfresh track (.start c) calls) :
    Run.Meets SchedulesRightly track (.start c) calls := by
  refine hm.imp_of_invariant Inv (fun t call h hafresh => ?_) (.start hfresh hkeyed)
  have hnone (hissued : (t.track call).issued = t.issued) (hinv : (t.track call).Inv) :
      (t.track call).Inv ∧ t.SchedulesRightly call := by
    refine ⟨hinv, hinv.toScheduled, fun entry hentry hnew => ?_⟩
    rw [hissued] at hentry
    exact absurd hentry hnew
  cases call with
  | onTaskEnqueue eventSource endpoint taskEntity => exact hnone rfl (h.enqueue hafresh)
  | onTaskCancle taskId => exact hnone rfl (h.cancel taskId)
  | onTaskPaused taskId isPaused => exact hnone rfl (h.pause taskId isPaused)
  | onBlockResponse outcome response => exact hnone rfl (h.response outcome response)
  | onBlockRequest =>
    cases hentries : t.entries with
    | nil => exact hnone (by rw [track_onBlockRequest, hentries]) (h.request_nil hentries)
    | cons entry rest =>
      obtain ⟨hinv, hrequest⟩ := h.request_cons hentries
      exact ⟨hinv, hinv.toScheduled, hrequest⟩

/-- A task is started, paused, resumed and cancelled. -/
theorem scheduling_sound_twoBlocks :
    Run.Meets SchedulesRightly track (.start twoBlocks)
      [startTask, .onTaskPaused 1 true, .onBlockRequest, .onTaskPaused 1 false, .onBlockRequest,
        .onTaskCancle 1] :=
  scheduling_sound ⟨rfl, fun _ => rfl⟩ (show List.Nodup _ by decide)
    ⟨.inr fun _ h => absurd h List.not_mem_nil, trivial, trivial, trivial, trivial, trivial, trivial⟩

/-- A task is started, cancelled and started again: its first entry is requested, though
it was put in before the cancel. -/
theorem cancelledEntry_requested :
    ¬Run.Meets SchedulesRightly track (.start twoBlocks)
      [startTask, .onTaskCancle 1, startTask, .onBlockRequest] := by
  rintro ⟨-, -, -, h, -⟩
  have hrequest := h.request (0, ⟨1, 1, 1, 0, 1⟩) (by decide) (by decide)
  exact hrequest.2.1 (by decide)

end Tracked

end ProjectTrans
