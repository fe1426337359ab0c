import ProjectTrans.Proof.Client.AppInvariant

/-!
# The slots of the client

What the user does, what becomes of a response, and what the thread of the controller does keep
`ClientApp.Inv`.
-/

namespace ProjectTrans

open Wire

namespace ClientApp

variable {host : Endian} {text : SerializeField → Bytes} {servers : NetworkEndpoint → FileService}
  {serverFd eventFd : NetworkEndpoint → ℕ} {s : ClientApp} {hand : List RequestEvent}

/-! ## The user -/

theorem endpoint_of_parse {sourceUrl : Bytes} {info : UrlInfo}
    (h : UrlResolver.parse (letters sourceUrl) = .ok info)
    {d : Download} (hd : d.sourceUrl = sourceUrl) : d.endpoint = some info.endpoint := by
  unfold Download.endpoint
  rw [hd, h]
  rfl

/-- A task that is added is numbered, and its number is new. -/
theorem add_cases (service : TaskService) (tasks : List TaskEntity) (task : TaskEntity) :
    (service.add tasks task).2.2.2 = false ∧ (service.add tasks task).2.1 = tasks ∨
      (service.add tasks task).2.2.2 = true ∧ (service.add tasks task).2.1 =
        tasks ++ [(service.add tasks task).2.2.1] ∧
        ∀ row ∈ tasks, row.taskId ≠ (service.add tasks task).2.2.1.taskId := by
  unfold TaskService.add TaskRepository.add
  dsimp only
  split
  · exact .inl ⟨rfl, rfl⟩
  · split
    · exact .inl ⟨rfl, rfl⟩
    · split
      · exact .inl ⟨rfl, rfl⟩
      · rename_i hnone
        refine .inr ⟨rfl, rfl, fun row hrow heq => hnone ?_⟩
        rw [List.any_eq_true]
        exact ⟨row, hrow, decide_eq_true heq⟩

theorem faithful_addTask {c : BlockScheduleController} (h : c.Faithful servers) {task : TaskEntity}
    (hnew : ∀ row ∈ c.tasks, row.taskId ≠ task.taskId) :
    ({ c with tasks := c.tasks ++ [task] } : BlockScheduleController).Faithful servers := by
  have hdownloads : ({ c with tasks := c.tasks ++ [task] } : BlockScheduleController).downloads =
      c.downloads ++ [task.download] := by
    rw [BlockScheduleController.downloads, List.map_append, List.map_singleton, BlockScheduleController.downloads]
  refine h.grow rfl rfl rfl ?_ ?_ (List.Subset.refl _) h.blockIds (fun _ htransfer => .inl htransfer)
    fun _ hblock _ => hblock
  · rw [hdownloads]
    exact List.subset_append_left _ _
  · rw [hdownloads, List.map_append, List.map_singleton]
    refine h.taskIds.append (List.nodup_singleton _) fun taskId hold hlast => ?_
    obtain ⟨d, hd, rfl⟩ := List.mem_map.1 hold
    obtain ⟨row, hrow, rfl⟩ := List.mem_map.1 hd
    exact hnew row hrow (List.mem_singleton.1 hlast)

theorem add_task (service : TaskService) (tasks : List TaskEntity) (task : TaskEntity) :
    (service.add tasks task).2.2.1 = { task with taskId := service.taskCounter } := by
  unfold TaskService.add
  dsimp only
  split <;> rfl

theorem Inv.withService (h : s.Inv host text servers hand) (service : TaskService) :
    ({ s with taskService := service } : ClientApp).Inv host text servers hand :=
  ⟨h.net, h.signalled, h.controller, h.calls, h.requestEvents, h.scheduleEvents, h.adding,
    h.added, h.events.counter, h.events.ids, h.events.made, h.events.dispatched, h.events.published,
    h.events.envelopes⟩

/-- **The user adds a download**: its task is kept, and its file asked for at the server of its URL. -/
theorem Inv.onAddDownload (h : s.Inv host text servers []) (download : NewDownload)
    (hfew : s.asked.length < 2 ^ 64 - 1) :
    (s.onAddDownload serverFd eventFd host text download).Inv host text servers [] := by
  unfold ClientApp.onAddDownload
  -- the checks of the URL and of the file id in its query come first
  split
  · exact h
  · rename_i info hparsed
    split
    · exact h
    · split
      · exact h
      · split
        · exact h
        · split
          · exact h
          · rename_i fileId hfileId
            dsimp only
            set task : TaskEntity :=
              ⟨-1, fileId, download.savedPath, download.url, .download, .waiting, download.startTime, 0⟩
            have htask := add_task s.taskService s.controller.tasks task
            obtain ⟨hadded, htasks⟩ | ⟨hadded, htasks, hnew⟩ := add_cases s.taskService s.controller.tasks task
            · -- the service has used up an id, and nothing is asked for
              rw [hadded, htasks]
              exact h.withService _
            · -- the task is kept, and its file is asked for at the server of its URL
              rw [hadded, htasks]
              have hkept := (h.withService (s.taskService.add s.controller.tasks task).1).withController
                (faithful_addTask h.controller hnew) (by
                  rw [BlockScheduleController.downloads, BlockScheduleController.downloads, List.map_append]
                  exact List.subset_append_left _ _) (List.Subset.refl _)
              refine (hkept.publish _ _ _ hfew).onRequest ?_ trivial
              refine ⟨(s.taskService.add s.controller.tasks task).2.2.1.download, ?_, rfl, ?_⟩
              · exact List.mem_map_of_mem (List.mem_append_right _ (List.mem_singleton.2 rfl))
              · refine endpoint_of_parse hparsed ?_
                rw [htask]
                rfl

/-- The user tests a connection. -/
theorem Inv.onSendTest (h : s.Inv host text servers []) (objectName url message : Bytes)
    (hmessage : message.length + 41 ≤ valueLimit) (hfew : s.asked.length < 2 ^ 64 - 1) :
    (s.onSendTest serverFd eventFd host text objectName url message).Inv host text servers [] := by
  unfold ClientApp.onSendTest
  split
  · exact h
  · exact (h.publish _ _ _ hfew).onRequest trivial hmessage

/-- The user starts a task of the table. -/
theorem Inv.onStartTask (h : s.Inv host text servers hand) (taskId : Int64) :
    (s.onStartTask taskId).Inv host text servers hand := by
  unfold ClientApp.onStartTask
  split
  · exact h
  · split
    · exact h
    · rename_i task htask
      split
      · exact h
      · rename_i info hparsed
        refine h.withScheduleEvents fun event hevent => ?_
        rcases List.mem_append.1 hevent with hold | hnew
        · exact h.scheduleEvents event hold
        · rw [List.mem_singleton.1 hnew]
          -- the event is for a task of the table, at the server of its URL
          exact ⟨List.mem_map_of_mem (TaskRepository.getByTaskId_some htask).1, endpoint_of_parse hparsed rfl⟩

/-! ## Responses -/

theorem request_of_block {files : FileService} {context context' : TransContext} {request : TransService.Request}
    {response : BlockResponseTransfer}
    (h : request.signal files context = some (.blockResponseReceived context' response)) :
    ∃ transfer, request = .block transfer ∧ fetched files transfer = some response := by
  cases request with
  | test request =>
    obtain ⟨_, -, heq⟩ := Option.map_eq_some_iff.1 h
    cases heq
  | download request => cases h
  | block transfer =>
    obtain ⟨response', hfetched, heq⟩ := Option.map_eq_some_iff.1 h
    obtain ⟨-, rfl⟩ := TransService.Signal.blockResponseReceived.inj heq
    exact ⟨transfer, rfl, hfetched⟩

theorem request_of_download {files : FileService} {context context' : TransContext}
    {request : TransService.Request} {response : DownloadResponseTransfer}
    (h : request.signal files context = some (.downloadResponseReceived context' response)) :
    ∃ r, request = .download r ∧ response = arrivingDownload (files.downloadAnswer r) := by
  cases request with
  | test request =>
    obtain ⟨_, -, heq⟩ := Option.map_eq_some_iff.1 h
    cases heq
  | download request =>
    obtain ⟨-, heq⟩ := TransService.Signal.downloadResponseReceived.inj (Option.some.inj h)
    exact ⟨request, rfl, heq.symm⟩
  | block transfer =>
    obtain ⟨_, -, heq⟩ := Option.map_eq_some_iff.1 h
    cases heq

/-- A download response that is not refused is for its task. -/
theorem arrivingDownload_taskId {files : FileService} {r : DownloadRequestTransfer}
    (h : ¬(arrivingDownload (files.downloadAnswer r)).fileId < 0) :
    (arrivingDownload (files.downloadAnswer r)).taskId = r.taskId := by
  unfold arrivingDownload at h ⊢
  split
  · unfold FileService.downloadAnswer BusinessRuntime.downloadAnswer
    split <;> rfl
  · -- a name too long for the answer leaves the file id -1, which is refused
    rename_i hlong
    rw [if_neg hlong] at h
    exact absurd (by decide) h

/-- The next response is published, under the envelope of its request. -/
theorem Inv.publishNext (h : s.Inv host text servers hand) {signal : TransService.Signal}
    (hnext : s.net.trans.signals[s.dispatched]? = some signal) :
    ∃ envelope, s.eventEnvelopes signal.transContext.requestId = some envelope ∧
      ({ s with
        dispatched := s.dispatched + 1
        published := s.published ++ [(envelope, signal)] } : ClientApp).Inv host text servers hand := by
  obtain ⟨hlt, hget⟩ := List.getElem?_eq_some_iff.1 hnext
  obtain ⟨made, hmade, hperm, heach⟩ := h.events.made
  obtain ⟨call, hcall, hcontext⟩ := h.net.requests.trans.signal_call (List.mem_of_getElem? hnext)
  obtain ⟨p, hp, rfl⟩ := List.mem_map.1 (hmade ▸ hcall)
  -- the envelope was kept when the event made its request
  obtain ⟨-, -, henvelope⟩ := heach p hp
  refine ⟨p.1.envelope, hcontext ▸ henvelope, h.net, h.signalled, h.controller, h.calls, h.requestEvents,
    h.scheduleEvents, h.adding, h.added, h.events.counter, h.events.ids, ⟨made, hmade, hperm, heach⟩, hlt, ?_, ?_⟩
  · rw [List.map_append, h.events.published, List.map_singleton, List.take_add_one, hnext]
    rfl
  · intro q hq
    rcases List.mem_append.1 hq with hold | hlast
    · exact h.events.envelopes q hold
    · rw [List.mem_singleton.1 hlast]
      exact hcontext ▸ henvelope

/-- **A response** is for a task of the table: its file is to be cut into blocks, or its data waits
for the controller. -/
theorem Inv.dispatch (h : s.Inv host text servers hand) (hnamed : ∀ endpoint, (servers endpoint).Named) :
    s.dispatch.Inv host text servers hand := by
  unfold ClientApp.dispatch
  split
  · exact h
  · rename_i signal hnext
    obtain ⟨envelope, henvelope, hpublished⟩ := h.publishNext hnext
    obtain ⟨call, hcall, _, rfl, hsignal⟩ :=
      h.net.signal (fun endpoint files heq => heq ▸ hnamed endpoint) (List.mem_of_getElem? hnext)
    -- the signal is the answer to a call that some event made
    have hmakes := h.calls call hcall
    dsimp only
    rw [henvelope]
    cases signal with
    | testResponseReceived context response => exact hpublished
    | downloadResponseReceived context response =>
      obtain ⟨r, hrequest, rfl⟩ := request_of_download hsignal
      rw [hrequest] at hmakes
      obtain ⟨d, hd, rfl, hendpoint⟩ := hmakes
      have hoffered : d.offered servers =
          arrivingDownload ((servers call.context.endpoint).downloadAnswer ⟨d.fileId, d.taskId⟩) := by
        unfold Download.offered
        rw [hendpoint]
      dsimp only [onDownloadResponse]
      split
      · exact hpublished
      · -- no block is cut yet
        rename_i hfound
        refine hpublished.withAdding fun call' hadding => ?_
        obtain rfl := Option.some.inj hadding
        refine ⟨⟨d, hd, (arrivingDownload_taskId hfound).symm, ?_, ?_⟩, le_rfl, fun _ => rfl,
          fun p hlow hhigh => ?_⟩
        · rw [hoffered]
        · rw [hoffered]
        · exact absurd (lt_of_le_of_lt hlow hhigh) (lt_irrefl _)
    | blockResponseReceived context response =>
      -- the data is what the server has for the block, and waits as it is
      obtain ⟨transfer, hrequest, hfetched⟩ := request_of_block hsignal
      rw [hrequest] at hmakes
      refine hpublished.withScheduleEvents fun event hevent => ?_
      rcases List.mem_append.1 hevent with hold | hlast
      · exact h.scheduleEvents event hold
      · rw [List.mem_singleton.1 hlast]
        exact ⟨_, transfer, hmakes, hfetched⟩

/-! ## The controller's thread -/

/-- What a slot emits is published, and a request for a block waits for the main thread. -/
theorem Inv.emit (h : s.Inv host text servers []) {signal : ScheduleSignal} (hfew : s.asked.length < 2 ^ 64 - 1)
    (hsignal : ∀ eventSource endpoint transfer, signal = .blockRequest eventSource endpoint transfer →
      s.controller.Wanted endpoint transfer) : (s.emit signal).Inv host text servers [] := by
  cases signal with
  | blockRequest eventSource endpoint transfer =>
    have hpublished := h.publish eventSource endpoint (.block transfer) hfew
    obtain ⟨made, hmade, hperm, heach⟩ := hpublished.events.made
    refine ⟨hpublished.net, hpublished.signalled, hpublished.controller, hpublished.calls, fun event hevent => ?_,
      hpublished.scheduleEvents, hpublished.adding, hpublished.added, hpublished.events.counter,
      hpublished.events.ids, ⟨made, hmade, ?_, heach⟩, hpublished.events.dispatched,
      hpublished.events.published, hpublished.events.envelopes⟩
    · rcases List.mem_append.1 hevent with hold | hlast
      · exact h.requestEvents event hold
      · rw [List.mem_singleton.1 hlast]
        exact ⟨transfer, rfl, hsignal eventSource endpoint transfer rfl⟩
    · exact (List.Perm.append_left _ (List.perm_append_singleton _ _)).trans hperm
  | taskCompleted taskId =>
    exact ⟨h.net, h.signalled, h.controller, h.calls, h.requestEvents, h.scheduleEvents, h.adding, h.added,
      h.events.counter, h.events.ids, h.events.made, h.events.dispatched, h.events.published, h.events.envelopes⟩

/-- Tasks are announced, and nothing else is. -/
theorem Inv.announce (h : s.Inv host text servers []) {signals : List ScheduleSignal}
    (hsignals : signals = [] ∨ ∃ taskId, signals = [.taskCompleted taskId]) :
    (signals.foldl ClientApp.emit s).Inv host text servers [] := by
  obtain rfl | ⟨taskId, rfl⟩ := hsignals
  · exact h
  · exact ⟨h.net, h.signalled, h.controller, h.calls, h.requestEvents, h.scheduleEvents, h.adding, h.added,
      h.events.counter, h.events.ids, h.events.made, h.events.dispatched, h.events.published, h.events.envelopes⟩

/-- The timer of the controller goes off. -/
theorem Inv.timer (h : s.Inv host text servers []) (hfew : s.asked.length < 2 ^ 64 - 1) :
    (s.call .onBlockRequest).Inv host text servers [] := by
  obtain ⟨hblocks, htasks, -, -⟩ := s.controller.onBlockRequest_rest
  have hdownloads : s.controller.onBlockRequest.1.downloads = s.controller.downloads := by
    rw [BlockScheduleController.downloads, htasks, BlockScheduleController.downloads]
  have htransfers : s.controller.onBlockRequest.1.transfers = s.controller.transfers := by
    rw [BlockScheduleController.transfers, hblocks, BlockScheduleController.transfers]
  have hkept := h.withController h.controller.onBlockRequest (hdownloads ▸ List.Subset.refl _)
    (htransfers ▸ List.Subset.refl _)
  -- what the tick requests is a block of a task that is scheduled
  have hrequested : ∀ signal ∈ s.controller.onBlockRequest.2, ∀ eventSource endpoint transfer,
      signal = .blockRequest eventSource endpoint transfer →
        s.controller.onBlockRequest.1.Wanted endpoint transfer := by
    rintro _ hsignal eventSource endpoint transfer rfl
    obtain ⟨_, _, _, heq, hwanted⟩ := h.controller.requested hsignal
    obtain ⟨-, rfl, rfl⟩ := ScheduleSignal.blockRequest.inj heq
    exact hwanted.mono (hdownloads ▸ List.Subset.refl _) (htransfers ▸ List.Subset.refl _)
  unfold ClientApp.call
  simp only [BlockScheduleController.step]
  obtain hnone | ⟨eventSource, endpoint, transfer, hone⟩ := s.controller.onBlockRequest_signals
  · rw [hnone]
    exact hkept
  · rw [hone] at hrequested ⊢
    exact hkept.emit hfew (hrequested _ List.mem_cons_self)

/-- **The controller takes what waits**: a task of the table, or an answer for a block of it. -/
theorem Inv.schedule (h : s.Inv host text servers []) (outcome : FileOutcome) :
    (s.schedule outcome).Inv host text servers [] := by
  unfold ClientApp.schedule
  split
  · exact h
  · rename_i event events hevents
    have hdue := h.scheduleEvents event (hevents ▸ List.mem_cons_self)
    have htaken : ({ s with scheduleEvents := events } : ClientApp).Inv host text servers [] :=
      h.withScheduleEvents fun event' hevent' =>
        h.scheduleEvents event' (hevents ▸ List.mem_cons_of_mem _ hevent')
    cases event with
    | taskEnqueue eventSource endpoint task =>
      have hfaithful := h.controller.onTaskEnqueue eventSource hdue.1 hdue.2
      exact htaken.withController hfaithful (List.Subset.refl _) (List.Subset.refl _)
    | blockResponse response =>
      obtain ⟨hfaithful, hdownloads, htransfers⟩ := h.controller.onBlockResponse hdue outcome
      have hkept := htaken.withController hfaithful (hdownloads ▸ List.Subset.refl _)
        (htransfers ▸ List.Subset.refl _)
      exact hkept.announce (s.controller.onBlockResponse_signals outcome response)

end ClientApp

end ProjectTrans
