import ProjectTrans.Proof.Client.Download
import ProjectTrans.Proof.Client.Signals

/-!
# What belongs together in the client

Tasks, blocks, requests and responses belong together, and so do events and their envelopes
(`ClientApp.Inv`). An event that is published, its request and what goes on behind
`TransService` keep that.
-/

namespace ProjectTrans

open Wire

/-! ## Requests, responses and blocks -/

namespace BlockScheduleController

variable (servers : NetworkEndpoint → FileService) (c : BlockScheduleController)

/-- A request is made for a task of the table. -/
def Makes (endpoint : NetworkEndpoint) : TransService.Request → Prop
  | .test _ => True
  | .download request => ∃ d ∈ c.downloads, request = ⟨d.fileId, d.taskId⟩ ∧ d.endpoint = some endpoint
  | .block transfer => c.Wanted endpoint transfer

/-- What waits for the controller is a task of the table or an answer for one. -/
def Due : ScheduleEvent → Prop
  | .taskEnqueue _ endpoint task => task.download ∈ c.downloads ∧ task.download.endpoint = some endpoint
  | .blockResponse response => c.Answered servers response

/-- The positions of a task's file up to some one are in its blocks. -/
def Reaches (taskId : Int64) (position : ℤ) : Prop :=
  ∀ p, 0 ≤ p → p < position → ∃ transfer ∈ c.transfers,
    transfer.taskId = taskId ∧ transfer.offset.toInt ≤ p ∧ p < transfer.offset.toInt + transfer.blockSize.toInt

/-- The file that a task is offered is being cut into blocks. -/
structure Adds (call : AddCall) : Prop where
  offered : ∃ d ∈ c.downloads, d.taskId = call.taskId ∧ call.file.fileId = (d.offered servers).fileId ∧
    call.file.fileSize = (d.offered servers).fileSize
  offset : 0 ≤ call.offset.toInt
  aligned : call.offset.toInt < call.file.fileSize.toInt → call.offset.toInt % 134217728 = 0
  reaches : c.Reaches call.taskId call.offset.toInt

variable {servers c} {c' : BlockScheduleController}

theorem Makes.mono {endpoint : NetworkEndpoint} {request : TransService.Request} (h : c.Makes endpoint request)
    (hdownloads : c.downloads ⊆ c'.downloads) (htransfers : c.transfers ⊆ c'.transfers) :
    c'.Makes endpoint request := by
  cases request with
  | test request => exact trivial
  | download request =>
    obtain ⟨d, hd, hrest⟩ := h
    exact ⟨d, hdownloads hd, hrest⟩
  | block transfer => exact Wanted.mono h hdownloads htransfers

theorem Due.mono {event : ScheduleEvent} (h : c.Due servers event) (hdownloads : c.downloads ⊆ c'.downloads)
    (htransfers : c.transfers ⊆ c'.transfers) : c'.Due servers event := by
  cases event with
  | taskEnqueue eventSource endpoint task => exact ⟨hdownloads h.1, h.2⟩
  | blockResponse response => exact Answered.mono h hdownloads htransfers

theorem Reaches.mono {taskId : Int64} {position : ℤ} (h : c.Reaches taskId position)
    (htransfers : c.transfers ⊆ c'.transfers) : c'.Reaches taskId position := by
  intro p hlow hhigh
  obtain ⟨transfer, htransfer, hrest⟩ := h p hlow hhigh
  exact ⟨transfer, htransfers htransfer, hrest⟩

theorem Adds.mono {call : AddCall} (h : c.Adds servers call) (hdownloads : c.downloads ⊆ c'.downloads)
    (htransfers : c.transfers ⊆ c'.transfers) : c'.Adds servers call := by
  obtain ⟨d, hd, hrest⟩ := h.offered
  exact ⟨⟨d, hdownloads hd, hrest⟩, h.offset, h.aligned, h.reaches.mono htransfers⟩

/-- A turn of the loop: with the next block, the blocks reach to its end. -/
theorem Adds.next {call : AddCall} (h : c.Adds servers call)
    (hmore : call.offset.toInt < call.file.fileSize.toInt)
    (hdownloads : c.downloads ⊆ c'.downloads) (htransfers : c.transfers ⊆ c'.transfers)
    {transfer : BlockRequestTransfer} (htransfer : transfer ∈ c'.transfers)
    (htask : transfer.taskId = call.taskId) (hstart : transfer.offset = call.offset)
    (hsize : transfer.blockSize.toInt = min 134217728 (call.file.fileSize.toInt - call.offset.toInt))
    {offset : Int64} (hend : offset.toInt = call.offset.toInt + transfer.blockSize.toInt) :
    c'.Adds servers { call with offset := offset } := by
  have hoffset := h.offset
  refine ⟨(h.mono hdownloads htransfers).offered, ?_, ?_, ?_⟩
  · show 0 ≤ offset.toInt
    omega
  · -- only a full block leaves something behind it
    intro hagain
    have haligned := h.aligned hmore
    dsimp only at hagain ⊢
    omega
  · intro p hlow hhigh
    dsimp only at hhigh
    rcases lt_or_ge p call.offset.toInt with hbefore | hbehind
    · exact (h.reaches.mono htransfers) p hlow hbefore
    · refine ⟨transfer, htransfer, htask, ?_, ?_⟩
      · rw [hstart]
        exact hbehind
      · rw [hstart]
        omega

end BlockScheduleController

namespace ClientApp

/-- Every event has a place: its request was made, is in hand or waits. -/
structure Events (hand : List RequestEvent) (s : ClientApp) : Prop where
  counter : s.eventIdCounter.toNat = s.asked.length
  ids : s.asked.map (fun event => event.envelope.eventId) = (List.range s.asked.length).map UInt64.ofNat
  /-- Requests were made of events, in the order of the requests. -/
  made : ∃ made : List (RequestEvent × TransService.SendCall), made.map Prod.snd = s.net.trans.calls ∧
    (made.map Prod.fst ++ (hand ++ s.requestEvents)).Perm s.asked ∧
    ∀ p ∈ made, p.1.endpoint = p.2.context.endpoint ∧ p.1.request = p.2.request ∧
      s.eventEnvelopes p.2.context.requestId = some p.1.envelope
  dispatched : s.dispatched ≤ s.net.trans.signals.length
  published : s.published.map Prod.snd = s.net.trans.signals.take s.dispatched
  envelopes : ∀ p ∈ s.published, s.eventEnvelopes p.2.transContext.requestId = some p.1

section Invariant

variable (host : Endian) (text : SerializeField → Bytes) (servers : NetworkEndpoint → FileService)

/-- What every step keeps, where some events may be in hand. -/
structure Inv (hand : List RequestEvent) (s : ClientApp) : Prop where
  net : s.net.Inv host text fun endpoint files => files = servers endpoint
  signalled : s.net.trans.Signalled
  controller : s.controller.Faithful servers
  calls : ∀ call ∈ s.net.trans.calls, s.controller.Makes call.context.endpoint call.request
  requestEvents : ∀ event ∈ s.requestEvents, ∃ transfer, event.request = .block transfer ∧
    s.controller.Wanted event.endpoint transfer
  scheduleEvents : ∀ event ∈ s.scheduleEvents, s.controller.Due servers event
  adding : ∀ call, s.adding = some call → s.controller.Adds servers call
  added : ∀ call ∈ s.added, s.controller.Adds servers call ∧ call.file.fileSize.toInt ≤ call.offset.toInt
  events : s.Events hand

end Invariant

variable {host : Endian} {text : SerializeField → Bytes} {servers : NetworkEndpoint → FileService}
  {serverFd eventFd : NetworkEndpoint → ℕ} {s : ClientApp} {hand : List RequestEvent}

theorem Inv.init : (init : ClientApp).Inv host text servers [] where
  net := .init host text _
  signalled := List.Sublist.refl []
  controller := ⟨List.nodup_nil, List.nodup_nil, fun _ h => absurd h List.not_mem_nil, fun _ _ h => (by cases h),
    fun _ h => absurd h List.not_mem_nil, fun _ h => absurd h List.not_mem_nil,
    fun _ h => absurd h List.not_mem_nil, fun _ h => absurd h List.not_mem_nil⟩
  calls := fun _ h => absurd h List.not_mem_nil
  requestEvents := fun _ h => absurd h List.not_mem_nil
  scheduleEvents := fun _ h => absurd h List.not_mem_nil
  adding := fun _ h => (by cases h)
  added := fun _ h => absurd h List.not_mem_nil
  events := ⟨rfl, rfl, ⟨[], rfl, List.Perm.refl [], fun _ h => absurd h List.not_mem_nil⟩, Nat.zero_le 0, rfl,
    fun _ h => absurd h List.not_mem_nil⟩

/-- The tables and the schedule of the controller go on. -/
theorem Inv.withController (h : s.Inv host text servers hand) {c : BlockScheduleController}
    (hc : c.Faithful servers)
    (hdownloads : s.controller.downloads ⊆ c.downloads) (htransfers : s.controller.transfers ⊆ c.transfers) :
    ({ s with controller := c } : ClientApp).Inv host text servers hand where
  net := h.net
  signalled := h.signalled
  controller := hc
  calls := fun call hcall => (h.calls call hcall).mono hdownloads htransfers
  requestEvents := by
    intro event hevent
    obtain ⟨transfer, hrequest, hwanted⟩ := h.requestEvents event hevent
    exact ⟨transfer, hrequest, hwanted.mono hdownloads htransfers⟩
  scheduleEvents := fun event hevent => (h.scheduleEvents event hevent).mono hdownloads htransfers
  adding := fun call hcall => (h.adding call hcall).mono hdownloads htransfers
  added := fun call hcall => ⟨(h.added call hcall).1.mono hdownloads htransfers, (h.added call hcall).2⟩
  events := ⟨h.events.counter, h.events.ids, h.events.made, h.events.dispatched, h.events.published,
    h.events.envelopes⟩

/-- Other things wait for the controller. -/
theorem Inv.withScheduleEvents (h : s.Inv host text servers hand) {events : List ScheduleEvent}
    (hdue : ∀ event ∈ events, s.controller.Due servers event) :
    ({ s with scheduleEvents := events } : ClientApp).Inv host text servers hand :=
  ⟨h.net, h.signalled, h.controller, h.calls, h.requestEvents, hdue, h.adding, h.added, h.events.counter,
    h.events.ids, h.events.made, h.events.dispatched, h.events.published, h.events.envelopes⟩

/-- A file is cut into blocks. -/
theorem Inv.withAdding (h : s.Inv host text servers hand) {adding : Option AddCall}
    (hadds : ∀ call, adding = some call → s.controller.Adds servers call) :
    ({ s with adding := adding } : ClientApp).Inv host text servers hand :=
  ⟨h.net, h.signalled, h.controller, h.calls, h.requestEvents, h.scheduleEvents, hadds, h.added, h.events.counter,
    h.events.ids, h.events.made, h.events.dispatched, h.events.published, h.events.envelopes⟩

/-! ## Events -/

/-- An event is published. -/
theorem Inv.publish (h : s.Inv host text servers []) (eventContext : EventContext) (endpoint : NetworkEndpoint)
    (request : TransService.Request) (hfew : s.asked.length < 2 ^ 64 - 1) :
    (s.publish eventContext endpoint request).1.Inv host text servers
      [(s.publish eventContext endpoint request).2] where
  net := h.net
  signalled := h.signalled
  controller := h.controller
  calls := h.calls
  requestEvents := h.requestEvents
  scheduleEvents := h.scheduleEvents
  adding := h.adding
  added := h.added
  events := by
    have hcounter := h.events.counter
    -- the counter has not wrapped, so the id is new
    have hid : s.eventIdCounter = UInt64.ofNat s.asked.length := by rw [← hcounter, UInt64.ofNat_toNat]
    obtain ⟨made, hcalls, hperm, hmade⟩ := h.events.made
    refine ⟨?_, ?_, ⟨made, hcalls, ?_, hmade⟩, h.events.dispatched, h.events.published, h.events.envelopes⟩
    · simp only [ClientApp.publish, List.length_append, List.length_singleton, UInt64.toNat_add, hcounter]
      rw [show (1 : UInt64).toNat = 1 from rfl]
      omega
    · simp only [ClientApp.publish, List.map_append, List.map_cons, List.map_nil, List.length_append,
        List.length_singleton, List.range_succ, h.events.ids, hid]
    · simp only [ClientApp.publish, List.nil_append, List.singleton_append] at hperm ⊢
      exact List.perm_middle.trans ((hperm.cons _).trans (List.perm_append_singleton _ _).symm)

/-- There are ids left for the requests of events in hand. -/
theorem Events.few {event : RequestEvent} (h : s.Events (event :: hand)) :
    s.net.trans.calls.length < 2 ^ 64 - 1 := by
  obtain ⟨made, hcalls, hperm, -⟩ := h.made
  have hlength := hperm.length_eq
  have hcounter := h.counter
  have hlt := s.eventIdCounter.toNat_lt
  rw [List.length_append, List.length_append, List.length_map, List.length_cons] at hlength
  rw [← hcalls, List.length_map]
  omega

/-- **The request of an event** is made, and its envelope kept. -/
theorem Inv.onRequest {event : RequestEvent} (h : s.Inv host text servers [event])
    (hmakes : s.controller.Makes event.endpoint event.request) (hfits : event.request.Fits) :
    (s.onRequest serverFd eventFd host text event).Inv host text servers [] := by
  have hproper : s.net.proper (.trans (.send event.endpoint event.request)) = true :=
    Bool.and_eq_true_iff.2 ⟨decide_eq_true hfits, decide_eq_true h.events.few⟩
  have hnet : (s.net.step serverFd eventFd host text (.trans (.send event.endpoint event.request))).Inv host text
      fun endpoint files => files = servers endpoint := h.net.trans _ hproper
  set call : TransService.SendCall :=
    ⟨⟨s.net.trans.service.requestIdCounter, event.endpoint⟩, event.request⟩ with hcall
  have hcalls : (s.onRequest serverFd eventFd host text event).net.trans.calls =
    s.net.trans.calls ++ [call] := rfl
  -- the id is new
  have hnew : ∀ old ∈ s.net.trans.calls, old.context.requestId ≠ call.context.requestId := by
    intro old hold heq
    have hnodup : ((s.net.trans.calls ++ [call]).map fun call => call.context.requestId).Nodup :=
      hnet.requests.trans.ids_nodup
    rw [List.map_append, List.map_singleton] at hnodup
    exact List.disjoint_of_nodup_append hnodup (List.mem_map_of_mem hold) (List.mem_singleton.2 heq)
  have hkept : ∀ old ∈ s.net.trans.calls,
      (s.onRequest serverFd eventFd host text event).eventEnvelopes old.context.requestId =
        s.eventEnvelopes old.context.requestId := fun old hold => Function.update_of_ne (hnew old hold) _ _
  obtain ⟨made, hmade, hperm, heach⟩ := h.events.made
  refine ⟨hnet, h.signalled, h.controller, ?_, h.requestEvents, h.scheduleEvents, h.adding, h.added,
    h.events.counter, h.events.ids, ⟨made ++ [(event, call)], ?_, ?_, ?_⟩, h.events.dispatched,
    h.events.published, ?_⟩
  · rw [hcalls]
    intro made hmem
    rcases List.mem_append.1 hmem with hold | hlast
    · exact h.calls made hold
    · rw [List.mem_singleton.1 hlast]
      exact hmakes
  · rw [List.map_append, hmade, hcalls]
    rfl
  · rw [List.map_append, List.append_assoc]
    exact hperm
  · intro p hp
    rcases List.mem_append.1 hp with hold | hlast
    · obtain ⟨hendpoint, hrequest, henvelope⟩ := heach p hold
      rw [hkept p.2 (hmade ▸ List.mem_map_of_mem hold)]
      exact ⟨hendpoint, hrequest, henvelope⟩
    · rw [List.mem_singleton.1 hlast]
      exact ⟨rfl, rfl, Function.update_self _ _ _⟩
  · intro p hp
    -- a signal that was published is that of an older request
    have hsignal : p.2 ∈ s.net.trans.signals :=
      List.mem_of_mem_take (h.events.published ▸ List.mem_map_of_mem hp)
    obtain ⟨old, hold, hcontext⟩ := h.net.requests.trans.signal_call hsignal
    rw [hcontext, hkept old hold, ← hcontext]
    exact h.events.envelopes p hp

/-- The requests for blocks of the table fit. -/
theorem Inv.wanted_fits (h : s.Inv host text servers hand) {endpoint : NetworkEndpoint}
    {transfer : BlockRequestTransfer}
    (hwanted : s.controller.Wanted endpoint transfer) : (TransService.Request.block transfer).Fits := by
  have hin := h.controller.blocks transfer hwanted.row
  have hpositive := hin.positive
  have hsmall := hin.small
  show 0 ≤ transfer.blockSize.toInt ∧ transfer.blockSize.toInt ≤ valueLimit
  unfold valueLimit
  omega

/-- The main thread takes a block request that waits. -/
theorem Inv.onBlockRequest (h : s.Inv host text servers []) {event : RequestEvent} {events : List RequestEvent}
    (hevents : s.requestEvents = event :: events) :
    ({ s with requestEvents := events }.onRequest serverFd eventFd host text event).Inv host text servers [] := by
  obtain ⟨transfer, hrequest, hwanted⟩ := h.requestEvents event (hevents ▸ List.mem_cons_self)
  have htaken : ({ s with requestEvents := events } : ClientApp).Inv host text servers [event] := by
    obtain ⟨made, hmade, hperm, heach⟩ := h.events.made
    rw [hevents] at hperm
    exact ⟨h.net, h.signalled, h.controller, h.calls,
      fun event' hevent' => h.requestEvents event' (hevents ▸ List.mem_cons_of_mem _ hevent'), h.scheduleEvents,
      h.adding, h.added, h.events.counter, h.events.ids, ⟨made, hmade, hperm, heach⟩, h.events.dispatched,
      h.events.published, h.events.envelopes⟩
  refine htaken.onRequest ?_ ?_
  · rw [hrequest]
    exact hwanted
  · rw [hrequest]
    exact h.wanted_fits hwanted

/-- What goes on behind `TransService`. -/
theorem Inv.withNet (h : s.Inv host text servers hand) {net : Deployment}
    (hnet : net.Inv host text fun endpoint files => files = servers endpoint)
    (hgoesOn : s.net.trans.GoesOn net.trans) :
    ({ s with net := net } : ClientApp).Inv host text servers hand := by
  obtain ⟨made, hmade, hperm, heach⟩ := h.events.made
  obtain ⟨rest, hrest⟩ := hgoesOn.signals
  refine ⟨hnet, hgoesOn.signalled h.signalled, h.controller, hgoesOn.calls ▸ h.calls, h.requestEvents,
    h.scheduleEvents, h.adding, h.added, h.events.counter, h.events.ids, ⟨made, hmade.trans hgoesOn.calls.symm,
      hperm, heach⟩, ?_, ?_,
    h.events.envelopes⟩
  · exact h.events.dispatched.trans hgoesOn.signals.length_le
  · show s.published.map Prod.snd = net.trans.signals.take s.dispatched
    rw [← hrest, List.take_append_of_le_length h.events.dispatched]
    exact h.events.published

end ClientApp

end ProjectTrans
