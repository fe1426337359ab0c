import ProjectTrans.Proof.Client.Intact

/-!
# Responses from end to end

Every response that `TransService` reports is published once and in order, under the envelope of
the event whose request it answers (`responses_published`).
-/

namespace ProjectTrans

open Wire

namespace ClientApp

variable {host : Endian} {text : SerializeField → Bytes} {servers : NetworkEndpoint → FileService}
  {serverFd eventFd : NetworkEndpoint → ℕ} {s : ClientApp} {hand : List RequestEvent}

/-! ## What the views get -/

theorem signal_context {files : FileService} {context : TransContext} {request : TransService.Request}
    {signal : TransService.Signal} (h : request.signal files context = some signal) :
    signal.transContext = context := by
  cases request with
  | test request =>
    obtain ⟨_, -, rfl⟩ := Option.map_eq_some_iff.1 h
    rfl
  | download request =>
    obtain rfl := Option.some.inj h
    rfl
  | block transfer =>
    obtain ⟨_, -, rfl⟩ := Option.map_eq_some_iff.1 h
    rfl

theorem Events.asked_nodup (h : s.Events hand) : (s.asked.map fun event => event.envelope.eventId).Nodup := by
  have hfew : s.asked.length < 2 ^ 64 := h.counter ▸ s.eventIdCounter.toNat_lt
  rw [h.ids]
  refine List.Nodup.map_on (fun i hi j hj hij => ?_) List.nodup_range
  have hi := List.mem_range.1 hi
  have hj := List.mem_range.1 hj
  have hnat := congrArg UInt64.toNat hij
  rwa [UInt64.toNat_ofNat_of_lt' (hi.trans hfew), UInt64.toNat_ofNat_of_lt' (hj.trans hfew)] at hnat

/-- A response that is published has its event. -/
theorem Inv.event (h : s.Inv host text servers []) (hnamed : ∀ endpoint, (servers endpoint).Named)
    {p : EventEnvelope × TransService.Signal} (hp : p ∈ s.published) :
    ∃ event ∈ s.asked, event.envelope = p.1 ∧
      event.request.signal (servers event.endpoint) p.2.transContext = some p.2 := by
  have hsignal : p.2 ∈ s.net.trans.signals := List.mem_of_mem_take (h.events.published ▸ List.mem_map_of_mem hp)
  obtain ⟨call, hcall, _, rfl, hanswer⟩ := h.net.signal (fun endpoint files heq => heq ▸ hnamed endpoint) hsignal
  obtain ⟨made, hmade, hperm, heach⟩ := h.events.made
  obtain ⟨q, hq, rfl⟩ := List.mem_map.1 (hmade ▸ hcall)
  obtain ⟨hendpoint, hrequest, henvelope⟩ := heach q hq
  have hcontext := signal_context hanswer
  refine ⟨q.1, hperm.subset (List.mem_append_left _ (List.mem_map_of_mem hq)), ?_, ?_⟩
  · have hkept := h.events.envelopes p hp
    rw [hcontext, henvelope] at hkept
    exact Option.some.inj hkept
  · rw [hendpoint, hrequest, hcontext]
    exact hanswer

/-- No event is answered twice. -/
theorem Inv.published_nodup (h : s.Inv host text servers []) : (s.published.map fun p => p.1.eventId).Nodup := by
  have hids : (s.published.map fun p => p.2.transContext.requestId).Nodup := by
    have hall := h.net.requests.trans.signals_nodup h.signalled
    have htake := hall.sublist ((List.take_sublist s.dispatched _).map _)
    rw [← h.events.published, List.map_map] at htake
    exact htake
  obtain ⟨made, hmade, hperm, heach⟩ := h.events.made
  have hmadeNodup : (made.map Prod.fst).Nodup := by
    have hnodup := hperm.symm.nodup h.events.asked_nodup.of_map
    exact List.Nodup.of_append_left hnodup
  -- the request that a response answers, and its event
  have hpair : ∀ p ∈ s.published, ∃ q ∈ made, q.2.context.requestId = p.2.transContext.requestId ∧
      q.1.envelope = p.1 ∧ q.1 ∈ s.asked := by
    intro p hp
    have hsignal : p.2 ∈ s.net.trans.signals := List.mem_of_mem_take (h.events.published ▸ List.mem_map_of_mem hp)
    obtain ⟨call, hcall, hcontext⟩ := h.net.requests.trans.signal_call hsignal
    obtain ⟨q, hq, rfl⟩ := List.mem_map.1 (hmade ▸ hcall)
    have hkept := h.events.envelopes p hp
    rw [hcontext, (heach q hq).2.2] at hkept
    exact ⟨q, hq, congrArg TransContext.requestId hcontext.symm, Option.some.inj hkept,
      hperm.subset (List.mem_append_left _ (List.mem_map_of_mem hq))⟩
  refine List.Nodup.map_on (fun p hp p' hp' heq => ?_) hids.of_map
  obtain ⟨q, hq, hid, henvelope, hasked⟩ := hpair p hp
  obtain ⟨q', hq', hid', henvelope', hasked'⟩ := hpair p' hp'
  rw [← henvelope, ← henvelope'] at heq
  have hevent := List.inj_on_of_nodup_map h.events.asked_nodup hasked hasked' heq
  obtain rfl := List.inj_on_of_nodup_map hmadeNodup hq hq' hevent
  exact List.inj_on_of_nodup_map hids hp hp' (hid.symm.trans hid')

/-! ## Results -/

variable {actions : List ClientAction}

/-- **Responses are published once**, all of them and in order, each under the envelope of its own event. -/
theorem responses_published (hnamed : ∀ endpoint, (servers endpoint).Named)
    (hproper : Run.Meets (fun s action => s.proper action = true) (step serverFd eventFd host text) init actions)
    (hserves : ∀ action ∈ actions, action.serves servers) :
    let s := actions.foldl (step serverFd eventFd host text) init
    s.published.map Prod.snd = s.net.trans.signals.take s.dispatched ∧
      (s.asked.map fun event => event.envelope.eventId).Nodup ∧ (s.published.map fun p => p.1.eventId).Nodup ∧
      ∀ p ∈ s.published, ∃ event ∈ s.asked, event.envelope = p.1 ∧
        event.request.signal (servers event.endpoint) p.2.transContext = some p.2 := by
  intro s
  have h : s.Inv host text servers [] := inv_run hnamed hproper hserves
  exact ⟨h.events.published, h.events.asked_nodup, h.published_nodup, fun _ hp => h.event hnamed hp⟩

theorem responses_published_two :
    let s := fileLoaded.foldl (step (fun _ => 3) (fun _ => 4) .little fun _ => []) init
    (s.published.map fun p => p.1.eventId) = [0, 1] ∧
      s.published.map Prod.snd = s.net.trans.signals.take s.dispatched ∧
      (s.asked.map fun event => event.envelope.eventId).Nodup ∧ (s.published.map fun p => p.1.eventId).Nodup ∧
      ∀ p ∈ s.published, ∃ event ∈ s.asked, event.envelope = p.1 ∧
        event.request.signal threeByteFile p.2.transContext = some p.2 :=
  ⟨fileLoaded_end.2.2.2,
    responses_published (fun _ => Deployment.threeByteFile_named) fileLoaded_proper fileLoaded_serves⟩

end ClientApp

end ProjectTrans
