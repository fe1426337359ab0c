import ProjectTrans.Lib.Run
import ProjectTrans.Lib.Table
import ProjectTrans.Model.Client.TransService
import ProjectTrans.Model.Protocol.ServerMessageCodec

/-!
# Requests and their responses, one to one

Every request that drew an id is in exactly one place: not registered yet, pending, in
the hands of `on_received_frame_ready`, answered, or timed out. That is one permutation
(`Inv.conserved`), which each step carries along; ids are distinct, so a callback runs at
most once, and only for its own response.
-/

namespace ProjectTrans.TransService

open Wire

variable (host : Endian) (text : SerializeField → Bytes)

/-- The frame is a response with this id: the parser makes the response of it, and if it
has a field for the id, that is the id. -/
structure Answer.Carries (a : Answer) (requestId : UInt64) : Prop where
  parsed : ∃ fresh, (ClientMessageCodec.tryParseByteArrayResponse host fresh a.frame).run = .ok (some a.response)
  requestId_eq : a.response.requestId = requestId
  field : ∀ serializer field, (SerializeCodec.new .default).deserialize host a.frame = .ok serializer →
    serializer.getParsedField (ascii "request_id") = some field →
    SerializeCodec.toValue UInt64 host field = some requestId

/-- How requests and responses belong together in a state. -/
structure System.Correlated (s : System) : Prop where
  ids_nodup : (s.calls.map fun call => call.context.requestId).Nodup
  /-- A callback runs at most once. -/
  once : ∀ call ∈ s.calls, s.answered.countP (fun a => a.callback.context.requestId = call.context.requestId) ≤ 1
  /-- It runs for a response to its own request. -/
  own : ∀ a ∈ s.answered, a.frame ∈ s.received ∧ a.Carries host a.callback.context.requestId ∧
    ∃ call ∈ s.calls, call ∉ s.registering ∧ a.callback = call.callback
  /-- A signal is what the parser of the request's own kind made of the body. -/
  signal : ∀ signal ∈ s.signals, ∃ a ∈ s.answered,
    (a.callback.run host text a.response.body).run = .ok (some signal) ∧ signal.kind = a.callback.kind ∧
      signal.transContext = a.callback.context
  /-- It does not run once its timeout has removed it. -/
  not_late : ∀ callback ∈ s.timedOut, ∀ a ∈ s.answering ++ s.answered,
    a.callback.context.requestId ≠ callback.context.requestId
  /-- Until then it is pending. -/
  pending : ∀ call ∈ s.calls, call ∉ s.registering →
    (∀ a ∈ s.answering ++ s.answered, a.callback ≠ call.callback) →
    call.callback ∉ s.timedOut →
    s.service.transCorrelations.lookup call.context.requestId = some ⟨call.context, call.callback⟩
  /-- The ids of the table are distinct, and each is that of its request. -/
  keys_nodup : s.service.transCorrelations.keys.Nodup
  keys_own : ∀ entry ∈ s.service.transCorrelations.entries,
    ∃ call ∈ s.calls, entry.1 = call.context.requestId ∧ entry.2 = ⟨call.context, call.callback⟩

/-- The callbacks of the table. -/
def pendingCallbacks (table : AList fun _ : UInt64 => TransCorrelation) : List Callback :=
  table.entries.map fun entry => entry.2.callback

/-- Where a request can be: not registered, pending, answered or about to be, or timed out. -/
def System.placed (s : System) : Multiset Callback :=
  ↑(s.registering.map SendCall.callback) + (↑(pendingCallbacks s.service.transCorrelations) +
    (↑((s.answering ++ s.answered).map Answer.callback) + ↑s.timedOut))

/-- What every step preserves. -/
structure System.Inv (s : System) : Prop where
  counter : s.service.requestIdCounter.toNat = s.calls.length
  ids : s.calls.map (fun call => call.context.requestId) = (List.range s.calls.length).map UInt64.ofNat
  /-- Every request is in exactly one place. -/
  conserved : (↑(s.calls.map SendCall.callback) : Multiset Callback) = s.placed
  registering : ∀ call ∈ s.registering, call ∈ s.calls
  keyed : ∀ entry ∈ s.service.transCorrelations.entries,
    entry.2.context.requestId = entry.1 ∧ entry.2.callback.context = entry.2.context
  own : ∀ a ∈ s.answering ++ s.answered, a.frame ∈ s.received ∧ a.Carries host a.callback.context.requestId
  signal : ∀ signal ∈ s.signals, ∃ a ∈ s.answered,
    (a.callback.run host text a.response.body).run = .ok (some signal)

theorem System.Inv.init : (init : System).Inv host text where
  counter := rfl
  ids := rfl
  conserved := rfl
  registering := fun _ h => absurd h List.not_mem_nil
  keyed := fun _ h => absurd h List.not_mem_nil
  own := fun _ h => absurd h List.not_mem_nil
  signal := fun _ h => absurd h List.not_mem_nil

/-- Whether a step makes a request. -/
def Action.isSend : Action → Bool
  | send _ _ => true
  | _ => false

/-! ## The table -/

/-- The entry of a key, and the rest of the table. -/
theorem pendingCallbacks_erase {table : AList fun _ : UInt64 => TransCorrelation} {requestId : UInt64}
    {correlation : TransCorrelation} (h : table.lookup requestId = some correlation) :
    (pendingCallbacks table).Perm (correlation.callback :: pendingCallbacks (table.erase requestId)) := by
  have hmem : requestId ∈ table.entries.keys := AList.mem_keys.1 (Table.mem_of_lookup h)
  obtain ⟨correlation', before, after, -, hentries, herase⟩ := List.exists_of_kerase hmem
  have hentry : (⟨requestId, correlation'⟩ : Sigma fun _ : UInt64 => TransCorrelation) ∈ table.entries := by
    rw [hentries]
    exact List.mem_append_right _ List.mem_cons_self
  obtain rfl : correlation' = correlation :=
    Option.some.inj ((AList.mem_lookup_iff.2 hentry).symm.trans h)
  have herased : pendingCallbacks (table.erase requestId) = (before ++ after).map fun entry => entry.2.callback :=
    congrArg _ herase
  rw [herased, pendingCallbacks, hentries, List.map_append, List.map_append, List.map_cons]
  exact List.perm_middle

theorem pendingCallbacks_insert {table : AList fun _ : UInt64 => TransCorrelation} {requestId : UInt64}
    {correlation : TransCorrelation} (h : requestId ∉ table) :
    pendingCallbacks (table.insert requestId correlation) = correlation.callback :: pendingCallbacks table := by
  rw [pendingCallbacks, AList.entries_insert_of_notMem h, List.map_cons]
  rfl

/-- Taking an element out of a list takes one value out. -/
theorem coe_map_erase {α β : Type*} [DecidableEq α] (f : α → β) {l : List α} {a : α} (h : a ∈ l) :
    (↑(l.map f) : Multiset β) = {f a} + ↑((l.erase a).map f) :=
  Multiset.coe_eq_coe.2 ((List.perm_cons_erase h).map f)

/-! ## Ids -/

variable {host text} {s : System}

theorem System.Inv.ids_nodup (h : s.Inv host text) : (s.calls.map fun call => call.context.requestId).Nodup := by
  have hfew : s.calls.length < 2 ^ 64 := h.counter ▸ s.service.requestIdCounter.toNat_lt
  rw [h.ids]
  refine List.Nodup.map_on (fun i hi j hj hij => ?_) List.nodup_range
  have hi := List.mem_range.1 hi
  have hj := List.mem_range.1 hj
  have hnat := congrArg UInt64.toNat hij
  rwa [UInt64.toNat_ofNat_of_lt' (hi.trans hfew), UInt64.toNat_ofNat_of_lt' (hj.trans hfew)] at hnat

/-- No id is in two places. -/
theorem System.Inv.placed_nodup (h : s.Inv host text) :
    (s.placed.map fun callback => callback.context.requestId).Nodup := by
  rw [← h.conserved, Multiset.map_coe, List.map_map]
  exact h.ids_nodup

/-- A request that is not registered has nothing in the table. -/
theorem System.Inv.notMem_table (h : s.Inv host text) {call : SendCall} (hcall : call ∈ s.registering) :
    call.context.requestId ∉ s.service.transCorrelations := by
  intro hmem
  obtain ⟨correlation, hlookup⟩ := Option.isSome_iff_exists.1 (AList.lookup_isSome.2 hmem)
  have hentry := AList.mem_lookup_iff.1 hlookup
  have hkeyed := h.keyed _ hentry
  have hnodup := h.placed_nodup
  rw [System.placed, Multiset.map_add, Multiset.nodup_add] at hnodup
  have hplaced : call.context.requestId ∈ Multiset.map (fun callback : Callback => callback.context.requestId)
      ↑(s.registering.map SendCall.callback) :=
    Multiset.mem_map.2 ⟨call.callback, List.mem_map_of_mem hcall, rfl⟩
  refine Multiset.disjoint_left.1 hnodup.2.2 hplaced (Multiset.mem_map.2 ⟨correlation.callback, ?_, ?_⟩)
  · refine Multiset.mem_add.2 (.inl ?_)
    exact List.mem_map_of_mem (f := fun entry : Sigma fun _ : UInt64 => TransCorrelation =>
      entry.2.callback) hentry
  · rw [hkeyed.2, hkeyed.1]

/-! ## Steps -/

theorem System.Inv.send (h : s.Inv host text) (endpoint : NetworkEndpoint) (request : Request)
    (hfew : s.calls.length + 1 ≤ 2 ^ 64 - 1) : (step host text s (.send endpoint request)).Inv host text where
  counter := by
    have hcounter := h.counter
    simp only [step, drawId, List.length_append, List.length_singleton, UInt64.toNat_add, hcounter]
    rw [show (1 : UInt64).toNat = 1 from rfl]
    omega
  ids := by
    -- fewer than `2 ^ 64` ids have been given out, so this one is new
    have hid : s.service.requestIdCounter = UInt64.ofNat s.calls.length := by
      rw [← h.counter, UInt64.ofNat_toNat]
    simp only [step, drawId, List.map_append, List.map_cons, List.map_nil, List.length_append,
      List.length_singleton, List.range_succ, h.ids, hid]
  conserved := by
    simp only [step, drawId, System.placed, List.map_append, ← Multiset.coe_add, h.conserved]
    abel
  registering := by
    intro call hcall
    rcases List.mem_append.1 hcall with hold | hnew
    · exact List.mem_append_left _ (h.registering call hold)
    · exact List.mem_append_right _ hnew
  keyed := h.keyed
  own := h.own
  signal := h.signal

theorem System.Inv.register (h : s.Inv host text) (call : SendCall) :
    (step host text s (.register call)).Inv host text := by
  simp only [step]
  split
  · rename_i hcall
    have hnew := h.notMem_table hcall
    refine ⟨h.counter, h.ids, ?_, fun c hc => h.registering c (List.mem_of_mem_erase hc), ?_, h.own, h.signal⟩
    · simp only [h.conserved, System.placed, registerCall, pendingCallbacks_insert hnew,
        coe_map_erase SendCall.callback hcall, ← Multiset.cons_coe, ← Multiset.singleton_add]
      abel
    · intro entry hentry
      simp only [registerCall, AList.entries_insert_of_notMem hnew, List.mem_cons] at hentry
      rcases hentry with rfl | hold
      · exact ⟨rfl, rfl⟩
      · exact h.keyed entry hold
  · exact h

theorem System.Inv.emit (h : s.Inv host text) (call : SendCall) :
    (step host text s (.emit call)).Inv host text := by
  simp only [step]
  split
  · exact ⟨h.counter, h.ids, h.conserved, h.registering, h.keyed, h.own, h.signal⟩
  · exact h

theorem System.Inv.answer (h : s.Inv host text) (a : Answer) : (step host text s (.answer a)).Inv host text := by
  simp only [step]
  split
  · rename_i ha
    refine ⟨h.counter, h.ids, ?_, h.registering, h.keyed, fun b hb => h.own b ?_, ?_⟩
    · simp only [h.conserved, System.placed, List.map_append, List.map_cons, List.map_nil, ← Multiset.coe_add,
        coe_map_erase Answer.callback ha, Multiset.coe_singleton]
      abel
    · simp only [List.mem_append, List.mem_singleton] at hb ⊢
      rcases hb with hb | hb | rfl
      · exact .inl (List.mem_of_mem_erase hb)
      · exact .inr hb
      · exact .inl ha
    · intro signal hsignal
      rcases List.mem_append.1 hsignal with hold | hnew
      · obtain ⟨b, hb, hrun⟩ := h.signal signal hold
        exact ⟨b, List.mem_append_left _ hb, hrun⟩
      · refine ⟨a, List.mem_append_right _ (List.mem_singleton.2 rfl), ?_⟩
        split at hnew
        · rename_i hrun
          rw [hrun, List.mem_singleton.1 hnew]
        · -- the callback has parsed nothing, and emits nothing
          exact absurd hnew List.not_mem_nil
  · exact h

/-- What is left of the table is keyed as before. -/
theorem mem_of_mem_erase {table : AList fun _ : UInt64 => TransCorrelation} {requestId : UInt64}
    {entry : Sigma fun _ : UInt64 => TransCorrelation} (h : entry ∈ (table.erase requestId).entries) :
    entry ∈ table.entries :=
  (List.kerase_sublist requestId table.entries).subset h

theorem System.Inv.timeout (h : s.Inv host text) (requestId : UInt64) :
    (step host text s (.timeout requestId)).Inv host text := by
  simp only [step, onTimeout]
  split
  · split
    · refine ⟨h.counter, h.ids, ?_, h.registering, h.keyed, h.own, h.signal⟩
      simp only [h.conserved, System.placed, Option.map_none, Option.toList_none, List.append_nil]
    · rename_i correlation hlookup
      refine ⟨h.counter, h.ids, ?_, h.registering, fun entry he => h.keyed entry (mem_of_mem_erase he), h.own,
        h.signal⟩
      have herase := Multiset.coe_eq_coe.2 (pendingCallbacks_erase hlookup)
      simp only [h.conserved, System.placed, Option.map_some, Option.toList_some, herase, ← Multiset.coe_add,
        ← Multiset.cons_coe, ← Multiset.singleton_add, Multiset.coe_nil]
      abel
  · exact h

/-- A parse that gives a value has parsed its first part. -/
theorem Parse.of_bind_run {α β : Type} {x : Parse α} {f : α → Parse β} {b : β}
    (h : (x >>= f).run = .ok (some b)) : ∃ a, x.run = .ok (some a) ∧ (f a).run = .ok (some b) := by
  rw [OptionT.run_bind] at h
  obtain ⟨parsed, hparsed, h⟩ := Checked.bind_eq_ok.1 h
  cases parsed with
  | none => exact absurd h (by simp)
  | some a => exact ⟨a, hparsed, h⟩

/-- What the parser of responses does with the id: it comes from its field, if there is one. -/
theorem parse_requestId {fresh response : EnvelopeResponseTransfer} {data : Bytes}
    (h : (ClientMessageCodec.tryParseByteArrayResponse host fresh data).run = .ok (some response))
    {serializer : SerializeCodec} {field : SerializeField}
    (hserializer : (SerializeCodec.new .default).deserialize host data = .ok serializer)
    (hfield : serializer.getParsedField (ascii "request_id") = some field) :
    SerializeCodec.toValue UInt64 host field = some response.requestId := by
  unfold ClientMessageCodec.tryParseByteArrayResponse at h
  rw [hserializer, Parse.lift_ok_bind] at h
  obtain ⟨version, -, h⟩ := Parse.of_bind_run h
  obtain ⟨requestId, hrequestId, h⟩ := Parse.of_bind_run h
  obtain ⟨status, -, h⟩ := Parse.of_bind_run h
  obtain ⟨contentType, -, h⟩ := Parse.of_bind_run h
  obtain ⟨body, -, h⟩ := Parse.of_bind_run h
  rw [Parse.run_pure, Except.ok.injEq, Option.some.injEq] at h
  rw [hfield, Parse.optional, Parse.run_ofOption, Except.ok.injEq] at hrequestId
  rw [hrequestId, ← h]

theorem System.Inv.receive (h : s.Inv host text) (fresh : EnvelopeResponseTransfer) (data : Bytes) :
    (step host text s (.receive fresh data)).Inv host text := by
  have hreceived : ∀ a ∈ s.answering ++ s.answered,
      a.frame ∈ s.received ++ [data] ∧ a.Carries host a.callback.context.requestId := by
    intro a ha
    exact ⟨List.mem_append_left _ (h.own a ha).1, (h.own a ha).2⟩
  simp only [step, takeHandler]
  split
  · rename_i response hparsed
    split
    · rename_i service callback htake
      split at htake
      · exact absurd (congrArg Prod.snd htake) (by simp)
      · rename_i correlation hlookup
        obtain ⟨rfl, hcallback⟩ := Prod.mk.inj htake
        obtain rfl := Option.some.inj hcallback
        have hkeyed := h.keyed _ (AList.mem_lookup_iff.1 hlookup)
        -- the callback moves from the map to those being called
        refine ⟨h.counter, h.ids, ?_, h.registering, fun entry he => h.keyed entry (mem_of_mem_erase he), ?_,
          h.signal⟩
        · have herase := Multiset.coe_eq_coe.2 (pendingCallbacks_erase hlookup)
          simp only [h.conserved, System.placed, List.map_append, List.map_cons, List.map_nil, herase,
            ← Multiset.coe_add, ← Multiset.cons_coe, ← Multiset.singleton_add, Multiset.coe_nil]
          abel
        · intro a ha
          simp only [List.mem_append, List.mem_singleton, or_assoc] at ha
          rcases ha with ha | rfl | ha
          · exact hreceived a (List.mem_append_left _ ha)
          · -- its entry was found under the id of the response
            have hid : correlation.callback.context.requestId = response.requestId := by rw [hkeyed.2, hkeyed.1]
            refine ⟨List.mem_append_right _ (List.mem_singleton.2 rfl), ⟨fresh, hparsed⟩, hid.symm, ?_⟩
            intro serializer field hserializer hfield
            rw [hid]
            exact parse_requestId hparsed hserializer hfield
          · exact hreceived a (List.mem_append_right _ ha)
    · rename_i service htake
      split at htake
      · obtain ⟨rfl, -⟩ := Prod.mk.inj htake
        exact ⟨h.counter, h.ids, h.conserved, h.registering, h.keyed, hreceived, h.signal⟩
      · exact absurd (congrArg Prod.snd htake) (by simp)
  · exact ⟨h.counter, h.ids, h.conserved, h.registering, h.keyed, hreceived, h.signal⟩

/-- **One step** keeps every request in one place. -/
theorem System.Inv.step (h : s.Inv host text) {action : Action}
    (hfew : s.calls.length + (if action.isSend then 1 else 0) ≤ 2 ^ 64 - 1) :
    (step host text s action).Inv host text := by
  cases action with
  | send endpoint request => exact h.send endpoint request hfew
  | register call => exact h.register call
  | emit call => exact h.emit call
  | receive fresh data => exact h.receive fresh data
  | answer a => exact h.answer a
  | timeout requestId => exact h.timeout requestId

/-- Only `send` makes a request. -/
theorem step_calls (s : System) (action : Action) :
    (TransService.step host text s action).calls.length ≤ s.calls.length + if action.isSend then 1 else 0 := by
  cases action with
  | send endpoint request => exact (List.length_append ..).le
  | receive fresh data =>
    simp only [TransService.step]
    split
    · split <;> exact Nat.le_add_right _ _
    · exact Nat.le_add_right _ _
  | register call =>
    simp only [TransService.step]
    split <;> exact Nat.le_add_right _ _
  | emit call =>
    simp only [TransService.step]
    split <;> exact Nat.le_add_right _ _
  | answer a =>
    simp only [TransService.step]
    split <;> exact Nat.le_add_right _ _
  | timeout requestId =>
    simp only [TransService.step]
    split <;> exact Nat.le_add_right _ _

/-- A callback emits the signal of its own kind, with the context it captured. -/
theorem Callback.run_signal {callback : Callback} {data : Bytes} {signal : Signal}
    (h : (callback.run host text data).run = .ok (some signal)) :
    signal.kind = callback.kind ∧ signal.transContext = callback.context := by
  unfold Callback.run at h
  split at h
  all_goals
    rename_i hkind
    obtain ⟨response, -, h⟩ := Parse.of_bind_run h
    rw [Parse.run_pure, Except.ok.injEq, Option.some.injEq] at h
    rw [hkind, ← h]
    exact ⟨rfl, rfl⟩

/-- Requests are known by their ids. -/
theorem System.Inv.call_eq (h : s.Inv host text) {call call' : SendCall} (hcall : call ∈ s.calls)
    (hcall' : call' ∈ s.calls) (heq : call.context.requestId = call'.context.requestId) : call = call' :=
  List.inj_on_of_nodup_map h.ids_nodup hcall hcall' heq

theorem System.Inv.mem_calls (h : s.Inv host text) {callback : Callback} (hplaced : callback ∈ s.placed) :
    ∃ call ∈ s.calls, call.callback = callback := by
  rw [← h.conserved] at hplaced
  exact List.mem_map.1 hplaced

/-- The ids of what is not registered, of what was answered, and of what timed out. -/
theorem System.Inv.disjoint (h : s.Inv host text) :
    (∀ call ∈ s.registering, ∀ a ∈ s.answering ++ s.answered,
      call.context.requestId ≠ a.callback.context.requestId) ∧
    ((s.answering ++ s.answered).map fun a => a.callback.context.requestId).Nodup ∧
    ∀ a ∈ s.answering ++ s.answered, ∀ callback ∈ s.timedOut,
      a.callback.context.requestId ≠ callback.context.requestId := by
  have hnodup := h.placed_nodup
  rw [System.placed, Multiset.map_add, Multiset.nodup_add, Multiset.map_add, Multiset.nodup_add, Multiset.map_add,
    Multiset.nodup_add] at hnodup
  obtain ⟨-, ⟨-, ⟨hanswers, -, hlate⟩, -⟩, hregistering⟩ := hnodup
  refine ⟨?_, ?_, ?_⟩
  · intro call hcall a ha heq
    refine Multiset.disjoint_left.1 hregistering
      (Multiset.mem_map.2 ⟨call.callback, List.mem_map_of_mem hcall, heq⟩) (Multiset.mem_add.2 (.inr ?_))
    exact Multiset.mem_add.2 (.inl (Multiset.mem_map.2 ⟨a.callback, List.mem_map_of_mem ha, rfl⟩))
  · rw [Multiset.map_coe, List.map_map] at hanswers
    exact hanswers
  · intro a ha callback hcallback heq
    exact Multiset.disjoint_left.1 hlate (Multiset.mem_map.2 ⟨a.callback, List.mem_map_of_mem ha, heq⟩)
      (Multiset.mem_map.2 ⟨callback, hcallback, rfl⟩)

/-- **Requests and responses belong together** where every request is in one place. -/
theorem System.Inv.spec (h : s.Inv host text) : s.Correlated host text where
  ids_nodup := h.ids_nodup
  once := by
    intro call hcall
    -- ids of callbacks that were called are all different
    have hnodup := h.disjoint.2.1
    rw [List.map_append] at hnodup
    have hcount := List.nodup_iff_count_le_one.1 (List.Nodup.of_append_right hnodup) call.context.requestId
    rwa [List.count, List.countP_map] at hcount
  own := by
    intro a ha
    have ha := List.mem_append_right s.answering ha
    obtain ⟨hreceived, hcarries⟩ := h.own a ha
    have hplaced : a.callback ∈ s.placed := by
      refine Multiset.mem_add.2 (.inr (Multiset.mem_add.2 (.inr (Multiset.mem_add.2 (.inl ?_)))))
      exact List.mem_map_of_mem ha
    obtain ⟨call, hcall, hcallback⟩ := h.mem_calls hplaced
    refine ⟨hreceived, hcarries, call, hcall, fun hregistering => ?_, hcallback.symm⟩
    exact h.disjoint.1 call hregistering a ha (by rw [← hcallback]; rfl)
  signal := by
    intro signal hsignal
    obtain ⟨a, ha, hrun⟩ := h.signal signal hsignal
    exact ⟨a, ha, hrun, Callback.run_signal hrun⟩
  not_late := fun callback hcallback a ha => h.disjoint.2.2 a ha callback hcallback
  pending := by
    intro call hcall hregistered hanswer htimeout
    -- the request is somewhere, and it is nowhere else
    have hplaced : call.callback ∈ s.placed := by
      rw [← h.conserved]
      exact List.mem_map_of_mem hcall
    rcases Multiset.mem_add.1 hplaced with hreg | hplaced
    · obtain ⟨call', hcall', heq⟩ := List.mem_map.1 hreg
      have hid : call'.context = call.context := congrArg Callback.context heq
      rw [h.call_eq hcall (h.registering call' hcall') (by rw [hid])] at hregistered
      exact absurd hcall' hregistered
    rcases Multiset.mem_add.1 hplaced with hpending | hplaced
    · obtain ⟨entry, hentry, heq⟩ := List.mem_map.1 hpending
      obtain ⟨hkey, hcontext⟩ := h.keyed entry hentry
      have hcontext' : entry.2.context = call.context := by rw [← hcontext, heq]; rfl
      rw [← hcontext', hkey]
      refine AList.mem_lookup_iff.2 ?_
      rw [← heq]
      exact hentry
    rcases Multiset.mem_add.1 hplaced with hanswered | hlate
    · obtain ⟨a, ha, heq⟩ := List.mem_map.1 hanswered
      exact absurd heq (hanswer a ha)
    · exact absurd hlate htimeout
  keys_nodup := s.service.transCorrelations.keys_nodup
  keys_own := by
    intro entry hentry
    obtain ⟨hkey, hcontext⟩ := h.keyed entry hentry
    have hplaced : entry.2.callback ∈ s.placed := by
      refine Multiset.mem_add.2 (.inr (Multiset.mem_add.2 (.inl ?_)))
      exact List.mem_map_of_mem (f := fun entry : Sigma fun _ : UInt64 => TransCorrelation =>
        entry.2.callback) hentry
    obtain ⟨call, hcall, heq⟩ := h.mem_calls hplaced
    have hcontext' : call.context = entry.2.context := by rw [← hcontext, ← heq]; rfl
    refine ⟨call, hcall, by rw [hcontext', hkey], ?_⟩
    rw [heq, hcontext']

/-- **Requests and responses belong together after every run** of fewer than `2 ^ 64` requests. -/
theorem correlated {actions : List Action} (hfew : actions.countP Action.isSend < 2 ^ 64) :
    (actions.foldl (TransService.step host text) TransService.init).Correlated host text := by
  have hbudget : Run.Meets
      (fun (s : System) (action : Action) => s.calls.length + (if action.isSend then 1 else 0) ≤ 2 ^ 64 - 1)
      (TransService.step host text) TransService.init actions := by
    refine Run.Meets.of_countP step_calls ?_
    simp only [TransService.init, List.length_nil]
    omega
  exact (hbudget.invariant (System.Inv host text) (fun _ _ h hok => h.step hok) (.init host text)).spec

/-- What stood in memory before an envelope was read. -/
def freshResponse : EnvelopeResponseTransfer := ⟨0, 0, .unknown, .json, []⟩

/-- A response to a request, as the service takes it apart and finds the callback. -/
def answerOf (call : SendCall) (built : Checked Bytes) : Answer :=
  let response := built.toOption.getD []
  let parsed := (ClientMessageCodec.tryParseByteArrayResponse .little freshResponse response).run
  ⟨call.callback, response, parsed.toOption.join.getD freshResponse⟩

/-- Two requests: the response to the first comes twice, and is in time for its callback only
once; the second has none, and its timer goes off. -/
theorem correlated_duplicated :
    let first : SendCall := ⟨⟨0, ⟨[], 80⟩⟩, .block ⟨3, 1, 2, 1, 2⟩⟩
    let second : SendCall := ⟨⟨1, ⟨[], 80⟩⟩, .test {}⟩
    let response : BlockResponseTransfer := ⟨3, 1, 2, 1, 2, [0x42, 0x43]⟩
    let answer := answerOf first (ServerMessageCodec.buildBlockResponseByteArray .little response 0)
    let s := ([.send ⟨[], 80⟩ first.request, .send ⟨[], 80⟩ second.request, .register second, .register first,
      .emit first, .receive freshResponse answer.frame, .emit second, .receive freshResponse answer.frame,
      .answer answer, .answer answer, .timeout 0, .timeout 1] : List Action).foldl
        (TransService.step .little fun _ => []) TransService.init
    s.signals = [.blockResponseReceived first.context response] ∧ s.answered = [answer] ∧
      s.timedOut = [second.callback] ∧ s.Correlated .little fun _ => [] :=
  ⟨by decide +kernel, by decide +kernel, by decide +kernel, correlated (by decide)⟩

end ProjectTrans.TransService
