import ProjectTrans.Proof.Client.AppSlots

/-!
# Runs of the client

A file is cut into blocks one after another (`Inv.addBlock`). With that, every step keeps
`ClientApp.Inv` (`Inv.step`), and so does every run (`inv_run`).
-/

namespace ProjectTrans

open Wire

namespace ClientApp

variable {host : Endian} {text : SerializeField → Bytes} {servers : NetworkEndpoint → FileService}
  {serverFd eventFd : NetworkEndpoint → ℕ} {s : ClientApp} {hand : List RequestEvent}

/-! ## The blocks of a file -/

/-- A block joins the table. -/
theorem faithful_addBlock {c : BlockScheduleController} (h : c.Faithful servers) {block : BlockEntity}
    (hnew : BlockRepository.getByBlockId c.blocks block.blockId = none) (hstate : block.state ≠ .completed)
    (hin : BlockScheduleController.InOffer servers c.downloads (.ofBlock block)) :
    ({ c with blocks := c.blocks ++ [block] } : BlockScheduleController).Faithful servers := by
  have htransfers : ({ c with blocks := c.blocks ++ [block] } : BlockScheduleController).transfers =
      c.transfers ++ [.ofBlock block] := by
    rw [BlockScheduleController.transfers, List.map_append, List.map_singleton, BlockScheduleController.transfers]
  refine h.grow rfl rfl rfl (List.Subset.refl _) h.taskIds ?_ ?_ ?_ ?_
  · rw [htransfers]
    exact List.subset_append_left _ _
  · rw [htransfers, List.map_append, List.map_singleton]
    refine h.blockIds.append (List.nodup_singleton _) fun blockId hold hlast => ?_
    obtain ⟨transfer, htransfer, rfl⟩ := List.mem_map.1 hold
    obtain ⟨row, hrow, rfl⟩ := List.mem_map.1 htransfer
    -- the id was assigned because no row had it
    have hnone := List.find?_eq_none.1 hnew row hrow
    exact hnone (decide_eq_true (List.mem_singleton.1 hlast))
  · rw [htransfers]
    intro transfer htransfer
    rcases List.mem_append.1 htransfer with hold | hlast
    · exact .inl hold
    · rw [List.mem_singleton.1 hlast]
      exact .inr hin
  · intro row hrow hcompleted
    rcases List.mem_append.1 hrow with hold | hlast
    · exact hold
    · rw [List.mem_singleton.1 hlast] at hcompleted
      exact absurd hcompleted hstate

theorem subInt64_some {a b c : Int64} (h : subInt64 a b = some c) : c.toInt = a.toInt - b.toInt := by
  unfold subInt64 at h
  split at h
  · rename_i hfits
    rw [← Option.some.inj h, Int64.toInt_sub, Int.bmod_eq_of_le (by omega) (by omega)]
  · cases h

theorem addInt64_some {a b c : Int64} (h : addInt64 a b = some c) : c.toInt = a.toInt + b.toInt := by
  unfold addInt64 at h
  split at h
  · rename_i hfits
    rw [← Option.some.inj h, Int64.toInt_add, Int.bmod_eq_of_le (by omega) (by omega)]
  · cases h

theorem cut_toInt {rest : Int64} {left : ℤ} (hrest : rest.toInt = left) :
    (if rest ≥ ({} : BlockParam).blockBytes then ({} : BlockParam).blockBytes else rest).toInt =
      min 134217728 left := by
  have hbytes : ({} : BlockParam).blockBytes.toInt = 134217728 := by decide
  split
  · rename_i hfull
    rw [ge_iff_le, Int64.le_iff_toInt_le] at hfull
    omega
  · rename_i hless
    rw [ge_iff_le, Int64.le_iff_toInt_le] at hless
    omega

/-- **A turn of the loop** cuts off the next block. -/
theorem Inv.addBlock (h : s.Inv host text servers hand) {call : AddCall} (hcall : s.adding = some call)
    {assigned : Option Int64}
    (hfresh : ∀ blockId, assigned = some blockId →
      BlockRepository.getByBlockId s.controller.blocks blockId = none) :
    (s.addBlock call assigned).Inv host text servers hand := by
  have hadds := h.adding call hcall
  unfold ClientApp.addBlock
  split
  · rename_i hmore
    rw [Int64.lt_iff_toInt_lt] at hmore
    split
    · exact h
    · rename_i rest hrest
      dsimp only
      split
      · exact h
      · rename_i offset hoffset
        cases assigned with
        | none =>
          -- the insert fails, and with it the call
          have hended : ({ s with adding := none } : ClientApp).Inv host text servers hand :=
            h.withAdding fun _ heq => (by cases heq)
          exact hended
        | some blockId =>
          set size : Int64 := if rest ≥ ({} : BlockParam).blockBytes then ({} : BlockParam).blockBytes else rest
          have hsize : size.toInt = min 134217728 (call.file.fileSize.toInt - call.offset.toInt) :=
            cut_toInt (subInt64_some hrest)
          have hend := addInt64_some hoffset
          obtain ⟨d, hd, hid, hfile, hfileSize⟩ := hadds.offered
          set block : BlockEntity := ⟨blockId, call.taskId, call.file.fileId, call.offset, size, .waiting, 0, 0⟩
          have hin : BlockScheduleController.InOffer servers s.controller.downloads (.ofBlock block) := by
            refine ⟨hadds.offset, hadds.aligned hmore, ?_, d, hd, hid, hfile, ?_⟩
            · show 0 < size.toInt
              omega
            · rw [← hfileSize]
              exact hsize
          set c : BlockScheduleController := { s.controller with blocks := s.controller.blocks ++ [block] }
          have hfaithful : c.Faithful servers :=
            faithful_addBlock h.controller (hfresh blockId rfl) BlockState.noConfusion hin
          have hblocks : s.controller.transfers ⊆ c.transfers := List.map_subset _ (List.subset_append_left _ _)
          have hdownloads : s.controller.downloads ⊆ c.downloads := List.Subset.refl _
          have hkept := h.withController hfaithful hdownloads hblocks
          refine hkept.withAdding fun next heq => ?_
          obtain rfl := Option.some.inj heq
          have hmem : BlockRequestTransfer.ofBlock block ∈ c.transfers :=
            List.mem_map_of_mem (List.mem_append_right _ (List.mem_singleton.2 rfl))
          have hnext : c.Adds servers { call with offset := offset } :=
            hadds.next hmore hdownloads hblocks hmem rfl rfl hsize hend
          exact hnext
  · -- the loop is over: all of the file is cut
    rename_i hdone
    rw [Int64.lt_iff_toInt_lt] at hdone
    have hended : ({ s with added := s.added ++ [call] } : ClientApp).Inv host text servers hand := by
      refine ⟨h.net, h.signalled, h.controller, h.calls, h.requestEvents, h.scheduleEvents, h.adding,
        fun call' hcall' => ?_, h.events.counter, h.events.ids, h.events.made, h.events.dispatched,
        h.events.published, h.events.envelopes⟩
      rcases List.mem_append.1 hcall' with hold | hlast
      · exact h.added call' hold
      · rw [List.mem_singleton.1 hlast]
        exact ⟨hadds, by omega⟩
    exact hended.withAdding fun _ heq => (by cases heq)

/-! ## Runs -/

/-- The message of a test fits, event ids are left, and what goes on behind `TransService` is orderly. -/
def proper (s : ClientApp) : ClientAction → Bool
  | .newDownload _ => s.asked.length < 2 ^ 64 - 1
  | .sendTest _ _ message => message.length + 41 ≤ valueLimit && s.asked.length < 2 ^ 64 - 1
  | .timer => s.asked.length < 2 ^ 64 - 1
  | .net action => s.net.proper action
  | _ => true

end ClientApp

/-- Every server has the files it has. -/
def ClientAction.serves (servers : NetworkEndpoint → FileService) : ClientAction → Prop
  | .net action => action.serves fun endpoint files => files = servers endpoint
  | _ => True

namespace ClientApp

variable {host : Endian} {text : SerializeField → Bytes} {servers : NetworkEndpoint → FileService}
  {serverFd eventFd : NetworkEndpoint → ℕ} {s : ClientApp}

theorem Inv.onMainThread (h : s.Inv host text servers []) {next : ClientApp}
    (hnext : next.Inv host text servers []) : (s.onMainThread next).Inv host text servers [] := by
  unfold ClientApp.onMainThread
  split
  · exact hnext
  · exact h

/-- Only slots make requests. -/
theorem step_net (s : ClientApp) (serverFd eventFd : NetworkEndpoint → ℕ) (host : Endian)
    (text : SerializeField → Bytes)
    (action : DeploymentAction) : s.step serverFd eventFd host text (.net action) = s ∨ action.isSend = false ∧
      s.step serverFd eventFd host text
        (.net action) = { s with net := s.net.step serverFd eventFd host text action } := by
  cases action with
  | trans action =>
    cases action with
    | send endpoint request => exact .inl rfl
    | _ => exact .inr ⟨rfl, rfl⟩
  | _ => exact .inr ⟨rfl, rfl⟩

/-- **Every step keeps** what belongs together. -/
theorem Inv.step (h : s.Inv host text servers []) (hnamed : ∀ endpoint, (servers endpoint).Named)
    (action : ClientAction) (hproper : s.proper action = true) (hserves : action.serves servers) :
    (s.step serverFd eventFd host text action).Inv host text servers [] := by
  cases action with
  | newDownload download => exact h.onMainThread (h.onAddDownload download (of_decide_eq_true hproper))
  | sendTest objectName url message =>
    obtain ⟨hmessage, hfew⟩ := Bool.and_eq_true_iff.1 hproper
    exact h.onMainThread (h.onSendTest objectName url message (of_decide_eq_true hmessage)
      (of_decide_eq_true hfew))
  | startTask taskId => exact h.onMainThread (h.onStartTask taskId)
  | onBlockRequest =>
    simp only [ClientApp.step]
    split
    · exact h
    · exact h.onMainThread (h.onBlockRequest ‹_›)
  | dispatch => exact h.onMainThread (h.dispatch hnamed)
  | addBlock assigned =>
    simp only [ClientApp.step]
    split
    · exact h
    · rename_i call hcall
      split
      · exact h
      · rename_i hfree
        refine h.addBlock hcall fun blockId hassigned => ?_
        -- an assigned id is one that no row has
        rw [hassigned, Option.any_some, Bool.not_eq_true, Option.isSome_eq_false_iff,
          Option.isNone_iff_eq_none] at hfree
        exact hfree
  | schedule outcome => exact h.schedule outcome
  | timer => exact h.timer (of_decide_eq_true hproper)
  | net action =>
    -- the network goes by itself, and makes no request of its own
    have hnet : (s.net.step serverFd eventFd host text action).Inv host text
        fun endpoint files => files = servers endpoint :=
      h.net.step (fun endpoint files heq => heq ▸ hnamed endpoint) action hproper hserves
    obtain hnone | ⟨hsend, hsome⟩ := s.step_net serverFd eventFd host text action
    · rw [hnone]
      exact h
    · rw [hsome]
      exact h.withNet hnet (s.net.step_goesOn hsend)

theorem inv_run (hnamed : ∀ endpoint, (servers endpoint).Named) {actions : List ClientAction}
    (hproper : Run.Meets (fun s action => s.proper action = true) (step serverFd eventFd host text) init actions)
    (hserves : ∀ action ∈ actions, action.serves servers) :
    (actions.foldl (step serverFd eventFd host text) init).Inv host text servers [] :=
  (hproper.and_forall hserves).invariant (Inv host text servers [])
    (fun _ action h hok => h.step hnamed action hok.2 hok.1) .init

end ClientApp

end ProjectTrans
