import ProjectTrans.Proof.Deployment

/-!
# Signals of `TransService`

Where no request is made, requests stay as they are and signals are only added (`step_goesOn`). A
signal has the context of its request (`signal_call`), and no request has two (`signals_nodup`).
-/

namespace ProjectTrans

open Wire

namespace TransService

/-- Signals were brought by answers, one by each at most. -/
def System.Signalled (s : System) : Prop :=
  (s.signals.map fun signal => signal.transContext.requestId).Sublist
    (s.answered.map fun a => a.callback.context.requestId)

/-- No request is made, and signals are only added. -/
structure System.GoesOn (s s' : System) : Prop where
  calls : s'.calls = s.calls
  counter : s'.service.requestIdCounter = s.service.requestIdCounter
  signals : s.signals <+: s'.signals
  signalled : s.Signalled → s'.Signalled

theorem System.GoesOn.refl (s : System) : s.GoesOn s := ⟨rfl, rfl, List.prefix_rfl, id⟩

variable (host : Endian) (text : SerializeField → Bytes)

theorem step_goesOn (s : System) (action : Action) (haction : action.isSend = false) :
    s.GoesOn (step host text s action) := by
  cases action with
  | send endpoint request => cases haction
  | register call =>
    simp only [step]
    split
    · exact ⟨rfl, rfl, List.prefix_rfl, id⟩
    · exact .refl s
  | emit call =>
    simp only [step]
    split
    · exact ⟨rfl, rfl, List.prefix_rfl, id⟩
    · exact .refl s
  | receive fresh data =>
    simp only [step, takeHandler]
    split
    · -- whether or not there is a callback, only the table changes
      split
      · rename_i htake
        split at htake
        · cases htake
        · obtain ⟨rfl, -⟩ := Prod.mk.inj htake
          exact ⟨rfl, rfl, List.prefix_rfl, id⟩
      · rename_i htake
        split at htake
        · obtain ⟨rfl, -⟩ := Prod.mk.inj htake
          exact ⟨rfl, rfl, List.prefix_rfl, id⟩
        · cases htake
    · exact ⟨rfl, rfl, List.prefix_rfl, id⟩
  | answer a =>
    simp only [step]
    split
    · -- a callback adds its signal at the end, or none
      refine ⟨rfl, rfl, List.prefix_append _ _, fun h => ?_⟩
      simp only [System.Signalled, List.map_append]
      refine h.append ?_
      split
      · rename_i signal hrun
        rw [List.map_singleton, List.map_singleton, (Callback.run_signal hrun).2]
      · exact List.nil_sublist _
    · exact .refl s
  | timeout requestId =>
    simp only [step, onTimeout]
    split
    · split <;> exact ⟨rfl, rfl, List.prefix_rfl, id⟩
    · exact .refl s

variable {host text}

/-- No request has two signals. -/
theorem System.Inv.signals_nodup {s : System} (h : s.Inv host text) (hsignalled : s.Signalled) :
    (s.signals.map fun signal => signal.transContext.requestId).Nodup := by
  have hnodup := h.disjoint.2.1
  rw [List.map_append] at hnodup
  exact hsignalled.nodup (List.Nodup.of_append_right hnodup)

/-- A signal has the context of its request. -/
theorem System.Inv.signal_call {s : System} (h : s.Inv host text) {signal : Signal}
    (hsignal : signal ∈ s.signals) : ∃ call ∈ s.calls, signal.transContext = call.context := by
  obtain ⟨a, ha, -, -, hcontext⟩ := h.spec.signal signal hsignal
  obtain ⟨-, -, call, hcall, -, hcallback⟩ := h.spec.own a ha
  exact ⟨call, hcall, by rw [hcontext, hcallback]; rfl⟩

end TransService

/-- Whether a request is made. -/
def DeploymentAction.isSend : DeploymentAction → Bool
  | trans action => action.isSend
  | _ => false

theorem Deployment.step_goesOn {serverFd eventFd : NetworkEndpoint → ℕ} {host : Endian}
    {text : SerializeField → Bytes}
    (s : Deployment) {action : DeploymentAction} (haction : action.isSend = false) :
    s.trans.GoesOn (s.step serverFd eventFd host text action).trans := by
  cases action with
  | trans action =>
    cases action with
    | receive fresh data => exact .refl s.trans
    | send endpoint request => cases haction
    | register call => exact TransService.step_goesOn host text s.trans (.register call) rfl
    | emit call => exact TransService.step_goesOn host text s.trans (.emit call) rfl
    | answer a => exact TransService.step_goesOn host text s.trans (.answer a) rfl
    | timeout requestId => exact TransService.step_goesOn host text s.trans (.timeout requestId) rfl
  | writeRawData result freshHeader =>
    simp only [Deployment.step]
    split <;> exact .refl s.trans
  | socketWrite endpoint result => exact .refl s.trans
  | connect endpoint =>
    simp only [Deployment.step]
    split <;> exact .refl s.trans
  | server endpoint action =>
    simp only [Deployment.step]
    split <;> exact .refl s.trans
  | carry endpoint n =>
    simp only [Deployment.step]
    split <;> exact .refl s.trans
  | socketRead endpoint n =>
    simp only [Deployment.step]
    split <;> exact .refl s.trans
  | receive fresh =>
    simp only [Deployment.step]
    split
    · exact .refl s.trans
    · exact TransService.step_goesOn host text s.trans (.receive fresh _) rfl

end ProjectTrans
