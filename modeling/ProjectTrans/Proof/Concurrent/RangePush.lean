import ProjectTrans.Proof.Concurrent.Wakeups

/-!
# What a range push has inserted when it returns

A range goes into the queue in several critical sections. The ledger keeps, for each thread
in such a call, the range and what its sections have inserted so far, and for each call that
has returned its result. `range_push_result`: under every interleaving, what is inserted is
a prefix of the range, all of it when the call returns true; a call that returns false found
the queue closed, and what it has inserted by then stays (`partial_range`).
-/

namespace ProjectTrans.MpmcBoundedQueue

variable {ι T : Type*}

/-- A range, and what of it has been inserted. -/
structure Batch (T : Type*) where
  items : List T
  inserted : List T
  deriving DecidableEq

/-- The system and the ledger of its range pushes. -/
structure Ledger (ι T : Type*) where
  system : System ι T
  started : ι → Option (Batch T) := fun _ => none
  returned : List (Batch T × Bool) := []

section Record

variable [Fintype ι] [DecidableEq ι]

/-- A step of the system, written down: the ledger follows calls, critical sections and returns. -/
def Ledger.record (l : Ledger ι T) (action : Action ι T) : Ledger ι T :=
  let system := step l.system action
  match action with
  | .call i (.pushRange items) =>
    match l.system.threads i with
    | .idle => { l with system := system, started := Function.update l.started i (some ⟨items, []⟩) }
    | _ => { l with system := system }
  | .enter i =>
    match l.system.threads i, l.started i with
    | .ready call, some batch =>
      match l.system.queue.criticalSection call with
      | some r =>
        { l with
          system := system
          started := Function.update l.started i (some { batch with inserted := batch.inserted ++ r.entered }) }
      | none => { l with system := system }
    | _, _ => { l with system := system }
  | .next i _ =>
    match l.system.threads i, l.started i with
    | .unlocked [] (.inr (.pushed isPushed)), some batch =>
      { l with
        system := system
        started := Function.update l.started i none
        returned := l.returned ++ [(batch, isPushed)] }
    | _, _ => { l with system := system }
  | _ => { l with system := system }

theorem Ledger.record_system (l : Ledger ι T) (action : Action ι T) :
    (l.record action).system = step l.system action := by
  unfold record
  dsimp only
  repeat' split
  all_goals rfl

theorem Ledger.foldl_record_system (l : Ledger ι T) (actions : List (Action ι T)) :
    (actions.foldl record l).system = actions.foldl step l.system :=
  (List.foldl_hom Ledger.system fun l action => (record_system l action).symm).symm

end Record

namespace Batch

variable (b : Batch T)

/-- How far a call is: the rest of the range is still to come. -/
def Under (nums : ℕ) (rest : List T) (isPushed : Bool) : Prop :=
  b.items.length < 2 ^ 31 → b.items = b.inserted ++ rest ∧ nums = rest.length ∧
    (isPushed = true ↔ b.inserted ≠ [])

/-- What a result says: all of the range, or a proper prefix on a closed queue. -/
def Settled (isRunning isPushed : Bool) : Prop :=
  b.items.length < 2 ^ 31 →
    (isPushed = true → b.inserted = b.items) ∧
      (isPushed = false → b.items = [] ∨ isRunning = false ∧ b.inserted <+: b.items ∧ b.inserted ≠ b.items)

variable {b}

theorem Settled.closed {isRunning isPushed : Bool} (h : b.Settled isRunning isPushed) :
    b.Settled false isPushed := by
  intro hsmall
  obtain ⟨htrue, hfalse⟩ := h hsmall
  refine ⟨htrue, fun hpushed => ?_⟩
  obtain hempty | ⟨-, hproper⟩ := hfalse hpushed
  · exact .inl hempty
  · exact .inr ⟨rfl, hproper⟩

end Batch

/-! ## Phases -/

/-- The call that a thread goes on with. -/
def Phase.call? : Phase T → Option (Call T)
  | .ready call => some call
  | .parked _ call => some call
  | .unlocked _ (.inl call) => some call
  | _ => none

/-- The result that a thread returns with. -/
def Phase.result? : Phase T → Option (Result T)
  | .unlocked _ (.inr result) => some result
  | _ => none

@[simp] theorem Phase.wake_call? (phase : Phase T) : phase.wake.call? = phase.call? := by
  cases phase <;> rfl

@[simp] theorem Phase.wake_result? (phase : Phase T) : phase.wake.result? = phase.result? := by
  cases phase <;> rfl

/-- The ledger's entry for a thread fits where the thread is. -/
def Follows (isRunning : Bool) (entry : Option (Batch T)) (phase : Phase T) : Prop :=
  match entry with
  | some b =>
    (∃ nums rest isPushed, phase.call? = some (.pushRange nums rest isPushed) ∧ b.Under nums rest isPushed) ∨
      ∃ isPushed, phase.result? = some (.pushed isPushed) ∧ b.Settled isRunning isPushed
  | none => ∀ nums rest isPushed, phase.call? ≠ some (.pushRange nums rest isPushed)

variable {isRunning : Bool} {entry : Option (Batch T)} {phase phase' : Phase T}

theorem Follows.closed (h : Follows isRunning entry phase) : Follows false entry phase := by
  cases entry with
  | none => exact h
  | some b =>
    obtain hunder | ⟨isPushed, hresult, hsettled⟩ := h
    · exact .inl hunder
    · exact .inr ⟨isPushed, hresult, hsettled.closed⟩

theorem Follows.of_same (h : Follows isRunning entry phase) (hcall : phase'.call? = phase.call?)
    (hresult : phase'.result? = phase.result?) : Follows isRunning entry phase' := by
  cases entry with
  | none =>
    intro nums rest isPushed
    rw [hcall]
    exact h nums rest isPushed
  | some b =>
    unfold Follows
    rw [hcall, hresult]
    exact h

theorem Follows.idle (h : Follows isRunning entry .idle) : entry = none := by
  cases entry with
  | none => rfl
  | some b =>
    obtain ⟨nums, rest, isPushed, hcall, -⟩ | ⟨isPushed, hresult, -⟩ := h
    · cases hcall
    · cases hresult

/-! ## Critical sections -/

variable {q : MpmcBoundedQueue T} {call : Call T} {r : Section T}

/-- A section closes the queue or leaves its flag. -/
theorem criticalSection_isRunning (h : q.criticalSection call = some r) :
    r.queue.isRunning = q.isRunning ∨ r.queue.isRunning = false := by
  have htake : q.takeOne.queue.isRunning = q.isRunning := by
    unfold takeOne
    split <;> rfl
  cases criticalSection_outcome h <;> first | exact .inl rfl | exact .inl htake | exact .inr rfl

/-- Other calls do not turn into range pushes. -/
theorem criticalSection_other (h : q.criticalSection call = some r)
    (hcall : ∀ nums rest isPushed, call ≠ .pushRange nums rest isPushed) :
    Follows r.queue.isRunning none r.phase := by
  intro nums rest isPushed
  have htake : q.takeOne.phase.call? = none := by
    unfold takeOne
    split <;> rfl
  cases criticalSection_outcome h with
  | popTakes => simp [htake]
  | tryPop => simp [htake]
  | popTimedTakes => simp [htake]
  | rangeDone => exact absurd rfl (hcall _ _ _)
  | rangeClosed => exact absurd rfl (hcall _ _ _)
  | rangeFills => exact absurd rfl (hcall _ _ _)
  | rangeWaits => exact absurd rfl (hcall _ _ _)
  | _ => simp [Phase.call?]

/-- **A section of a range push** inserts the next elements of the range, or settles the
call: with everything inserted, or with a proper prefix on a closed queue. -/
theorem criticalSection_range {b : Batch T} {nums : ℕ} {rest : List T} {isPushed : Bool}
    (h : q.criticalSection (.pushRange nums rest isPushed) = some r) (hb : b.Under nums rest isPushed) :
    Follows r.queue.isRunning (some { b with inserted := b.inserted ++ r.entered }) r.phase := by
  by_cases hzero : nums = 0
  · -- nothing is left to insert
    rw [criticalSection, if_pos hzero] at h
    obtain rfl := Option.some.inj h
    refine .inr ⟨isPushed, rfl, fun hsmall => ?_⟩
    obtain ⟨hitems, hnums, hpushed⟩ := hb hsmall
    obtain rfl : rest = [] := List.length_eq_zero_iff.1 (hnums.symm.trans hzero)
    simp only [List.append_nil] at hitems ⊢
    refine ⟨fun _ => hitems.symm, fun hfalse => .inl ?_⟩
    rw [hitems]
    by_contra hne
    rw [hpushed.2 hne] at hfalse
    cases hfalse
  · cases criticalSection_outcome h with
    | rangeDone => exact absurd rfl hzero
    | rangeClosed nums rest isPushed hclosed =>
      refine .inr ⟨false, rfl, fun hsmall => ⟨fun hfalse => (by cases hfalse), fun _ => .inr ?_⟩⟩
      obtain ⟨hitems, hnums, -⟩ := hb hsmall
      -- the queue is closed before the range is at its end
      have hrest : rest ≠ [] := by
        rintro rfl
        exact hzero hnums
      simp only [List.append_nil]
      refine ⟨hclosed, ⟨rest, hitems.symm⟩, fun hall => hrest ?_⟩
      rw [hall] at hitems
      exact List.append_right_eq_self.1 hitems.symm
    | rangeFills nums rest isPushed hnums hroom hrest =>
      refine .inl ⟨_, _, _, rfl, fun hsmall => ?_⟩
      obtain ⟨hitems, hlength, -⟩ := hb hsmall
      refine ⟨?_, ?_, ?_⟩
      · rw [List.append_assoc, List.take_append_drop]
        exact hitems
      · rw [List.length_drop, hlength]
      · -- there is room, so at least one element goes in
        have hpos : 0 < min nums (q.maxSize - q.queue.length) := by omega
        have hne : rest.take (min nums (q.maxSize - q.queue.length)) ≠ [] := by
          intro he
          have hlen := congrArg List.length he
          rw [List.length_take, List.length_nil] at hlen
          omega
        simp [hne]
    | rangeWaits nums rest isPushed hnums hfull =>
      refine .inl ⟨_, _, _, rfl, ?_⟩
      simp only [List.append_nil]
      exact hb

/-! ## The ledger -/

/-- The ledger fits the system, and what it says was inserted has entered the queue in that order. -/
structure Ledger.Fits (l : Ledger ι T) : Prop where
  follows : ∀ i, Follows l.system.queue.isRunning (l.started i) (l.system.threads i)
  settled : ∀ p ∈ l.returned, p.1.Settled l.system.queue.isRunning p.2
  started_entered : ∀ i b, l.started i = some b → b.inserted.Sublist l.system.entered
  returned_entered : ∀ p ∈ l.returned, p.1.inserted.Sublist l.system.entered

variable {l : Ledger ι T}

theorem Ledger.Fits.init (maxSize : ℕ) :
    Ledger.Fits (⟨MpmcBoundedQueue.init maxSize, fun _ => none, []⟩ : Ledger ι T) where
  follows _ := fun _ _ _ h => nomatch h
  settled _ hp := nomatch hp
  started_entered _ _ h := nomatch h
  returned_entered _ hp := nomatch hp

/-- Threads whose calls and results stay what they are keep fitting their entries. -/
theorem Ledger.Fits.of_same (h : l.Fits) {threads : ι → Phase T}
    (hcall : ∀ j, (threads j).call? = (l.system.threads j).call?)
    (hresult : ∀ j, (threads j).result? = (l.system.threads j).result?) :
    Ledger.Fits { l with system := { l.system with threads := threads } } where
  follows j := (h.follows j).of_same (hcall j) (hresult j)
  settled := h.settled
  started_entered := h.started_entered
  returned_entered := h.returned_entered

/-- A call that returns with a settled result. -/
theorem Ledger.Fits.returns (h : l.Fits) {p : Batch T × Bool} (hp : p.1.Settled l.system.queue.isRunning p.2)
    (hentered : p.1.inserted.Sublist l.system.entered) :
    Ledger.Fits { l with returned := l.returned ++ [p] } where
  follows := h.follows
  settled p' hp' := by
    obtain hold | hnew := List.mem_append.1 hp'
    · exact h.settled p' hold
    · rw [List.mem_singleton.1 hnew]
      exact hp
  started_entered := h.started_entered
  returned_entered p' hp' := by
    obtain hold | hnew := List.mem_append.1 hp'
    · exact h.returned_entered p' hold
    · rw [List.mem_singleton.1 hnew]
      exact hentered

variable [DecidableEq ι]

theorem call?_update {threads : ι → Phase T} {i : ι} (hcall : phase.call? = (threads i).call?) (j : ι) :
    (Function.update threads i phase j).call? = (threads j).call? := by
  by_cases hj : j = i
  · subst hj
    rw [Function.update_self, hcall]
  · rw [Function.update_of_ne hj]

theorem result?_update {threads : ι → Phase T} {i : ι} (hresult : phase.result? = (threads i).result?) (j : ι) :
    (Function.update threads i phase j).result? = (threads j).result? := by
  by_cases hj : j = i
  · subst hj
    rw [Function.update_self, hresult]
  · rw [Function.update_of_ne hj]

/-- A thread goes on, with an entry for where it is now; the queue may have been closed and
more may have entered it. -/
theorem Ledger.Fits.advance (h : l.Fits) {i : ι} {queue : MpmcBoundedQueue T} {entered left : List T}
    {returned : List (ι × Result T)}
    (hrunning : queue.isRunning = l.system.queue.isRunning ∨ queue.isRunning = false)
    (hentered : l.system.entered.Sublist entered) (hfollows : Follows queue.isRunning entry phase)
    (hentry : ∀ b, entry = some b → b.inserted.Sublist entered) :
    Ledger.Fits
      { l with
        system := ⟨queue, Function.update l.system.threads i phase, entered, left, returned⟩
        started := Function.update l.started i entry } where
  follows j := by
    by_cases hj : j = i
    · subst hj
      simp only [Function.update_self]
      exact hfollows
    · simp only [Function.update_of_ne hj]
      -- an entry that fits an open queue also fits a closed one
      obtain hsame | hclosed := hrunning
      · rw [hsame]
        exact h.follows j
      · rw [hclosed]
        exact (h.follows j).closed
  settled p hp := by
    obtain hsame | hclosed := hrunning
    · simp only [hsame]
      exact h.settled p hp
    · simp only [hclosed]
      exact (h.settled p hp).closed
  started_entered j b hb := by
    by_cases hj : j = i
    · subst hj
      simp only [Function.update_self] at hb
      exact hentry b hb
    · simp only [Function.update_of_ne hj] at hb
      exact (h.started_entered j b hb).trans hentered
  returned_entered p hp := (h.returned_entered p hp).trans hentered

/-- The same for a thread that is in no range push. -/
theorem Ledger.Fits.advance_other (h : l.Fits) {i : ι} {queue : MpmcBoundedQueue T} {entered left : List T}
    {returned : List (ι × Result T)} (hnone : l.started i = none)
    (hrunning : queue.isRunning = l.system.queue.isRunning ∨ queue.isRunning = false)
    (hentered : l.system.entered.Sublist entered) (hfollows : Follows queue.isRunning none phase) :
    Ledger.Fits
      { l with system := ⟨queue, Function.update l.system.threads i phase, entered, left, returned⟩ } := by
  have hadvance : Ledger.Fits
      { l with
        system := ⟨queue, Function.update l.system.threads i phase, entered, left, returned⟩
        started := Function.update l.started i none } :=
    h.advance hrunning hentered hfollows fun b hb => nomatch hb
  rw [← hnone, Function.update_eq_self] at hadvance
  exact hadvance

theorem follows_idle : Follows isRunning (none : Option (Batch T)) .idle := fun _ _ _ hcall => nomatch hcall

theorem rangeCount_of_lt {n : ℕ} (h : n < 2 ^ 31) : rangeCount n = n := by
  rw [rangeCount, Int32.toInt_ofNat_of_lt h]
  omega

theorem Op.start_other {op : Op T} (h : ∀ items, op ≠ .pushRange items) :
    Follows isRunning none (.ready op.start) := by
  intro nums rest isPushed hcall
  cases op with
  | pushRange items => exact h items rfl
  | _ => cases hcall

variable [Fintype ι]

/-- A call begins. -/
theorem Ledger.Fits.begin (h : l.Fits) {i : ι} {op : Op T} : (l.record (.call i op)).Fits := by
  cases hi : l.system.threads i with
  | idle =>
    have hnone : l.started i = none := by
      have hfollows := h.follows i
      rw [hi] at hfollows
      exact hfollows.idle
    cases hop : op with
    | pushRange items =>
      simp only [Ledger.record, step, hi]
      refine h.advance (.inl rfl) (List.Sublist.refl _) (.inl ⟨_, _, _, rfl, fun hsmall => ?_⟩) ?_
      · exact ⟨rfl, rangeCount_of_lt hsmall, by simp⟩
      · intro b hb
        rw [← Option.some.inj hb]
        exact List.nil_sublist _
    | _ =>
      simp only [Ledger.record, step, hi]
      have hother : Follows l.system.queue.isRunning none (.ready op.start) := Op.start_other (by simp [hop])
      rw [hop] at hother
      exact h.advance_other hnone (.inl rfl) (List.Sublist.refl _) hother
  | _ =>
    cases op <;> simp only [Ledger.record, step, hi] <;> exact h

/-- A critical section. -/
theorem Ledger.Fits.enter (h : l.Fits) {i : ι} : (l.record (.enter i)).Fits := by
  cases hi : l.system.threads i with
  | ready call =>
    have hfollows := h.follows i
    rw [hi] at hfollows
    cases hr : l.system.queue.criticalSection call with
    | none =>
      cases hentry : l.started i <;> simp only [Ledger.record, step, hi, hr, hentry] <;> exact h
    | some r =>
      have hrunning := criticalSection_isRunning hr
      have hentered : l.system.entered.Sublist (l.system.entered ++ r.entered) := List.sublist_append_left _ _
      cases hentry : l.started i with
      | none =>
        rw [hentry] at hfollows
        have hother := criticalSection_other hr fun nums rest isPushed hcall =>
          hfollows nums rest isPushed (congrArg some hcall)
        simp only [Ledger.record, step, hi, hr, hentry]
        exact h.advance_other hentry hrunning hentered hother
      | some b =>
        simp only [Ledger.record, step, hi, hr, hentry]
        rw [hentry] at hfollows
        obtain ⟨nums, rest, isPushed, hcall, hunder⟩ | ⟨isPushed, hresult, -⟩ := hfollows
        · obtain rfl := Option.some.inj hcall
          refine h.advance hrunning hentered (criticalSection_range hr hunder) fun b' hb' => ?_
          rw [← Option.some.inj hb']
          -- what the call inserts now enters the queue now
          exact (h.started_entered i b hentry).append (List.Sublist.refl _)
        · cases hresult
  | _ =>
    cases hentry : l.started i <;> simp only [Ledger.record, step, hi] <;> exact h

/-- A notification leaves every thread in the call it is in. -/
theorem Ledger.Fits.notified (h : l.Fits) {i : ι} {target : Option ι} {n : Notify} {todo : List Notify}
    {next : Call T ⊕ Result T} {threads : ι → Phase T} (hi : l.system.threads i = .unlocked (n :: todo) next)
    (hperform : n.perform target l.system.threads = some threads) :
    ({ l with system := { l.system with threads := Function.update threads i (.unlocked todo next) } } :
      Ledger ι T).Fits := by
  -- a thread that is woken up is in the same call as before
  have hcall : ∀ j, (threads j).call? = (l.system.threads j).call? := by
    intro j
    obtain hsame | ⟨-, hwake⟩ := Notify.perform_apply hperform j
    · rw [hsame]
    · rw [hwake, Phase.wake_call?]
  have hresult : ∀ j, (threads j).result? = (l.system.threads j).result? := by
    intro j
    obtain hsame | ⟨-, hwake⟩ := Notify.perform_apply hperform j
    · rw [hsame]
    · rw [hwake, Phase.wake_result?]
  have hnext : (Phase.unlocked todo next).call? = (threads i).call? ∧
      (Phase.unlocked todo next).result? = (threads i).result? := by
    rw [hcall, hresult, hi]
    cases next <;> exact ⟨rfl, rfl⟩
  apply h.of_same
  · intro j
    exact (call?_update hnext.1 j).trans (hcall j)
  · intro j
    exact (result?_update hnext.2 j).trans (hresult j)

/-- A notification, a way back to the lock, or a return. -/
theorem Ledger.Fits.next (h : l.Fits) {i : ι} {target : Option ι} : (l.record (.next i target)).Fits := by
  have hfollows := h.follows i
  cases hi : l.system.threads i with
  | unlocked todo next =>
    rw [hi] at hfollows
    cases todo with
    | cons n todo =>
      have hsystem : (l.record (.next i target)) = { l with system := step l.system (.next i target) } := by
        cases hentry : l.started i <;> simp only [Ledger.record, hi, hentry]
      rw [hsystem]
      simp only [step, hi]
      cases hperform : n.perform target l.system.threads with
      | none => exact h
      | some threads => exact h.notified hi hperform
    | nil =>
      cases next with
      | inl call =>
        have hsystem : (l.record (.next i target)) = { l with system := step l.system (.next i target) } := by
          cases hentry : l.started i <;> simp only [Ledger.record, hi, hentry]
        rw [hsystem]
        simp only [step, hi]
        exact h.of_same (call?_update (by rw [hi]; rfl)) (result?_update (by rw [hi]; rfl))
      | inr result =>
        cases hentry : l.started i with
        | none =>
          simp only [Ledger.record, step, hi, hentry]
          cases result <;> exact h.advance_other hentry (.inl rfl) (List.Sublist.refl _) follows_idle
        | some b =>
          rw [hentry] at hfollows
          obtain ⟨nums, rest, isPushed, hcall, -⟩ | ⟨isPushed, hresult, hsettled⟩ := hfollows
          · cases hcall
          · -- the push returns what it has settled
            obtain rfl := Option.some.inj hresult
            simp only [Ledger.record, step, hi, hentry]
            exact (h.returns hsettled (h.started_entered i b hentry)).advance (.inl rfl) (List.Sublist.refl _)
              follows_idle (by simp)
  | _ =>
    cases hentry : l.started i <;> simp only [Ledger.record, step, hi] <;> exact h

/-- One step keeps the ledger right. -/
theorem Ledger.Fits.record (h : l.Fits) (action : Action ι T) : (l.record action).Fits := by
  cases action with
  | call i op => exact h.begin
  | enter i => exact h.enter
  | next i target => exact h.next
  | wake i =>
    exact h.of_same (call?_update (Phase.wake_call? _)) (result?_update (Phase.wake_result? _))
  | timeout i =>
    simp only [Ledger.record, step]
    split
    · rename_i hi
      -- a timed pop is no range push
      have hnone : l.started i = none := by
        have hfollows := h.follows i
        rw [hi] at hfollows
        cases hentry : l.started i with
        | none => rfl
        | some b =>
          rw [hentry] at hfollows
          obtain ⟨nums, rest, isPushed, hcall, -⟩ | ⟨isPushed, hresult, -⟩ := hfollows
          · cases hcall
          · cases hresult
      refine h.advance_other hnone (.inl rfl) (List.Sublist.refl _) fun _ _ _ hcall => ?_
      cases hcall
    · exact h

/-- **What a range push has inserted when it returns**, over every run of any threads: a
call with less than `2 ^ 31` elements that returns true has inserted the range in order, and
one that returns false had an empty range, or the queue is closed and the elements inserted
are a proper prefix. -/
theorem range_push_result (maxSize : ℕ) (actions : List (Action ι T)) :
    let l := actions.foldl Ledger.record (⟨init maxSize, fun _ => none, []⟩ : Ledger ι T)
    l.system = actions.foldl step (init maxSize) ∧
      ∀ p ∈ l.returned, p.1.Settled l.system.queue.isRunning p.2 ∧ p.1.inserted.Sublist l.system.entered := by
  intro l
  have hfits : l.Fits :=
    List.foldlRecOn actions Ledger.record (.init maxSize) fun l h action _ => h.record action
  exact ⟨Ledger.foldl_record_system _ actions, fun p hp => ⟨hfits.settled p hp, hfits.returned_entered p hp⟩⟩

/-- A range of two on a queue of one, which is closed when half of it is in. -/
theorem partial_range :
    ¬ ∀ (maxSize : ℕ) (actions : List (Action (Fin 2) ℕ)),
      ∀ p ∈ (actions.foldl Ledger.record (⟨init maxSize, fun _ => none, []⟩ : Ledger (Fin 2) ℕ)).returned,
        p.2 = false → p.1.inserted = [] := by
  intro h
  have hnone := h 1 [.call 0 (.pushRange [1, 2]), .enter 0, .next 0 none, .next 0 none, .call 1 .close, .enter 1,
    .enter 0, .next 0 none] (⟨[1, 2], [1]⟩, false) (by decide) rfl
  cases hnone

end ProjectTrans.MpmcBoundedQueue
