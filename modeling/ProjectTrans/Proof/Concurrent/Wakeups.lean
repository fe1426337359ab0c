import ProjectTrans.Proof.Concurrent.ExactlyOnce

/-!
# Wake-ups of the bounded queue

For either condition variable, the threads parked on it are served: as many notifications
are on their way as threads are parked, or a `notify_all` is, or there is no more to do
than notifications and threads at the lock will do. Batch pops that take more than they
notify for break this for producers; `no_lost_wakeup` is about the runs in which they
do not.
-/

namespace ProjectTrans.MpmcBoundedQueue

variable {ι T : Type*} [Fintype ι]

/-- What there is to do for threads that wait: elements to take, or room to fill. -/
def work (cv : Cv) (q : MpmcBoundedQueue T) : ℕ :=
  match cv with
  | .empty => q.queue.length
  | .full => q.maxSize - q.queue.length

/-- A thread at the lock that will take an element if there is one, or fill a place. -/
def Call.hand (cv : Cv) : Call T → ℕ
  | .pop => if cv = .empty then 1 else 0
  | .popMany nums result => if cv = .empty ∧ (result.length : ℤ) < nums then 1 else 0
  | .push _ => if cv = .full then 1 else 0
  | .pushRange nums _ _ => if cv = .full ∧ 0 < nums then 1 else 0
  | _ => 0

namespace Phase

/-- A thread parked on `cv`. -/
def waits (cv : Cv) (phase : Phase T) : ℕ := if phase.isParkedOn cv then 1 else 0

/-- The `notify_one` calls a thread is about to make on `cv`. -/
def coming (cv : Cv) : Phase T → ℕ
  | unlocked todo _ => todo.count ⟨cv, false⟩
  | _ => 0

/-- The `notify_all` calls a thread is about to make on `cv`. -/
def comingAll (cv : Cv) : Phase T → ℕ
  | unlocked todo _ => todo.count ⟨cv, true⟩
  | _ => 0

/-- A thread at the lock with a hand for `cv`. -/
def hand (cv : Cv) : Phase T → ℕ
  | ready call => call.hand cv
  | _ => 0

/-- Between calls, or parked. -/
def isAsleep : Phase T → Bool
  | idle => true
  | parked _ _ => true
  | _ => false

end Phase

/-- A thread is parked though there is something to do, and nobody else is awake. -/
def System.Stuck (s : System ι T) : Prop :=
  ∃ i cv, (s.threads i).isParkedOn cv = true ∧ 0 < work cv s.queue ∧
    ∀ j, j ≠ i → (s.threads j).isAsleep = true

/-- The threads parked on `cv` are served. -/
def Served (cv : Cv) (q : MpmcBoundedQueue T) (threads : ι → Phase T) : Prop :=
  Threads.total (Phase.waits cv) threads ≤ Threads.total (Phase.coming cv) threads ∨
    0 < Threads.total (Phase.comingAll cv) threads ∨
    work cv q ≤ Threads.total (Phase.coming cv) threads + Threads.total (Phase.hand cv) threads

/-- The critical section of a batch pop makes a `notify_one` for all the places it frees
but one, or for all producers that are parked. -/
def Call.NotifiesEnough (q : MpmcBoundedQueue T) (waiting coming : ℕ) : Call T → Prop
  | .popMany nums result =>
    if (nums - result.length).toNat ≤ q.queue.length then (nums - result.length).toNat ≤ 1 ∨ waiting ≤ coming + 1
    else q.queue = [] ∨ waiting ≤ coming
  | .tryPopMany nums => nums ≤ q.queue.length ∨ q.queue = [] ∨ waiting ≤ coming
  | _ => True

/-- Batch pops notify enough producers. -/
def NotifiesEnough (s : System ι T) : Action ι T → Prop
  | .enter i => ∀ call, s.threads i = .ready call →
    call.NotifiesEnough s.queue (Threads.total (Phase.waits .full) s.threads)
      (Threads.total (Phase.coming .full) s.threads)
  | _ => True

/-- An operation without a time limit, other than `close`. -/
def Op.isPlain : Op T → Bool
  | popTimed => false
  | close => false
  | _ => true

/-- No `close`, no time limit, and no thread wakes up by itself. -/
def Action.isPlain : Action ι T → Bool
  | .call _ op => op.isPlain
  | .enter _ => true
  | .next _ _ => true
  | .wake _ => false
  | .timeout _ => false

/-! ## Critical sections -/

/-- A call without a time limit, other than `close`. -/
def Call.Plain : Call T → Prop
  | popTimed _ => False
  | close => False
  | _ => True

/-- What a critical section does for the threads parked on `cv`: nothing is left to do, or
it does not park there and either notifies all, or leaves no more to do than it notifies
for, or notifies for all that wait. -/
def Section.Serves (cv : Cv) (q : MpmcBoundedQueue T) (call : Call T) (waiting coming : ℕ)
    (r : Section T) : Prop :=
  work cv r.queue = 0 ∨ r.phase.waits cv = 0 ∧
    (0 < r.phase.comingAll cv ∨ work cv r.queue + call.hand cv ≤ work cv q + r.phase.coming cv ∨
      waiting ≤ coming + r.phase.coming cv)

variable {q : MpmcBoundedQueue T} {call : Call T} {r : Section T} {waiting coming : ℕ}

/-- A section that leaves the queue alone and parks nowhere. -/
theorem serves_of_unchanged {phase : Phase T} {cv : Cv} (hwaits : phase.waits cv = 0) (hhand : call.hand cv = 0) :
    Section.Serves cv q call waiting coming { queue := q, phase := phase } :=
  .inr ⟨hwaits, .inr (.inl (by rw [hhand]; exact Nat.le_add_right _ _))⟩

theorem takeOne_serves (cv : Cv) (hhand : call.hand cv ≤ if cv = .empty then 1 else 0)
    (hne : q.queue = [] → call.hand cv = 0) : q.takeOne.Serves cv q call waiting coming := by
  unfold takeOne
  split
  · rename_i hnil
    exact serves_of_unchanged rfl (hne hnil)
  · rename_i item rest hcons
    refine .inr ⟨rfl, .inr (.inl ?_)⟩
    cases cv with
    | empty =>
      simp only [if_true] at hhand
      simp only [work, hcons, List.length_cons]
      omega
    | full =>
      simp only [reduceCtorEq, if_false] at hhand
      simp only [work, hcons, List.length_cons, Phase.coming, List.count_singleton_self]
      omega

/-- A batch that is complete. -/
theorem popMany_serves (cv : Cv) {nums : ℤ} {result items : List T}
    (hle : (nums - result.length).toNat ≤ q.queue.length)
    (henough : cv = .full → (Call.popMany nums result).NotifiesEnough q waiting coming) :
    Section.Serves cv q (.popMany nums result) waiting coming
      { queue := { q with queue := q.queue.drop (nums - result.length).toNat }
        left := items
        phase := .unlocked [⟨.full, false⟩] (.inr (.items (some (result ++ items)))) } := by
  refine .inr ⟨rfl, ?_⟩
  cases cv with
  | empty =>
    refine .inr (.inl ?_)
    simp only [work, Call.hand, List.length_drop, true_and]
    split <;> omega
  | full =>
    have henough := henough rfl
    rw [Call.NotifiesEnough, if_pos hle] at henough
    rcases henough with hone | hwaiting
    · refine .inr (.inl ?_)
      simp only [work, Call.hand, List.length_drop, reduceCtorEq, false_and, if_false, Phase.coming,
        List.count_singleton_self]
      omega
    · exact .inr (.inr hwaiting)

/-- A batch that is not takes all there is. -/
theorem popManyWaits_serves (cv : Cv) {nums : ℤ} {result : List T} {phase : Phase T}
    (hshort : q.queue.length < (nums - result.length).toNat) (hwaits : phase.waits .full = 0)
    (henough : cv = .full → (Call.popMany nums result).NotifiesEnough q waiting coming) :
    Section.Serves cv q (.popMany nums result) waiting coming
      { queue := { q with queue := [] }, left := q.queue, phase := phase } := by
  cases cv with
  | empty => exact .inl rfl
  | full =>
    refine .inr ⟨hwaits, .inr ?_⟩
    have henough := henough rfl
    rw [Call.NotifiesEnough, if_neg (Nat.not_le_of_lt hshort)] at henough
    rcases henough with hempty | hwaiting
    · exact .inl (by simp [work, Call.hand, hempty])
    · exact .inr (Nat.le_add_right_of_le hwaiting)

theorem tryPopMany_serves (cv : Cv) {nums : ℕ}
    (henough : cv = .full → (Call.tryPopMany nums : Call T).NotifiesEnough q waiting coming) {result : Result T} :
    Section.Serves cv q (.tryPopMany nums) waiting coming
      { queue := { q with queue := q.queue.drop nums }
        left := q.queue.take nums
        phase := .unlocked (if nums ≤ q.queue.length then [⟨.full, true⟩] else []) (.inr result) } := by
  refine .inr ⟨rfl, ?_⟩
  cases cv with
  | empty =>
    refine .inr (.inl ?_)
    simp only [work, Call.hand, List.length_drop]
    omega
  | full =>
    by_cases hle : nums ≤ q.queue.length
    · exact .inl (by simp [Phase.comingAll, hle])
    · rcases (henough rfl).resolve_left hle with hempty | hwaiting
      · exact .inr (.inl (by simp [work, Call.hand, hempty]))
      · exact .inr (.inr (Nat.le_add_right_of_le hwaiting))

/-- **Every critical section serves** those that are parked, if batch pops notify enough. -/
theorem criticalSection_serves (cv : Cv) (hplain : call.Plain) (hrunning : q.isRunning = true)
    (h : q.criticalSection call = some r) (henough : cv = .full → call.NotifiesEnough q waiting coming) :
    r.Serves cv q call waiting coming := by
  -- who finds no room leaves no work for producers
  have hnoRoom (hfull : q.maxSize ≤ q.queue.length) : work .full q = 0 := Nat.sub_eq_zero_of_le hfull
  cases criticalSection_outcome h with
  | popWaits hempty _ =>
    cases cv with
    | empty => exact .inl (by rw [work, hempty, List.length_nil])
    | full => exact serves_of_unchanged rfl rfl
  | popTakes hsome => exact takeOne_serves cv le_rfl fun hempty => absurd hempty (hsome hrunning)
  | popManyDone nums result hle => exact popMany_serves cv hle henough
  | popManyWaits nums result hshort _ => exact popManyWaits_serves cv hshort rfl henough
  | popManyClosed nums result hshort _ => exact popManyWaits_serves cv hshort rfl henough
  | tryPop => exact takeOne_serves cv (Nat.zero_le _) fun _ => rfl
  | tryPopMany nums => exact tryPopMany_serves cv henough
  | popTimedWaits expired => exact absurd hplain id
  | popTimedTakes expired => exact absurd hplain id
  | pushClosed item hclosed => exact absurd (hrunning.symm.trans hclosed) Bool.noConfusion
  | pushDone item hroom =>
    refine .inr ⟨rfl, .inr (.inl ?_)⟩
    cases cv with
    | empty => simp [work, Call.hand, Phase.coming]
    | full =>
      simp only [work, Call.hand, Phase.coming, List.length_append, List.length_singleton, if_true]
      omega
  | pushWaits item hfull =>
    cases cv with
    | empty => exact serves_of_unchanged rfl rfl
    | full => exact .inl (hnoRoom hfull)
  | rangeDone rest isPushed =>
    exact serves_of_unchanged rfl (if_neg fun hhand => absurd hhand.2 (Nat.lt_irrefl 0))
  | rangeClosed nums rest isPushed hclosed => exact absurd (hrunning.symm.trans hclosed) Bool.noConfusion
  | rangeFills nums rest isPushed hnums hroom hrest =>
    cases cv with
    | empty => exact .inr ⟨rfl, .inl Nat.one_pos⟩
    | full =>
      refine .inr ⟨rfl, .inr (.inl ?_)⟩
      simp only [work, Call.hand, List.length_append, List.length_take, true_and]
      split <;> omega
  | rangeWaits nums rest isPushed hnums hfull =>
    cases cv with
    | empty => exact serves_of_unchanged rfl rfl
    | full => exact .inl (hnoRoom hfull)
  | close => exact absurd hplain id

/-! ## Phases -/

/-- The thread's call is plain, and if it is parked there is something it waits for. -/
def Phase.Plain : Phase T → Prop
  | .idle => True
  | .ready call => call.Plain
  | .parked cv call => call.Plain ∧ call.hand cv = 1
  | .unlocked _ (.inl call) => call.Plain
  | .unlocked _ (.inr _) => True

/-- A thread that wakes up is parked nowhere. -/
theorem Phase.wake_waits (phase : Phase T) (cv : Cv) : phase.wake.waits cv = 0 := by
  cases phase <;> rfl

theorem Op.start_plain {op : Op T} (h : op.isPlain = true) : op.start.Plain := by
  cases op <;> simp_all [isPlain, start, Call.Plain]

theorem Phase.isParkedOn_iff {phase : Phase T} {cv : Cv} :
    phase.isParkedOn cv = true ↔ ∃ call, phase = .parked cv call := by
  cases phase <;> simp [isParkedOn]

theorem Phase.Plain.wake {phase : Phase T} (h : phase.Plain) : phase.wake.Plain := by
  cases phase with
  | parked cv call => exact h.1
  | idle => exact h
  | ready call => exact h
  | unlocked todo next => exact h

theorem takeOne_plain (hrunning : q.isRunning = true) :
    q.takeOne.phase.Plain ∧ q.takeOne.queue.isRunning = true := by
  unfold takeOne
  split <;> exact ⟨trivial, hrunning⟩

/-- Plain calls stay plain, and keep the queue open. -/
theorem criticalSection_plain (hplain : call.Plain) (hrunning : q.isRunning = true)
    (h : q.criticalSection call = some r) : r.phase.Plain ∧ r.queue.isRunning = true := by
  cases criticalSection_outcome h with
  | popWaits hempty _ => exact ⟨⟨trivial, rfl⟩, hrunning⟩
  | popTakes hsome => exact takeOne_plain hrunning
  | popManyDone nums result hle => exact ⟨trivial, hrunning⟩
  | popManyWaits nums result hshort _ =>
    have hmissing : ((result ++ q.queue).length : ℤ) < nums := by
      rw [List.length_append]
      omega
    exact ⟨⟨trivial, if_pos ⟨rfl, hmissing⟩⟩, hrunning⟩
  | popManyClosed nums result hshort _ => exact ⟨trivial, hrunning⟩
  | tryPop => exact takeOne_plain hrunning
  | tryPopMany nums => exact ⟨trivial, hrunning⟩
  | popTimedWaits expired => exact absurd hplain id
  | popTimedTakes expired => exact absurd hplain id
  | pushClosed item _ => exact ⟨trivial, hrunning⟩
  | pushDone item hroom => exact ⟨trivial, hrunning⟩
  | pushWaits item hfull => exact ⟨⟨trivial, rfl⟩, hrunning⟩
  | rangeDone rest isPushed => exact ⟨trivial, hrunning⟩
  | rangeClosed nums rest isPushed _ => exact ⟨trivial, hrunning⟩
  | rangeFills nums rest isPushed hnums hroom hrest => exact ⟨trivial, hrunning⟩
  | rangeWaits nums rest isPushed hnums hfull => exact ⟨⟨trivial, if_pos ⟨rfl, hnums⟩⟩, hrunning⟩
  | close => exact absurd hplain id

/-! ## Steps -/

variable [DecidableEq ι] {s : System ι T} {threads threads' : ι → Phase T} {cv : Cv}

omit [DecidableEq ι] in
/-- Fewer that wait, and no less on its way. -/
theorem Served.mono (h : Served cv q threads) (hwaits : ∀ j, (threads' j).waits cv ≤ (threads j).waits cv)
    (hcoming : ∀ j, (threads j).coming cv ≤ (threads' j).coming cv)
    (hall : ∀ j, (threads j).comingAll cv ≤ (threads' j).comingAll cv)
    (hhand : ∀ j, (threads j).hand cv ≤ (threads' j).hand cv) : Served cv q threads' := by
  have hwaits := Threads.total_mono hwaits
  have hcoming := Threads.total_mono hcoming
  have hall := Threads.total_mono hall
  have hhand := Threads.total_mono hhand
  unfold Served at h ⊢
  omega

/-- A thread that is not parked takes up something else and still makes its notifications. -/
theorem Served.update (h : Served cv q threads) {i : ι} {phase : Phase T} (hwaits : phase.waits cv = 0)
    (hcoming : (threads i).coming cv ≤ phase.coming cv) (hall : (threads i).comingAll cv ≤ phase.comingAll cv)
    (hhand : (threads i).hand cv ≤ phase.hand cv) : Served cv q (Function.update threads i phase) := by
  have hw := Threads.total_update (Phase.waits cv) threads i phase
  have hc := Threads.total_update (Phase.coming cv) threads i phase
  have ha := Threads.total_update (Phase.comingAll cv) threads i phase
  have hh := Threads.total_update (Phase.hand cv) threads i phase
  unfold Served at h ⊢
  omega

/-- Nobody is parked. -/
theorem Served.of_nobody (h : Threads.total (Phase.waits cv) threads = 0) {i : ι} {phase : Phase T}
    (hwaits : phase.waits cv = 0) : Served cv q (Function.update threads i phase) := by
  have hw := Threads.total_update (Phase.waits cv) threads i phase
  exact .inl (by omega)

/-- A thread leaves its critical section. -/
theorem Served.enter (h : Served cv q threads) {i : ι} (hi : threads i = .ready call)
    (hr : r.Serves cv q call (Threads.total (Phase.waits cv) threads) (Threads.total (Phase.coming cv) threads)) :
    Served cv r.queue (Function.update threads i r.phase) := by
  have hw := Threads.total_update (Phase.waits cv) threads i r.phase
  have hc := Threads.total_update (Phase.coming cv) threads i r.phase
  have ha := Threads.total_update (Phase.comingAll cv) threads i r.phase
  have hh := Threads.total_update (Phase.hand cv) threads i r.phase
  rw [hi] at hw hc ha hh
  have hzero : (Phase.ready call).waits cv = 0 ∧ (Phase.ready call).coming cv = 0 ∧
      (Phase.ready call).comingAll cv = 0 ∧ (Phase.ready call).hand cv = call.hand cv := ⟨rfl, rfl, rfl, rfl⟩
  unfold Served at h ⊢
  unfold Section.Serves at hr
  omega

omit [DecidableEq ι] in
/-- `notify_all` leaves nobody parked. -/
theorem waits_notifyAll : Threads.total (Phase.waits cv)
    (fun j => if (threads j).isParkedOn cv then (threads j).wake else threads j) = 0 := by
  refine Threads.total_eq_zero fun j => ?_
  split
  · exact Phase.wake_waits _ _
  · rename_i hparked
    exact if_neg hparked

/-- A thread that wakes up is worth no less. -/
theorem Phase.wake_le (phase : Phase T) (cv : Cv) :
    phase.wake.waits cv ≤ phase.waits cv ∧ phase.coming cv ≤ phase.wake.coming cv ∧
      phase.comingAll cv ≤ phase.wake.comingAll cv ∧ phase.hand cv ≤ phase.wake.hand cv := by
  cases phase with
  | parked cv' call => exact ⟨Nat.zero_le _, le_rfl, le_rfl, Nat.zero_le _⟩
  | idle => exact ⟨le_rfl, le_rfl, le_rfl, le_rfl⟩
  | ready call => exact ⟨le_rfl, le_rfl, le_rfl, le_rfl⟩
  | unlocked todo next => exact ⟨le_rfl, le_rfl, le_rfl, le_rfl⟩

/-- Notifications wake threads, and change no others. -/
theorem Notify.perform_apply {n : Notify} {target : Option ι} (h : n.perform target threads = some threads')
    (j : ι) : threads' j = threads j ∨ (threads j).isParkedOn n.cv = true ∧ threads' j = (threads j).wake := by
  obtain ⟨-, rfl⟩ | ⟨-, ⟨k, hk, rfl⟩ | ⟨-, rfl⟩⟩ := perform_cases h
  · dsimp only
    split
    · rename_i hparked
      exact .inr ⟨hparked, rfl⟩
    · exact .inl rfl
  · by_cases hj : j = k
    · subst hj
      exact .inr ⟨hk, Function.update_self ..⟩
    · exact .inl (Function.update_of_ne hj ..)
  · exact .inl rfl

/-- A notification keeps the threads parked elsewhere served, the notifier aside. -/
theorem Served.perform (h : Served cv q threads) {n : Notify} {target : Option ι}
    (hperform : n.perform target threads = some threads') : Served cv q threads' := by
  have hle := fun j => Notify.perform_apply hperform j
  refine h.mono (fun j => ?_) (fun j => ?_) (fun j => ?_) fun j => ?_
  all_goals
    obtain hsame | ⟨-, hwake⟩ := hle j
    · rw [hsame]
    · rw [hwake]
      have := (threads j).wake_le cv
      tauto

/-- `notify_one` wakes a thread: one notification and one that waits less, and a hand more. -/
theorem Served.notifyOne (h : Served cv q threads) {todo : List Notify} {next : Call T ⊕ Result T} {i j : ι}
    (hi : threads i = .unlocked (⟨cv, false⟩ :: todo) next) (hj : threads j = .parked cv call)
    (hcall : call.hand cv = 1) :
    Served cv q (Function.update (Function.update threads j (.ready call)) i (.unlocked todo next)) := by
  have hne : i ≠ j := by
    rintro rfl
    exact absurd (hi.symm.trans hj) (by simp)
  have hwake : ∀ w : Phase T → ℕ, Threads.total w (Function.update threads j (.ready call)) +
      w (.parked cv call) = Threads.total w threads + w (.ready call) := by
    intro w
    have := Threads.total_update w threads j (.ready call)
    rwa [hj] at this
  have hnotified : ∀ w : Phase T → ℕ,
      Threads.total w (Function.update (Function.update threads j (.ready call)) i (.unlocked todo next)) +
        w (.unlocked (⟨cv, false⟩ :: todo) next) =
      Threads.total w (Function.update threads j (.ready call)) + w (.unlocked todo next) := by
    intro w
    have := Threads.total_update w (Function.update threads j (.ready call)) i (.unlocked todo next)
    rwa [Function.update_of_ne hne, hi] at this
  have hwaits : (Phase.parked cv call).waits cv = 1 := if_pos (by simp [Phase.isParkedOn])
  have hcoming : (Phase.unlocked (⟨cv, false⟩ :: todo) next).coming cv =
    (Phase.unlocked todo next).coming cv + 1 :=
    List.count_cons_self
  have hall : (Phase.unlocked (⟨cv, false⟩ :: todo) next).comingAll cv =
    (Phase.unlocked todo next).comingAll cv :=
    List.count_cons_of_ne (by simp)
  -- the two updates together, in each of the four counts
  have hw := hwake (Phase.waits cv)
  have hw' := hnotified (Phase.waits cv)
  have hc := hwake (Phase.coming cv)
  have hc' := hnotified (Phase.coming cv)
  have ha := hwake (Phase.comingAll cv)
  have ha' := hnotified (Phase.comingAll cv)
  have hh := hwake (Phase.hand cv)
  have hh' := hnotified (Phase.hand cv)
  simp only [hwaits, hcoming, hall] at hw hc' ha'
  simp only [Phase.waits, Phase.isParkedOn, Phase.coming, Phase.comingAll, Phase.hand, hcall, Bool.false_eq_true,
    if_false] at hw hw' hc hc' ha ha' hh hh'
  unfold Served at h ⊢
  omega

/-- **A notification keeps those parked served.** The one it wakes is there for what it was
made for. -/
theorem Served.notify (h : Served cv q threads) (hplain : ∀ j, (threads j).Plain) {n : Notify}
    {todo : List Notify}
    {next : Call T ⊕ Result T} {i : ι} (hi : threads i = .unlocked (n :: todo) next) {target : Option ι}
    (hperform : n.perform target threads = some threads') :
    Served cv q (Function.update threads' i (.unlocked todo next)) := by
  have hi' : threads' i = .unlocked (n :: todo) next := by
    obtain hsame | ⟨hparked, -⟩ := Notify.perform_apply hperform i
    · rw [hsame, hi]
    · exact absurd hparked (by simp [hi, Phase.isParkedOn])
  by_cases hcv : n.cv = cv
  · -- everybody is woken up, one thread is, or there is none to wake
    obtain ⟨-, rfl⟩ | ⟨hone, ⟨j, hj, rfl⟩ | ⟨hnone, rfl⟩⟩ := Notify.perform_cases hperform
    · refine Served.of_nobody ?_ rfl
      rw [hcv]
      exact waits_notifyAll
    · obtain ⟨cv', all⟩ := n
      obtain rfl : cv' = cv := hcv
      obtain rfl : all = false := hone
      obtain ⟨call, hcall⟩ := Phase.isParkedOn_iff.1 hj
      have hplainj := hplain j
      rw [hcall] at hplainj
      rw [hcall, Phase.wake]
      exact h.notifyOne hi hcall hplainj.2
    · refine Served.of_nobody (Threads.total_eq_zero fun j => if_neg ?_) rfl
      rw [← hcv, hnone j]
      exact Bool.false_ne_true
  · refine (h.perform hperform).update rfl ?_ ?_ (by rw [hi']; exact le_rfl)
    all_goals
      rw [hi']
      refine (List.count_cons_of_ne fun heq => hcv ?_).le
      rw [heq]

/-- The queue is open, and the threads parked on either condition variable are served. -/
structure System.Attended (s : System ι T) : Prop where
  running : s.queue.isRunning = true
  plain : ∀ j, (s.threads j).Plain
  served : ∀ cv, Served cv s.queue s.threads

omit [DecidableEq ι] in
theorem System.Attended.init (maxSize : ℕ) : (init maxSize : System ι T).Attended :=
  ⟨rfl, fun _ => trivial, fun _ => .inl ((Threads.total_eq_zero fun _ => rfl).trans_le (Nat.zero_le _))⟩

omit [Fintype ι] in
theorem plain_update (h : ∀ j, (threads j).Plain) {i : ι} {phase : Phase T} (hphase : phase.Plain) :
    ∀ j, (Function.update threads i phase j).Plain := by
  intro j
  by_cases hj : j = i
  · subst hj
    rwa [Function.update_self]
  · rw [Function.update_of_ne hj]
    exact h j

/-- **One step keeps everybody attended**, if batch pops notify enough. -/
theorem System.Attended.step (h : s.Attended) {action : Action ι T} (hplain : action.isPlain = true)
    (henough : NotifiesEnough s action) : (step s action).Attended := by
  cases action with
  | call i op =>
    simp only [MpmcBoundedQueue.step]
    split
    · rename_i hi
      -- a thread outside of calls counts nowhere
      refine ⟨h.running, plain_update h.plain (Op.start_plain hplain),
        fun cv => (h.served cv).update rfl ?_ ?_ ?_⟩
      all_goals
        rw [hi]
        exact Nat.zero_le _
    · exact h
  | enter i =>
    simp only [MpmcBoundedQueue.step]
    split
    · rename_i call hi
      have hcall : call.Plain := by
        have := h.plain i
        rwa [hi] at this
      split
      · rename_i r hr
        obtain ⟨hphase, hrunning⟩ := criticalSection_plain hcall h.running hr
        refine ⟨hrunning, plain_update h.plain hphase, fun cv => (h.served cv).enter hi ?_⟩
        refine criticalSection_serves cv hcall h.running hr ?_
        rintro rfl
        exact henough call hi
      · exact h
    · exact h
  | next i target =>
    simp only [MpmcBoundedQueue.step]
    split
    · rename_i n todo next hi
      have hnext : (Phase.unlocked todo next).Plain := by
        have := h.plain i
        rw [hi] at this
        cases next <;> exact this
      split
      · rename_i threads hthreads
        refine ⟨h.running, plain_update (fun j => ?_) hnext, fun cv => (h.served cv).notify h.plain hi hthreads⟩
        obtain hsame | ⟨-, hwake⟩ := Notify.perform_apply hthreads j
        · rw [hsame]
          exact h.plain j
        · rw [hwake]
          exact (h.plain j).wake
      · exact h
    · rename_i call hi
      have hcall : call.Plain := by
        have := h.plain i
        rwa [hi] at this
      -- all its notifications are sent, and it waits again
      refine ⟨h.running, plain_update h.plain hcall, fun cv => (h.served cv).update rfl ?_ ?_ ?_⟩
      all_goals
        rw [hi]
        exact Nat.zero_le _
    · rename_i result hi
      -- all its notifications are sent, and it returns
      refine ⟨h.running, plain_update h.plain trivial, fun cv => (h.served cv).update rfl ?_ ?_ ?_⟩
      all_goals
        rw [hi]
        exact Nat.zero_le _
    · exact h
  | wake i => exact absurd hplain (by simp [Action.isPlain])
  | timeout i => exact absurd hplain (by simp [Action.isPlain])

omit [DecidableEq ι] in
/-- Where the parked are served, nobody is stuck. -/
theorem System.Attended.not_stuck (h : s.Attended) : ¬s.Stuck := by
  rintro ⟨i, cv, hi, hwork, hothers⟩
  have hnone : ∀ j, (s.threads j).coming cv = 0 ∧ (s.threads j).comingAll cv = 0 ∧ (s.threads j).hand cv = 0 := by
    intro j
    have hasleep : (s.threads j).isAsleep = true := by
      by_cases hj : j = i
      · obtain ⟨call, hcall⟩ := Phase.isParkedOn_iff.1 hi
        rw [hj, hcall]
        rfl
      · exact hothers j hj
    cases hphase : s.threads j with
    | idle => exact ⟨rfl, rfl, rfl⟩
    | parked cv' call => exact ⟨rfl, rfl, rfl⟩
    | ready call => exact absurd hasleep (by simp [hphase, Phase.isAsleep])
    | unlocked todo next => exact absurd hasleep (by simp [hphase, Phase.isAsleep])
  have hwaits : 1 ≤ Threads.total (Phase.waits cv) s.threads :=
    le_trans (if_pos hi).ge (Threads.le_total (Phase.waits cv) s.threads i)
  have hserved := h.served cv
  rw [Served, Threads.total_eq_zero fun j => (hnone j).1, Threads.total_eq_zero fun j => (hnone j).2.1,
    Threads.total_eq_zero fun j => (hnone j).2.2] at hserved
  omega

/-- **No lost wake-up**: nobody is left parked with something to do while all others are
asleep, in every run in which batch pops notify enough producers. -/
theorem no_lost_wakeup (maxSize : ℕ) {actions : List (Action ι T)}
    (hplain : ∀ action ∈ actions, action.isPlain = true)
    (hm : Run.Meets NotifiesEnough step (init maxSize : System ι T) actions) :
    ¬(actions.foldl step (init maxSize : System ι T)).Stuck :=
  ((hm.and_forall hplain).invariant System.Attended (fun _ _ h hok => h.step hok.1 hok.2)
    (.init maxSize)).not_stuck

/-- Two producers and a consumer on a queue of one place. -/
theorem no_lost_wakeup_one :
    let actions : List (Action (Fin 3) ℕ) := [.call 0 (.push 1), .enter 0, .call 1 (.push 2), .enter 1,
      .call 2 (.popMany 1), .enter 2, .next 2 (some 1)]
    ¬(actions.foldl step (init 1)).Stuck := by
  refine no_lost_wakeup 1 (by decide) ⟨trivial, ?_, trivial, ?_, trivial, ?_, trivial, trivial⟩
  · rintro call hcall
    obtain rfl : Call.push 1 = call := Phase.ready.inj hcall
    exact trivial
  · rintro call hcall
    obtain rfl : Call.push 2 = call := Phase.ready.inj hcall
    exact trivial
  · rintro call hcall
    obtain rfl : Call.popMany 1 [] = call := Phase.ready.inj hcall
    exact .inl (by decide)

/-- A `pop(2)` takes the one element there is and parks: the producer that waits for the
place is not notified, and both sleep with room in the queue. -/
theorem producer_stuck :
    let actions : List (Action (Fin 3) ℕ) := [.call 0 (.push 1), .enter 0, .next 0 none, .next 0 none,
      .call 1 (.push 2), .enter 1, .call 2 (.popMany 2), .enter 2]
    (∀ action ∈ actions, action.isPlain = true) ∧ (actions.foldl step (init 1)).Stuck := by
  refine ⟨by decide, 1, .full, by decide, by decide, ?_⟩
  decide

end ProjectTrans.MpmcBoundedQueue
