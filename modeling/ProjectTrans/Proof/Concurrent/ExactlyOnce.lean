import ProjectTrans.Lib.Run
import ProjectTrans.Lib.Threads
import ProjectTrans.Model.Concurrent.MpmcBoundedQueue

/-!
# Elements of the bounded queue, exactly once

What has entered the queue has left it in the same order or is still in it, and what has
left it was returned to one caller or is in the hands of one `pop` on its way. The one way
to lose elements is a `pop(n)` that finds the queue closed and too short (`exactly_once`).
-/

namespace ProjectTrans.MpmcBoundedQueue

variable {ι T : Type*} [Fintype ι]

/-- The elements a call has collected. -/
def Call.held : Call T → Multiset T
  | .popMany _ result => ↑result
  | _ => 0

/-- The elements a result brings. -/
def Result.elements : Result T → Multiset T
  | .item (some value) => {value}
  | .items (some values) => ↑values
  | _ => 0

/-- The elements in the hands of a thread. -/
def Phase.held : Phase T → Multiset T
  | .idle => 0
  | .ready call => call.held
  | .parked _ call => call.held
  | .unlocked _ (.inl call) => call.held
  | .unlocked _ (.inr result) => result.elements

/-- Elements leave in the order they entered, and each that has left was returned once or
is in one thread's hands. -/
structure System.ExactlyOnce (s : System ι T) : Prop where
  fifo : s.entered = s.left ++ s.queue.queue
  kept : (s.left : Multiset T) =
    (s.returned.map fun r => r.2.elements).sum + Threads.total Phase.held s.threads

/-- The call takes elements and returns none: a `pop(n)` on a closed queue without enough of them. -/
def Call.Loses (q : MpmcBoundedQueue T) : Call T → Prop
  | .popMany nums result =>
    q.isRunning = false ∧ q.queue.length < (nums - result.length).toNat ∧ (result ≠ [] ∨ q.queue ≠ [])
  | _ => False

/-- No critical section loses elements. -/
def Keeps (s : System ι T) : Action ι T → Prop
  | .enter i => ∀ call, s.threads i = .ready call → ¬call.Loses s.queue
  | _ => True

theorem System.ExactlyOnce.init (maxSize : ℕ) : (init maxSize : System ι T).ExactlyOnce :=
  ⟨rfl, by simp [MpmcBoundedQueue.init, Threads.total, Phase.held]⟩

/-! ## Critical sections -/

/-- **The loop of a batch**: it takes a prefix of the queue. -/
theorem popLoop_eq (n : ℕ) (queue result : List T) :
    popLoop n queue result = (result ++ queue.take n, queue.drop n, decide (n ≤ queue.length)) := by
  induction n generalizing queue result with
  | zero => simp [popLoop]
  | succ n ih =>
    cases queue with
    | nil => simp [popLoop]
    | cons item queue =>
      rw [popLoop, ih]
      simp

variable {q : MpmcBoundedQueue T} {call : Call T} {r : Section T}

/-- **What a critical section can do**, call by call. -/
inductive Outcome (q : MpmcBoundedQueue T) : Call T → Section T → Prop
  | popWaits (hempty : q.queue = []) (hrunning : q.isRunning = true) :
    Outcome q .pop { queue := q, phase := .parked .empty .pop }
  | popTakes (hsome : q.isRunning = true → q.queue ≠ []) : Outcome q .pop q.takeOne
  | popManyDone (nums : ℤ) (result : List T) (henough : (nums - result.length).toNat ≤ q.queue.length) :
    Outcome q (.popMany nums result)
      { queue := { q with queue := q.queue.drop (nums - result.length).toNat }
        left := q.queue.take (nums - result.length).toNat
        phase := .unlocked [⟨.full, false⟩]
          (.inr (.items (some (result ++ q.queue.take (nums - result.length).toNat)))) }
  | popManyWaits (nums : ℤ) (result : List T) (hshort : q.queue.length < (nums - result.length).toNat)
    (hrunning : q.isRunning = true) :
    Outcome q (.popMany nums result)
      { queue := { q with queue := [] }
        left := q.queue
        phase := .parked .empty (.popMany nums (result ++ q.queue)) }
  | popManyClosed (nums : ℤ) (result : List T) (hshort : q.queue.length < (nums - result.length).toNat)
    (hclosed : q.isRunning = false) :
    Outcome q (.popMany nums result)
      { queue := { q with queue := [] }
        left := q.queue
        phase := .unlocked [] (.inr (.items none)) }
  | tryPop : Outcome q .tryPop q.takeOne
  | tryPopMany (nums : ℕ) :
    Outcome q (.tryPopMany nums)
      { queue := { q with queue := q.queue.drop nums }
        left := q.queue.take nums
        phase := .unlocked (if nums ≤ q.queue.length then [⟨.full, true⟩] else [])
          (.inr (.items (some (q.queue.take nums)))) }
  | popTimedWaits (expired : Bool) :
    Outcome q (.popTimed expired) { queue := q, phase := .parked .empty (.popTimed false) }
  | popTimedTakes (expired : Bool) : Outcome q (.popTimed expired) q.takeOne
  | pushClosed (item : T) (hclosed : q.isRunning = false) :
    Outcome q (.push item) { queue := q, phase := .unlocked [] (.inr (.pushed false)) }
  | pushDone (item : T) (hroom : q.queue.length < q.maxSize) :
    Outcome q (.push item)
      { queue := { q with queue := q.queue ++ [item] }
        entered := [item]
        phase := .unlocked [⟨.empty, false⟩] (.inr (.pushed true)) }
  | pushWaits (item : T) (hfull : q.maxSize ≤ q.queue.length) :
    Outcome q (.push item) { queue := q, phase := .parked .full (.push item) }
  | rangeDone (rest : List T) (isPushed : Bool) :
    Outcome q (.pushRange 0 rest isPushed) { queue := q, phase := .unlocked [] (.inr (.pushed isPushed)) }
  | rangeClosed (nums : ℕ) (rest : List T) (isPushed : Bool) (hclosed : q.isRunning = false) :
    Outcome q (.pushRange nums rest isPushed) { queue := q, phase := .unlocked [] (.inr (.pushed false)) }
  | rangeFills (nums : ℕ) (rest : List T) (isPushed : Bool) (hnums : 0 < nums)
    (hroom : q.queue.length < q.maxSize)
    (hrest : min nums (q.maxSize - q.queue.length) ≤ rest.length) :
    Outcome q (.pushRange nums rest isPushed)
      { queue := { q with queue := q.queue ++ rest.take (min nums (q.maxSize - q.queue.length)) }
        entered := rest.take (min nums (q.maxSize - q.queue.length))
        phase := .unlocked [⟨.empty, true⟩]
          (.inl (.pushRange (nums - min nums (q.maxSize - q.queue.length))
            (rest.drop (min nums (q.maxSize - q.queue.length))) true)) }
  | rangeWaits (nums : ℕ) (rest : List T) (isPushed : Bool) (hnums : 0 < nums)
    (hfull : q.maxSize ≤ q.queue.length) :
    Outcome q (.pushRange nums rest isPushed)
      { queue := q, phase := .parked .full (.pushRange nums rest isPushed) }
  | close :
    Outcome q .close
      { queue := { q with isRunning := false }
        phase := .unlocked [⟨.empty, true⟩, ⟨.full, true⟩] (.inr .closed) }

theorem popMany_outcome {nums : ℤ} {result : List T} (h : q.criticalSection (.popMany nums result) = some r) :
    Outcome q (.popMany nums result) r := by
  simp only [criticalSection, popLoop_eq] at h
  by_cases henough : (nums - result.length).toNat ≤ q.queue.length
  · simp only [henough, decide_true, List.drop_left] at h
    obtain rfl := Option.some.inj h
    exact .popManyDone nums result henough
  · have hshort := Nat.lt_of_not_le henough
    -- everything that is there is collected
    simp only [henough, decide_false, List.take_of_length_le hshort.le, List.drop_of_length_le hshort.le,
      List.drop_left] at h
    obtain rfl := Option.some.inj h
    by_cases hrunning : q.isRunning = true
    · rw [if_pos hrunning]
      exact .popManyWaits nums result hshort hrunning
    · rw [if_neg hrunning]
      exact .popManyClosed nums result hshort (by simpa using hrunning)

theorem pushRange_outcome {nums : ℕ} {rest : List T} {isPushed : Bool}
    (h : q.criticalSection (.pushRange nums rest isPushed) = some r) :
    Outcome q (.pushRange nums rest isPushed) r := by
  simp only [criticalSection] at h
  split at h
  · rename_i hzero
    obtain rfl := Option.some.inj h
    subst hzero
    exact .rangeDone rest isPushed
  rename_i hnums
  split at h
  · rename_i hclosed
    obtain rfl := Option.some.inj h
    exact .rangeClosed nums rest isPushed (by simpa using hclosed)
  split at h
  · rename_i hroom
    split at h
    · rename_i hrest
      obtain rfl := Option.some.inj h
      exact .rangeFills nums rest isPushed (Nat.pos_of_ne_zero hnums) hroom hrest
    · exact absurd h (by simp)
  · rename_i hfull
    obtain rfl := Option.some.inj h
    exact .rangeWaits nums rest isPushed (Nat.pos_of_ne_zero hnums) (Nat.le_of_not_lt hfull)

theorem criticalSection_outcome (h : q.criticalSection call = some r) : Outcome q call r := by
  cases call with
  | pop =>
    simp only [criticalSection] at h
    split at h
    · rename_i hwaits
      obtain rfl := Option.some.inj h
      rw [Bool.and_eq_true, List.isEmpty_iff] at hwaits
      exact .popWaits hwaits.1 hwaits.2
    · rename_i htakes
      obtain rfl := Option.some.inj h
      exact .popTakes fun hrunning hempty => htakes (by simp [hrunning, hempty])
  | popMany nums result => exact popMany_outcome h
  | tryPop =>
    obtain rfl := Option.some.inj h
    exact .tryPop
  | tryPopMany nums =>
    simp only [criticalSection, popLoop_eq, List.nil_append, decide_eq_true_eq] at h
    obtain rfl := Option.some.inj h
    exact .tryPopMany nums
  | popTimed expired =>
    simp only [criticalSection] at h
    split at h
    · obtain rfl := Option.some.inj h
      exact .popTimedWaits expired
    · obtain rfl := Option.some.inj h
      exact .popTimedTakes expired
  | push item =>
    simp only [criticalSection] at h
    split at h
    · rename_i hclosed
      obtain rfl := Option.some.inj h
      exact .pushClosed item (by simpa using hclosed)
    split at h
    · rename_i hroom
      obtain rfl := Option.some.inj h
      exact .pushDone item hroom
    · rename_i hfull
      obtain rfl := Option.some.inj h
      exact .pushWaits item (Nat.le_of_not_lt hfull)
  | pushRange nums rest isPushed => exact pushRange_outcome h
  | close =>
    obtain rfl := Option.some.inj h
    exact .close

/-- What leaves leaves from the front, what enters enters at the back. -/
def Section.Fifo (q : MpmcBoundedQueue T) (r : Section T) : Prop := q.queue ++ r.entered = r.left ++ r.queue.queue

/-- What leaves the queue is in the hands of the thread. -/
def Section.Held (call : Call T) (r : Section T) : Prop := r.phase.held = call.held + r.left

theorem takeOne_fifo : q.takeOne.Fifo q := by
  unfold takeOne Section.Fifo
  split
  · simp
  · rename_i item rest h
    simp [h]

theorem takeOne_held (h : call.held = 0) : q.takeOne.Held call := by
  unfold takeOne Section.Held
  split <;> simp [h, Phase.held, Result.elements]

/-- **Critical sections are FIFO.** -/
theorem criticalSection_fifo (h : q.criticalSection call = some r) : r.Fifo q := by
  cases criticalSection_outcome h with
  | popTakes hsome => exact takeOne_fifo
  | tryPop => exact takeOne_fifo
  | popTimedTakes expired => exact takeOne_fifo
  | popManyDone nums result henough => exact (List.append_nil _).trans (List.take_append_drop _ _).symm
  | tryPopMany nums => exact (List.append_nil _).trans (List.take_append_drop _ _).symm
  | popManyWaits nums result hshort hrunning => rfl
  | popManyClosed nums result hshort hclosed => rfl
  | pushDone item hroom => rfl
  | rangeFills nums rest isPushed hnums hroom hrest => rfl
  | popWaits hempty hrunning => exact List.append_nil _
  | popTimedWaits expired => exact List.append_nil _
  | pushClosed item hclosed => exact List.append_nil _
  | pushWaits item hfull => exact List.append_nil _
  | rangeDone rest isPushed => exact List.append_nil _
  | rangeClosed nums rest isPushed hclosed => exact List.append_nil _
  | rangeWaits nums rest isPushed hnums hfull => exact List.append_nil _
  | close => exact List.append_nil _

/-- **What a call takes it holds**, unless it loses it. -/
theorem criticalSection_held (h : q.criticalSection call = some r) (hkeeps : ¬call.Loses q) : r.Held call := by
  cases criticalSection_outcome h with
  | popTakes hsome => exact takeOne_held rfl
  | tryPop => exact takeOne_held rfl
  | popTimedTakes expired => exact takeOne_held rfl
  | popManyDone nums result henough => exact (Multiset.coe_add result _).symm
  | popManyWaits nums result hshort hrunning => exact (Multiset.coe_add result _).symm
  | popManyClosed nums result hshort hclosed =>
    -- nothing was collected, and nothing is there
    have hnone : result = [] ∧ q.queue = [] := by
      by_contra hsome
      exact hkeeps ⟨hclosed, hshort, not_and_or.1 hsome⟩
    obtain ⟨rfl, hempty⟩ := hnone
    simp [Section.Held, Phase.held, Call.held, Result.elements, hempty]
  | tryPopMany nums => simp [Section.Held, Phase.held, Call.held, Result.elements]
  | popWaits hempty hrunning => rfl
  | popTimedWaits expired => rfl
  | pushClosed item hclosed => rfl
  | pushDone item hroom => rfl
  | pushWaits item hfull => rfl
  | rangeDone rest isPushed => rfl
  | rangeClosed nums rest isPushed hclosed => rfl
  | rangeFills nums rest isPushed hnums hroom hrest => rfl
  | rangeWaits nums rest isPushed hnums hfull => rfl
  | close => rfl

/-! ## Steps -/

variable [DecidableEq ι] {s : System ι T}

/-- Waking up changes nobody's hands. -/
@[simp] theorem Phase.wake_held (phase : Phase T) : phase.wake.held = phase.held := by
  cases phase <;> rfl

/-- What a notification does: it wakes all that are parked, or one that is, or nobody is. -/
theorem Notify.perform_cases {n : Notify} {target : Option ι} {threads threads' : ι → Phase T}
    (h : n.perform target threads = some threads') :
    (n.all = true ∧ threads' = fun j => if (threads j).isParkedOn n.cv then (threads j).wake else threads j) ∨
      n.all = false ∧
        ((∃ j, (threads j).isParkedOn n.cv = true ∧ threads' = Function.update threads j (threads j).wake) ∨
          (∀ j, (threads j).isParkedOn n.cv = false) ∧ threads' = threads) := by
  unfold perform at h
  split at h
  · rename_i hall
    exact .inl ⟨hall, (Option.some.inj h).symm⟩
  rename_i hall
  refine .inr ⟨Bool.eq_false_of_not_eq_true hall, ?_⟩
  split at h
  · rename_i j
    split at h
    · rename_i hj
      exact .inl ⟨j, hj, (Option.some.inj h).symm⟩
    · exact absurd h (by simp)
  · split at h
    · exact absurd h (by simp)
    · rename_i hnone
      exact .inr ⟨fun j => Bool.eq_false_of_not_eq_true fun hj => hnone ⟨j, hj⟩, (Option.some.inj h).symm⟩

/-- Notifications change nobody's hands, nor any thread that is not parked. -/
theorem Notify.perform_held {n : Notify} {target : Option ι} {threads threads' : ι → Phase T}
    (h : n.perform target threads = some threads') : ∀ j, (threads' j).held = (threads j).held := by
  intro j
  obtain ⟨-, rfl⟩ | ⟨-, ⟨k, -, rfl⟩ | ⟨-, rfl⟩⟩ := perform_cases h
  · dsimp only
    split
    · exact Phase.wake_held _
    · rfl
  · by_cases hj : j = k
    · subst hj
      rw [Function.update_self, Phase.wake_held]
    · rw [Function.update_of_ne hj]
  · rfl

/-- A thread goes on with as much in its hands. -/
theorem System.ExactlyOnce.of_held (h : s.ExactlyOnce) {i : ι} {phase : Phase T} {threads : ι → Phase T}
    (hthreads : ∀ j, (threads j).held = (s.threads j).held) (hphase : phase.held = (s.threads i).held) :
    { s with threads := Function.update threads i phase }.ExactlyOnce := by
  refine ⟨h.fifo, h.kept.trans ?_⟩
  have htotal : Threads.total Phase.held threads = Threads.total Phase.held s.threads :=
    Finset.sum_congr rfl fun j _ => hthreads j
  rw [Threads.total_update_of_eq Phase.held threads (by rw [hphase, hthreads]), htotal]

theorem System.ExactlyOnce.enter (h : s.ExactlyOnce) {i : ι} (hi : s.threads i = .ready call)
    (hkeeps : ¬call.Loses s.queue) (hr : s.queue.criticalSection call = some r) :
    { s with
      queue := r.queue
      threads := Function.update s.threads i r.phase
      entered := s.entered ++ r.entered
      left := s.left ++ r.left }.ExactlyOnce := by
  have hfifo : s.queue.queue ++ r.entered = r.left ++ r.queue.queue := criticalSection_fifo hr
  have hheld : r.phase.held = call.held + r.left := criticalSection_held hr hkeeps
  refine ⟨?_, ?_⟩
  · show s.entered ++ r.entered = s.left ++ r.left ++ r.queue.queue
    rw [h.fifo, List.append_assoc, hfifo, List.append_assoc]
  · have htotal := Threads.total_update Phase.held s.threads i r.phase
    rw [hi, hheld, Phase.held] at htotal
    have hcancel : Threads.total Phase.held (Function.update s.threads i r.phase) =
        Threads.total Phase.held s.threads + r.left := by
      refine add_right_cancel (b := call.held) (htotal.trans ?_)
      abel
    show ((s.left ++ r.left : List T) : Multiset T) = _ + Threads.total Phase.held
      (Function.update s.threads i r.phase)
    rw [hcancel, ← Multiset.coe_add, h.kept, add_assoc]

/-- One step keeps every element. -/
theorem System.ExactlyOnce.step (h : s.ExactlyOnce) {action : Action ι T} (hkeeps : Keeps s action) :
    (step s action).ExactlyOnce := by
  cases action with
  | call i op =>
    simp only [MpmcBoundedQueue.step]
    split
    · rename_i hi
      refine h.of_held (fun _ => rfl) ?_
      rw [hi]
      cases op <;> rfl
    · exact h
  | enter i =>
    simp only [MpmcBoundedQueue.step]
    split
    · rename_i call hi
      split
      · rename_i r hr
        exact h.enter hi (hkeeps call hi) hr
      · exact h
    · exact h
  | next i target =>
    simp only [MpmcBoundedQueue.step]
    split
    · rename_i n todo next hi
      split
      · rename_i threads hthreads
        -- a notification moves no element
        refine h.of_held (Notify.perform_held hthreads) ?_
        rw [hi]
        cases next <;> rfl
      · exact h
    · rename_i call hi
      refine h.of_held (fun _ => rfl) ?_
      rw [hi]
      rfl
    · -- the thread returns, and its elements go to the caller
      rename_i result hi
      refine ⟨h.fifo, h.kept.trans ?_⟩
      have htotal := Threads.total_update Phase.held s.threads i .idle
      rw [hi, Phase.held, Phase.held, add_zero] at htotal
      rw [← htotal, List.map_append, List.sum_append]
      simp only [List.map_cons, List.map_nil, List.sum_cons, List.sum_nil, add_zero]
      abel
    · exact h
  | wake i => exact h.of_held (fun _ => rfl) (Phase.wake_held _)
  | timeout i =>
    simp only [MpmcBoundedQueue.step]
    split
    · rename_i hi
      refine h.of_held (fun _ => rfl) ?_
      rw [hi]
      rfl
    · exact h

/-- **Every element is returned exactly once or still there**, and elements leave in the
order they entered, in every run without a `pop(n)` that loses elements. -/
theorem exactly_once (maxSize : ℕ) {actions : List (Action ι T)}
    (hm : Run.Meets Keeps step (init maxSize : System ι T) actions) :
    (actions.foldl step (init maxSize : System ι T)).ExactlyOnce :=
  hm.invariant _ (fun _ _ h hkeeps => h.step hkeeps) (.init maxSize)

instance (q : MpmcBoundedQueue T) : DecidablePred (Call.Loses q) := fun call =>
  match call with
  | .popMany _ _ => inferInstanceAs (Decidable (_ ∧ _ ∧ (_ ∨ _)))
  | .pop | .tryPop | .tryPopMany _ | .popTimed _ | .push _ | .pushRange _ _ _ | .close =>
    inferInstanceAs (Decidable False)

instance (s : System ι T) : DecidablePred (Keeps s) := fun action =>
  match action with
  | .enter i =>
    match hi : s.threads i with
    | .ready call => decidable_of_iff (¬call.Loses s.queue) (by simp [Keeps, hi])
    | .idle | .parked _ _ | .unlocked _ _ => isTrue (by simp [Keeps, hi])
  | .call _ _ | .next _ _ | .wake _ | .timeout _ => isTrue trivial

/-- A batch of three waits with the first two elements until the third is pushed, by another
thread; what is pushed then is still popped after the queue is closed. -/
theorem exactly_once_batch :
    let actions : List (Action (Fin 3) ℕ) :=
      [.call 0 (.popMany 3), .enter 0, .call 1 (.pushRange [7, 8]), .enter 1, .next 1 none, .enter 0,
        .call 2 (.push 9), .enter 2, .next 2 (some 0), .next 1 none, .enter 1, .next 1 none,
      .next 2 none, .enter 0, .next 0 none, .next 0 none, .call 1 (.push 10), .enter 1, .next 1 none,
        .next 1 none,
      .call 2 .close, .enter 2, .next 2 none, .call 0 .pop, .enter 0, .next 0 none, .next 0 none, .next 2 none,
      .next 2 none]
    let last := actions.foldl step (init 2)
    last.returned = [(1, .pushed true), (2, .pushed true), (0, .items (some [7, 8, 9])), (1, .pushed true),
      (0, .item (some 10)), (2, .closed)] ∧ last.ExactlyOnce :=
  ⟨by decide +kernel, exactly_once 2 (by decide +kernel)⟩

/-- A `pop(2)` has collected one element and waits for another when the queue is closed:
it returns without the element, which nobody else gets. -/
theorem collected_lost :
    let actions : List (Action (Fin 2) ℕ) := [.call 0 (.push 7), .enter 0, .next 0 none, .next 0 none,
      .call 1 (.popMany 2), .enter 1, .call 0 .close, .enter 0, .next 0 none, .enter 1, .next 1 none]
    let last := actions.foldl step (init 1)
    last.returned = [(0, .pushed true), (1, .items none)] ∧ last.queue.queue = [] ∧ last.left = [7] ∧
      ¬last.ExactlyOnce := by
  refine ⟨by decide, by decide, by decide, fun h => ?_⟩
  exact absurd h.kept (by decide)

end ProjectTrans.MpmcBoundedQueue
