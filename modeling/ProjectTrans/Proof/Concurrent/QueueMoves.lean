import ProjectTrans.Proof.Concurrent.ExactlyOnce

/-!
# Moves of the bounded queue

Neither special member function moves `m_max_size`: a move-constructed queue has the
capacity 0 of the member's initializer, a move-assigned one keeps its own.
`moves_carry_iff`: the moves of a run carry their queue over, and no queue gets longer than
its capacity, exactly when capacities already agree at every move.
-/

namespace ProjectTrans.MpmcBoundedQueue

variable {T : Type*} {f : Fleet T} {u : Use T}

/-- A move makes the destination what the source was: its elements, capacity and flag. -/
def Fleet.Carries (f : Fleet T) : Use T → Prop
  | .moveConstruct i source => f i = none → (f source).isSome → f.use (.moveConstruct i source) i = f source
  | .moveAssign i source => (f i).isSome → (f source).isSome → f.use (.moveAssign i source) i = f source
  | _ => True

/-- No queue is longer than its capacity. -/
def Fleet.WithinCapacity (f : Fleet T) : Prop := ∀ i q, f i = some q → q.queue.length ≤ q.maxSize

/-- The capacity that the destination of a move will have is the one of the source. -/
def Fleet.SameCapacity (f : Fleet T) : Use T → Prop
  | .moveConstruct i source => f i = none → ∀ other, f source = some other → other.maxSize = 0
  | .moveAssign i source => ∀ q other, f i = some q → f source = some other → q.maxSize = other.maxSize
  | _ => True

/-! ## One use -/

theorem Fleet.use_moveConstruct {i source : ℕ} {other : MpmcBoundedQueue T} (hi : f i = none)
    (hsource : f source = some other) :
    f.use (.moveConstruct i source) =
      Function.update (Function.update f source (some { other with queue := [], isRunning := false })) i
        (some ⟨0, other.queue, other.isRunning⟩) := by
  simp only [use, hi, hsource, moveConstruct]

theorem Fleet.use_moveAssign {i source : ℕ} {q other : MpmcBoundedQueue T} (hne : i ≠ source) (hi : f i = some q)
    (hsource : f source = some other) :
    f.use (.moveAssign i source) =
      Function.update (Function.update f source (some { other with queue := [], isRunning := false })) i
        (some { q with queue := other.queue, isRunning := other.isRunning }) := by
  simp only [use, if_neg hne, hi, hsource, moveAssign]

/-- **A move carries everything over** exactly when the capacities agree. -/
theorem Fleet.carries_iff : f.Carries u ↔ f.SameCapacity u := by
  cases u with
  | construct i maxSize => exact Iff.rfl
  | enter i call => exact Iff.rfl
  | moveConstruct i source =>
    -- the constructed queue has the capacity 0, whatever it takes over
    refine forall_congr' fun hi => ?_
    cases hsource : f source with
    | none => simp
    | some other =>
      rw [use_moveConstruct hi hsource, Function.update_self]
      constructor
      · intro h other' hother
        rw [← Option.some.inj hother]
        exact (congrArg maxSize (Option.some.inj (h rfl))).symm
      · intro h _
        rw [← h other rfl]
  | moveAssign i source =>
    by_cases hne : i = source
    · subst hne
      -- assignment to itself returns at once
      have huse : f.use (.moveAssign i i) = f := if_pos rfl
      rw [Carries, SameCapacity, huse]
      refine iff_of_true (fun _ _ => rfl) fun q other hq hother => ?_
      rw [Option.some.inj (hq.symm.trans hother)]
    · rw [Carries, SameCapacity]
      cases hi : f i with
      | none => simp
      | some q =>
        cases hsource : f source with
        | none => simp
        | some other =>
          rw [use_moveAssign hne hi hsource, Function.update_self]
          constructor
          · intro h q' other' hq hother
            rw [← Option.some.inj hq, ← Option.some.inj hother]
            have hcarried := congrArg maxSize (Option.some.inj (h rfl rfl))
            exact hcarried
          · intro h _ _
            rw [h q other rfl rfl]

theorem takeOne_within (q : MpmcBoundedQueue T) (hq : q.queue.length ≤ q.maxSize) :
    q.takeOne.queue.queue.length ≤ q.takeOne.queue.maxSize := by
  unfold takeOne
  split
  · exact hq
  · rename_i item rest hqueue
    rw [hqueue, List.length_cons] at hq
    exact Nat.le_of_succ_le hq

/-- A critical section keeps the queue within its capacity. -/
theorem criticalSection_within {q : MpmcBoundedQueue T} {call : Call T} {r : Section T}
    (h : q.criticalSection call = some r) (hq : q.queue.length ≤ q.maxSize) :
    r.queue.queue.length ≤ r.queue.maxSize := by
  cases criticalSection_outcome h with
  | popTakes => exact takeOne_within q hq
  | tryPop => exact takeOne_within q hq
  | popTimedTakes => exact takeOne_within q hq
  | popManyDone =>
    simp only [List.length_drop]
    omega
  | popManyWaits => exact Nat.zero_le _
  | popManyClosed => exact Nat.zero_le _
  | tryPopMany =>
    simp only [List.length_drop]
    omega
  | pushDone item hroom =>
    simp only [List.length_append, List.length_singleton]
    omega
  | rangeFills nums rest isPushed hnums hroom hrest =>
    simp only [List.length_append, List.length_take]
    omega
  | popWaits => exact hq
  | popTimedWaits => exact hq
  | pushClosed => exact hq
  | pushWaits => exact hq
  | rangeDone => exact hq
  | rangeClosed => exact hq
  | rangeWaits => exact hq
  | close => exact hq

theorem Fleet.WithinCapacity.update (h : f.WithinCapacity) {i : ℕ} {q : MpmcBoundedQueue T}
    (hq : q.queue.length ≤ q.maxSize) : WithinCapacity (Function.update f i (some q)) := by
  intro j p hj
  by_cases hji : j = i
  · subst hji
    rw [Function.update_self] at hj
    rw [← Option.some.inj hj]
    exact hq
  · rw [Function.update_of_ne hji] at hj
    exact h j p hj

/-- A use keeps every queue within its capacity, when moves are between equal capacities. -/
theorem Fleet.WithinCapacity.use (h : f.WithinCapacity) (hsame : f.SameCapacity u) :
    (f.use u).WithinCapacity := by
  cases u with
  | construct i maxSize =>
    cases hi : f i with
    | none =>
      simp only [Fleet.use, hi]
      exact h.update (Nat.zero_le _)
    | some q =>
      simp only [Fleet.use, hi]
      exact h
  | moveConstruct i source =>
    cases hi : f i with
    | some q =>
      simp only [Fleet.use, hi]
      exact h
    | none =>
      cases hsource : f source with
      | none =>
        simp only [Fleet.use, hi, hsource]
        exact h
      | some other =>
        rw [use_moveConstruct hi hsource]
        -- the elements fit, as the capacity is the same
        have hlength := h source other hsource
        rw [hsame hi other hsource] at hlength
        exact (h.update (Nat.zero_le _)).update hlength
  | moveAssign i source =>
    by_cases hne : i = source
    · simp only [Fleet.use, if_pos hne]
      exact h
    · cases hi : f i with
      | none =>
        simp only [Fleet.use, if_neg hne, hi]
        exact h
      | some q =>
        cases hsource : f source with
        | none =>
          simp only [Fleet.use, if_neg hne, hi, hsource]
          exact h
        | some other =>
          rw [use_moveAssign hne hi hsource]
          have hlength := h source other hsource
          rw [← hsame q other hi hsource] at hlength
          exact (h.update (Nat.zero_le _)).update hlength
  | enter i call =>
    cases hi : f i with
    | none =>
      simp only [Fleet.use, hi]
      exact h
    | some q =>
      cases hr : q.criticalSection call with
      | none =>
        simp only [Fleet.use, hi, hr]
        exact h
      | some r =>
        simp only [Fleet.use, hi, hr]
        exact h.update (criticalSection_within hr (h i q hi))

/-! ## Runs -/

/-- **Moves between equal capacities carry the queue over**, and only these do: over every
run of constructions, moves and critical sections on any number of queues. -/
theorem moves_carry_iff (uses : List (Use T)) :
    Run.Meets (fun f u => f.Carries u ∧ (f.use u).WithinCapacity) Fleet.use (fun _ => none) uses ↔
      Run.Meets Fleet.SameCapacity Fleet.use (fun _ => none) uses := by
  have hinit : Fleet.WithinCapacity (fun _ => none : Fleet T) := fun i q hq => nomatch hq
  constructor
  · intro hm
    exact hm.imp_of_invariant (fun _ => True) (fun f u _ h => ⟨trivial, Fleet.carries_iff.1 h.1⟩) trivial
  · intro hm
    refine hm.imp_of_invariant Fleet.WithinCapacity (fun f u h hsame => ?_) hinit
    exact ⟨h.use hsame, Fleet.carries_iff.2 hsame, h.use hsame⟩

/-- The queue of 128 that is assigned to a member of 50, and has room for 50. -/
theorem mailbox_keeps_fifty :
    ¬ ∀ uses : List (Use ℕ), (∀ i maxSize, .construct i maxSize ∈ uses → 0 < maxSize) →
      Run.Meets (fun f u => f.Carries u ∧ (f.use u).WithinCapacity) Fleet.use (fun _ => none) uses := by
  intro h
  have hm := h [.construct 0 50, .construct 1 128, .moveAssign 0 1] (by simp; omega)
  have hsame := (hm.2.2.1).1 rfl rfl
  exact absurd hsame (by decide)

end ProjectTrans.MpmcBoundedQueue
