import ProjectTrans.Lib.Run
import ProjectTrans.Model.Condition.RangeCondition
import ProjectTrans.Proof.Condition.Interval

/-!
# Range conditions over a run

`add_range` evaluates a sequence of ranges from left to right (`run_isInRange`) in every
run in which no step goes wrong at the infinite ends. Two things go wrong there. And and
Not take an interval that is `Opposed` to the operand for one that does not intersect it.
And the merging sweep joins an interval without left end and one without right end across
the gap between them, unless something that lies apart from both comes between.
-/

namespace ProjectTrans

open Cuts SingleInterval

variable {α : Type*} [LinearOrder α]

namespace RangeCondition

theorem isInRange_iff {c : RangeCondition α} {v : α} :
    c.isInRange v = true ↔ ∃ I ∈ c.intervals, I.isInRange v = true := List.any_eq_true

/-- The values that are missing are not one gap: there are none, or a value that is
present has some on both sides. -/
def NotOneGap (present : α → Prop) : Prop :=
  (∀ v, present v) ∨ ∃ v w u, v < w ∧ w < u ∧ ¬present v ∧ present w ∧ ¬present u

/-! ## The merging sweep -/

theorem exists_mem_concat {β : Type*} {l : List β} {b : β} {p : β → Prop} :
    (∃ a ∈ l ++ [b], p a) ↔ (∃ a ∈ l, p a) ∨ p b := by
  simp only [List.mem_append, List.mem_singleton, or_and_right, exists_or, exists_eq_left]

/-- Sweeping over these intervals closes no gap: none of them is without left end, or
none without right end, or what they miss is not one gap, or an empty one of them lies
in what they miss. -/
def MergesSafely (T : List (SingleInterval α)) : Prop :=
  (∃ I ∈ T, I.lo = ⊥) → (∃ I ∈ T, I.hi = ⊤) →
    NotOneGap (fun v => ∃ I ∈ T, I.isInRange v = true) ∨
      ∃ I ∈ T, ∃ a, I.lo = above a ∧ I.hi = below a ∧ ¬∃ J ∈ T, J.isInRange a = true

/-- What the sweep knows when it has gone through `done`. -/
structure SweepInv (done : List (SingleInterval α)) (current : SingleInterval α)
    (result : OrderedSet (SingleInterval α)) : Prop where
  regular : Regular current
  proper : ∀ I ∈ result, Proper I
  covers : ∀ v, (∃ I ∈ result, I.isInRange v = true) ∨ current.isInRange v = true ↔
    ∃ I ∈ done, I.isInRange v = true
  starts : ∃ I ∈ done, I.lo = current.lo
  /-- Without a left end, `current` is all that has been gone through. -/
  reaches : current.lo = ⊥ → ∀ I ∈ done, I.lo ≤ current.hi ∧ I.hi ≤ current.hi

/-- The gap the sweep would close between `current` and the next interval has no values. -/
theorem SweepInv.no_gap {done rest : List (SingleInterval α)} {current next : SingleInterval α}
    {result : OrderedSet (SingleInterval α)} (hinv : SweepInv done current result)
    (hsort : (done ++ next :: rest).Pairwise (· < ·)) (hsafe : MergesSafely (done ++ next :: rest))
    (hlo : current.lo = ⊥) (hhi : next.hi = ⊤) (v : α) :
    current.isInRange v = true ∨ next.isInRange v = true := by
  by_contra hv
  obtain ⟨hvc, hvn⟩ := not_or.1 hv
  have hrest := (List.pairwise_cons.1 (List.pairwise_append.1 hsort).2.1).1
  have hdone_current : ∀ I ∈ done, ∀ w, below w < I.hi → current.isInRange w = true := fun I hI w hw =>
    SingleInterval.isInRange_iff.2 ⟨hlo ▸ bot_le, hw.trans_le (hinv.reaches hlo I hI).2⟩
  have hnext : ∀ w, next.lo ≤ below w → next.isInRange w = true := fun w hw =>
    SingleInterval.isInRange_iff.2 ⟨hw, hhi ▸ lt_top_iff_ne_top.2 below_ne_top⟩
  -- a value neither of the two has is a value no interval has
  have hmissing : ∀ w, (∃ I ∈ done ++ next :: rest, I.isInRange w = true) →
      current.isInRange w = true ∨ next.isInRange w = true := by
    rintro w ⟨I, hI, hw⟩
    obtain ⟨hIlo, hIhi⟩ := SingleInterval.isInRange_iff.1 hw
    obtain hI | hI := List.mem_append.1 hI
    · exact .inl (hdone_current I hI w hIhi)
    · refine .inr (hnext w (le_trans ?_ hIlo))
      obtain rfl | hI := List.mem_cons.1 hI
      · exact le_rfl
      · exact lo_le_of_lt (hrest I hI)
  have hcovered : ∀ w, current.isInRange w = true → ∃ I ∈ done ++ next :: rest, I.isInRange w = true := by
    intro w hw
    obtain ⟨I, hI, hIw⟩ := (hinv.covers w).1 (.inr hw)
    exact ⟨I, List.mem_append_left _ hI, hIw⟩
  obtain ⟨I₀, hI₀, hI₀lo⟩ := hinv.starts
  obtain (hall | ⟨a, w, b, haw, hwb, ha, hw, hb⟩) | ⟨E, hE, a, hElo, hEhi, ha⟩ :=
    hsafe ⟨I₀, List.mem_append_left _ hI₀, hI₀lo.trans hlo⟩ ⟨next, by simp, hhi⟩
  · exact hv (hmissing v (hall v))
  · -- `a` is missing, so what has `w` behind it is not `current`; but then it has `b` too
    obtain hw | hw := hmissing w hw
    · have hw := SingleInterval.isInRange_iff.1 hw
      exact ha (hcovered a (SingleInterval.isInRange_iff.2
        ⟨hlo ▸ bot_le, (below_lt_below.2 haw).trans hw.2⟩))
    · have hw := SingleInterval.isInRange_iff.1 hw
      exact hb ⟨next, by simp, hnext b (hw.1.trans (below_le_below.2 hwb.le))⟩
  · obtain hE | hE := List.mem_append.1 hE
    · have hac : current.isInRange a = true :=
        SingleInterval.isInRange_iff.2 ⟨hlo ▸ bot_le, above_le_iff.1 (hElo ▸ (hinv.reaches hlo E hE).1)⟩
      exact ha (hcovered a hac)
    · have hbehind : next.lo < above a := by
        obtain rfl | hE := List.mem_cons.1 hE
        · exact absurd (hEhi.symm.trans hhi) below_ne_top
        · obtain h | h := lt_iff.1 (hrest E hE)
          · exact hElo ▸ h
          · exact absurd h.2 (by rw [hhi]; exact not_top_lt)
      exact ha ⟨next, by simp, hnext a (lt_above_iff.1 hbehind)⟩

/-- What a merge of `current` with the next interval has. -/
theorem SweepInv.merge {done rest : List (SingleInterval α)} {current next U : SingleInterval α}
    {result : OrderedSet (SingleInterval α)} (hinv : SweepInv done current result) (hc : Proper current)
    (hn : Regular next) (hsort : (done ++ next :: rest).Pairwise (· < ·))
    (hsafe : MergesSafely (done ++ next :: rest)) (hU : current.tryGetUnion next = some U) :
    SweepInv (done ++ [next]) U result := by
  obtain ⟨hcan, hUlo, hUhi⟩ := union_cuts hU
  obtain ⟨I₀, hI₀, hI₀lo⟩ := hinv.starts
  have hle : current.lo ≤ next.lo :=
    hI₀lo ▸ lo_le_of_lt ((List.pairwise_append.1 hsort).2.2 I₀ hI₀ next List.mem_cons_self)
  rw [min_eq_left hle] at hUlo
  -- either the two touch, or they are opposed
  have htouch : next.lo ≤ current.hi ∨ current.lo = ⊥ ∧ next.hi = ⊤ := by
    obtain h | h := (canMergeWith_iff hc).1 hcan
    · obtain h | h := opposed_iff.1 h
      · exact .inr h
      · exact .inl (h.2 ▸ bot_le)
    · exact .inl h.2
  have hmem : ∀ v, U.isInRange v = true ↔ current.isInRange v = true ∨ next.isInRange v = true := by
    intro v
    constructor
    · intro hv
      obtain h | h := htouch
      · rw [SingleInterval.isInRange_iff, hUlo, hUhi, lt_max_iff] at hv
        rw [SingleInterval.isInRange_iff, SingleInterval.isInRange_iff]
        rcases hv with ⟨hlo, hhi | hhi⟩
        · exact .inl ⟨hlo, hhi⟩
        · by_cases hcv : below v < current.hi
          · exact .inl ⟨hlo, hcv⟩
          · exact .inr ⟨h.trans (not_lt.1 hcv), hhi⟩
      · exact hinv.no_gap hsort hsafe h.1 h.2 v
    · rw [SingleInterval.isInRange_iff, SingleInterval.isInRange_iff, SingleInterval.isInRange_iff, hUlo, hUhi,
        lt_max_iff]
      rintro (h | h)
      · exact ⟨h.1, .inl h.2⟩
      · exact ⟨hle.trans h.1, .inr h.2⟩
  refine ⟨.inl ?_, hinv.proper, fun v => ?_, ⟨I₀, by simp [hI₀], hI₀lo.trans hUlo.symm⟩, fun hbot I hI => ?_⟩
  · show U.lo < U.hi
    rw [hUlo, hUhi]
    exact lt_max_of_lt_left hc
  · rw [hmem, ← or_assoc, hinv.covers v, exists_mem_concat]
  · rw [hUhi]
    obtain hI | hI := List.mem_append.1 hI
    · obtain ⟨h1, h2⟩ := hinv.reaches (hUlo.symm.trans hbot) I hI
      exact ⟨h1.trans (le_max_left _ _), h2.trans (le_max_left _ _)⟩
    · obtain rfl := List.mem_singleton.1 hI
      refine ⟨?_, le_max_right _ _⟩
      obtain h | h := htouch
      · exact h.trans (le_max_left _ _)
      · rw [h.2, max_top_right]
        exact le_top

/-- The sweep keeps what the intervals have, and leaves proper ones only. -/
theorem sweep_spec {rest : List (SingleInterval α)} :
    ∀ {done : List (SingleInterval α)} {current : SingleInterval α} {result : OrderedSet (SingleInterval α)},
      SweepInv done current result → (∀ I ∈ rest, Regular I) → (done ++ rest).Pairwise (· < ·) →
      MergesSafely (done ++ rest) →
      (∀ I ∈ sweep current result rest, Proper I) ∧
        ∀ v, (∃ I ∈ sweep current result rest, I.isInRange v = true) ↔
          ∃ I ∈ done ++ rest, I.isInRange v = true := by
  -- over the intervals that are left, with what `SweepInv` says of those behind
  induction rest with
  | nil =>
    intro done current result hinv _ _ _
    rw [sweep, List.append_nil]
    by_cases hc : current.isEmpty = true
    · rw [if_pos hc]
      refine ⟨hinv.proper, fun v => ?_⟩
      rw [← hinv.covers v, or_iff_left (not_isInRange_of_isEmpty hc)]
    · rw [if_neg hc]
      refine ⟨fun I hI => ?_, fun v => ?_⟩
      · obtain rfl | hI := OrderedSet.mem_insert.1 hI
        · exact hinv.regular.resolve_right hc
        · exact hinv.proper I hI
      · rw [← hinv.covers v, OrderedSet.exists_mem_insert, or_comm]
  | cons next rest ih =>
    intro done current result hinv hreg hsort hsafe
    have hn := hreg next List.mem_cons_self
    have happ : done ++ next :: rest = (done ++ [next]) ++ rest := by simp
    have hreg' : ∀ I ∈ rest, Regular I := fun I hI => hreg I (List.mem_cons_of_mem _ hI)
    obtain ⟨I₀, hI₀, hI₀lo⟩ := hinv.starts
    have hle : current.lo ≤ next.lo :=
      hI₀lo ▸ lo_le_of_lt ((List.pairwise_append.1 hsort).2.2 I₀ hI₀ next List.mem_cons_self)
    rw [sweep]
    by_cases hc : current.isEmpty = true
    · rw [if_pos hc, happ]
      -- an empty interval is dropped, and contains nothing
      refine ih ⟨hn, hinv.proper, fun v => ?_, ⟨next, by simp, rfl⟩, fun hbot => ?_⟩ hreg'
        (happ ▸ hsort) (happ ▸ hsafe)
      · have := hinv.covers v
        rw [or_iff_left (not_isInRange_of_isEmpty hc)] at this
        rw [this, exists_mem_concat]
      · obtain ⟨a, ha, -⟩ := isEmpty_iff.1 hc
        rw [hbot, ha] at hle
        exact absurd (le_bot_iff.1 hle) above_ne_bot
    · have hcp := hinv.regular.resolve_right hc
      rw [if_neg hc, happ]
      cases hU : current.tryGetUnion next with
      | some U =>
        exact ih (hinv.merge hcp hn hsort hsafe hU) hreg' (happ ▸ hsort) (happ ▸ hsafe)
      | none =>
        -- what cannot be merged is complete
        refine ih ⟨hn, fun I hI => ?_, fun v => ?_, ⟨next, by simp, rfl⟩, fun hbot => ?_⟩ hreg'
          (happ ▸ hsort) (happ ▸ hsafe)
        · obtain rfl | hI := OrderedSet.mem_insert.1 hI
          · exact hcp
          · exact hinv.proper I hI
        · rw [OrderedSet.exists_mem_insert, exists_mem_concat, ← hinv.covers v, or_comm (b := ∃ I ∈ result, _)]
        · -- two intervals without left end are merged
          have hcan : current.canMergeWith next = true :=
            (canMergeWith_iff hcp).2 (.inr ⟨(hle.trans hbot.le).trans bot_le, hbot ▸ bot_le⟩)
          exact absurd hcan (tryGetUnion_eq_none.1 hU)

/-- `simplify` is the sweep. -/
theorem simplify_intervals (c : RangeCondition α) :
    (simplify c).intervals.toList =
      match c.intervals.toList with
      | [] => []
      | I :: rest => (sweep I .empty rest).toList := by
  unfold simplify
  split
  · rename_i h
    rw [h]
  · rename_i I h
    rw [h]
    by_cases hI : I.isEmpty = true
    · simp [hI, sweep, empty]
    · simp [hI, sweep, h, OrderedSet.insert, OrderedSet.place, OrderedSet.empty]
  · rename_i I rest _ h
    rw [h]

/-- **`simplify` keeps the values**, unless it closes a gap. -/
theorem simplify_spec {c : RangeCondition α} (hreg : ∀ I ∈ c.intervals, Regular I)
    (hsafe : MergesSafely c.intervals.toList) :
    (∀ I ∈ (simplify c).intervals, Proper I) ∧ ∀ v, (simplify c).isInRange v = true ↔ c.isInRange v = true := by
  have hsort := c.intervals.sorted
  simp only [isInRange_iff, OrderedSet.mem_def, simplify_intervals] at hreg ⊢
  cases hl : c.intervals.toList with
  | nil => simp
  | cons I rest =>
    rw [hl] at hreg hsort hsafe
    have hinv : SweepInv [I] I .empty :=
      ⟨hreg I List.mem_cons_self, by simp, by simp, ⟨I, by simp, rfl⟩, fun hbot J hJ => ?_⟩
    · exact sweep_spec hinv (fun J hJ => hreg J (List.mem_cons_of_mem _ hJ)) hsort hsafe
    · obtain rfl := List.mem_singleton.1 hJ
      exact ⟨hbot ▸ bot_le, le_rfl⟩

/-! ## One step -/

/-- What `relation` is to make of a value, given whether it is in the range so far and
whether it is in the new interval. -/
def evaluate (relation : ConditionRelation) (current new : Bool) : Bool :=
  match relation with
  | .or => current || new
  | .and => current && new
  | .not => current && !new
  | _ => current

/-- No stored interval that is opposed to the new one shares a value with it. -/
def OpposedApart (c : RangeCondition α) (N : SingleInterval α) : Prop :=
  ∀ I ∈ c.intervals, Opposed I N → ∀ v, I.isInRange v = true → ¬N.isInRange v = true

/-- **When a step is right**: And and Not when opposed intervals are apart; and when
intervals both without left end and without right end are to be swept over, they miss
no value, or not just one gap. The emptied intervals of a Not stand at 0 and keep the
sweep from closing a gap there. -/
def AddsSafely [Zero α] (c : RangeCondition α) (N : SingleInterval α) : ConditionRelation → Prop
  | .or =>
    (N.left.isLimited = false ∨ ∃ I ∈ c.intervals, I.left.isLimited = false) →
    (N.right.isLimited = false ∨ ∃ I ∈ c.intervals, I.right.isLimited = false) →
      NotOneGap fun v => c.isInRange v = true ∨ N.isInRange v = true
  | .and => OpposedApart c N
  | .not =>
    OpposedApart c N ∧
      ((∃ I ∈ c.intervals, I.left.isLimited = false ∧ (N.left.isLimited = true ∨ Opposed I N)) →
        (∃ I ∈ c.intervals, I.right.isLimited = false ∧ (N.right.isLimited = true ∨ Opposed I N)) →
        NotOneGap (fun v => c.isInRange v = true ∧ ¬N.isInRange v = true) ∨
          ¬(c.isInRange 0 = true ∧ ¬N.isInRange 0 = true) ∧
            ∃ I ∈ c.intervals, I.isIntersect N = true ∧ N.isIntervalInRange I = true)
  | _ =>
    (∃ I ∈ c.intervals, I.left.isLimited = false) → (∃ I ∈ c.intervals, I.right.isLimited = false) →
      NotOneGap fun v => c.isInRange v = true

/-- A condition on what is present carries over to the intervals that have it. -/
theorem mergesSafely_of {c : RangeCondition α} {present : α → Prop}
    (hp : ∀ v, present v ↔ c.isInRange v = true)
    (h : (∃ I ∈ c.intervals, I.left.isLimited = false) → (∃ I ∈ c.intervals, I.right.isLimited = false) →
      NotOneGap present) : MergesSafely c.intervals.toList := by
  rintro ⟨I, hI, hlo⟩ ⟨J, hJ, hhi⟩
  have heq : present = fun v => ∃ I ∈ c.intervals.toList, I.isInRange v = true :=
    funext fun v => propext ((hp v).trans isInRange_iff)
  exact .inl (heq ▸ h ⟨I, hI, lo_eq_bot.2 hlo⟩ ⟨J, hJ, hi_eq_top.2 hhi⟩)

variable {c : RangeCondition α} {N : SingleInterval α}

theorem orSingleInterval_isInRange {v : α} :
    (c.orSingleInterval N).isInRange v = true ↔ c.isInRange v = true ∨ N.isInRange v = true := by
  rw [isInRange_iff, orSingleInterval, OrderedSet.exists_mem_insert, ← isInRange_iff, or_comm]

theorem mem_andSingleInterval {X : SingleInterval α} :
    X ∈ (c.andSingleInterval N).intervals ↔ ∃ I ∈ c.intervals, I.tryGetIntersect N = some X := by
  rw [andSingleInterval, OrderedSet.mem_insertAll, or_iff_left (OrderedSet.not_mem_empty _)]
  exact List.mem_filterMap

theorem andSingleInterval_isInRange (hc : ∀ I ∈ c.intervals, Proper I)
    (hapart : OpposedApart c N) {v : α} :
    (c.andSingleInterval N).isInRange v = true ↔ c.isInRange v = true ∧ N.isInRange v = true := by
  rw [isInRange_iff, isInRange_iff]
  simp only [mem_andSingleInterval]
  constructor
  · rintro ⟨X, ⟨I, hI, hX⟩, hv⟩
    obtain ⟨hvI, hvN⟩ := (tryGetIntersect_isInRange (hc I hI) hX).1 hv
    exact ⟨⟨I, hI, hvI⟩, hvN⟩
  · rintro ⟨⟨I, hI, hvI⟩, hvN⟩
    have hint : I.isIntersect N = true := by
      by_contra h
      exact not_isInRange_of_not_isIntersect (hc I hI) h (hapart I hI) hvI hvN
    obtain ⟨X, hX, -⟩ := tryGetIntersect_cuts (hc I hI) hint
    exact ⟨X, ⟨I, hI, hX⟩, (tryGetIntersect_isInRange (hc I hI) hX).2 ⟨hvI, hvN⟩⟩

/-- What And keeps lies within the operand, and nothing of it is opposed to that. -/
theorem andSingleInterval_mergesSafely (hc : ∀ I ∈ c.intervals, Proper I) (hN : Regular N) :
    (∀ X ∈ (c.andSingleInterval N).intervals, Regular X) ∧
      MergesSafely (c.andSingleInterval N).intervals.toList := by
  have hcut : ∀ X ∈ (c.andSingleInterval N).intervals, ∃ I ∈ c.intervals,
      I.isIntersect N = true ∧ X.lo = max I.lo N.lo ∧ X.hi = min I.hi N.hi := by
    intro X hX
    obtain ⟨I, hI, hX⟩ := mem_andSingleInterval.1 hX
    exact ⟨I, hI, intersect_cuts (hc I hI) hX⟩
  refine ⟨fun X hX => ?_, ?_⟩
  · obtain ⟨I, hI, h, hlo, hhi⟩ := hcut X hX
    obtain ⟨-, hIN, hNI⟩ := (isIntersect_iff (.inl (hc I hI))).1 h
    obtain hN | hN := hN
    · refine .inl ?_
      show X.lo < X.hi
      rw [hlo, hhi]
      exact max_lt (lt_min (hc I hI) hIN) (lt_min hNI hN)
    · -- an empty operand is all of the intersection
      have hlt := isEmpty_iff_lt.1 hN
      refine .inr (isEmpty_iff_lt.2 ?_)
      rw [hlo, hhi, max_eq_right (hIN.trans hlt).le, min_eq_right (hlt.trans hNI).le]
      exact hlt
  · -- pieces without left and right end come from an operand that is opposed to one of the intervals
    rintro ⟨X, hX, hbot⟩ ⟨Y, hY, htop⟩
    obtain ⟨I, hI, h, hlo, -⟩ := hcut X hX
    obtain ⟨J, hJ, h', -, hhi⟩ := hcut Y hY
    rw [hlo, max_eq_bot] at hbot
    rw [hhi, min_eq_top] at htop
    exact absurd (opposed_iff.2 (.inr ⟨htop.1, hbot.2⟩)) ((isIntersect_iff (.inl (hc J hJ))).1 h').1

/-! ## Constructors -/

/-- A constructor call. -/
inductive Construction (α : Type*) [LinearOrder α]
  | default
  | point (value : α)
  | interval (value : SingleInterval α)

/-- What the constructor builds. -/
def Construction.build : Construction α → RangeCondition α
  | default => empty
  | point value => ofPoint value
  | interval value => ofInterval value

/-- The values it is to have. -/
def Construction.holds : Construction α → α → Bool
  | default, _ => false
  | point value, v => v = value
  | interval value, v => value.isInRange v

/-- The interval a constructor is given has values. -/
def Construction.Inhabited : Construction α → Prop
  | interval value => ∃ v, value.isInRange v = true
  | _ => True

theorem exists_mem_single {I : SingleInterval α} {p : SingleInterval α → Prop} :
    (∃ J ∈ OrderedSet.empty.insert I, p J) ↔ p I := by
  rw [OrderedSet.exists_mem_insert, or_iff_left (by simp)]

theorem Construction.build_spec {start : Construction α} (h : start.Inhabited) :
    (∀ I ∈ start.build.intervals, Proper I) ∧ ∀ v, start.build.isInRange v = start.holds v := by
  cases start with
  | default => exact ⟨fun I hI => absurd hI (OrderedSet.not_mem_empty I), fun v => rfl⟩
  | point a =>
    refine ⟨fun I hI => ?_, fun v => ?_⟩
    · obtain rfl := List.mem_singleton.1 hI
      exact proper_of_mem (v := a) (ofPoint_isInRange.2 rfl)
    · rw [Bool.eq_iff_iff, holds, decide_eq_true_eq, ← ofPoint_isInRange (a := a), isInRange_iff]
      exact exists_mem_single
  | interval I =>
    obtain ⟨w, hw⟩ := h
    have hne := (proper_of_mem hw).not_isEmpty
    simp only [build, ofInterval, hne]
    refine ⟨fun J hJ => ?_, fun v => ?_⟩
    · obtain rfl := List.mem_singleton.1 hJ
      exact proper_of_mem hw
    · rw [Bool.eq_iff_iff, holds, isInRange_iff]
      exact exists_mem_single

/-! ## Removing -/

variable [Zero α]

theorem mem_notSingleInterval {P : SingleInterval α} :
    P ∈ (c.notSingleInterval N).intervals ↔ ∃ I ∈ c.intervals, P ∈ I.getDifference N := by
  rw [notSingleInterval, OrderedSet.mem_insertAll, or_iff_left (OrderedSet.not_mem_empty _)]
  exact List.mem_flatMap

theorem notSingleInterval_isInRange (hc : ∀ I ∈ c.intervals, Proper I)
    (hapart : OpposedApart c N) {v : α} :
    (c.notSingleInterval N).isInRange v = true ↔ c.isInRange v = true ∧ ¬N.isInRange v = true := by
  rw [isInRange_iff, isInRange_iff]
  simp only [mem_notSingleInterval]
  constructor
  · rintro ⟨P, ⟨I, hI, hP⟩, hv⟩
    obtain ⟨hvI, hvN⟩ := (getDifference_isInRange (hc I hI) (hapart I hI)).1 ⟨P, hP, hv⟩
    exact ⟨⟨I, hI, hvI⟩, hvN⟩
  · rintro ⟨⟨I, hI, hvI⟩, hvN⟩
    obtain ⟨P, hP, hv⟩ := (getDifference_isInRange (hc I hI) (hapart I hI)).2 ⟨hvI, hvN⟩
    exact ⟨P, ⟨I, hI, hP⟩, hv⟩

theorem getDifference_regular {I P : SingleInterval α} (hI : Proper I) (hP : P ∈ I.getDifference N) :
    Regular P := by
  by_cases h : I.isIntersect N = true
  · obtain ⟨-, rfl⟩ | ⟨hlt, hlo, hhi⟩ | ⟨hlt, hlo, hhi⟩ := (mem_getDifference hI h).1 hP
    · exact .inr empty_isEmpty
    · exact .inl (show P.lo < P.hi by rwa [hlo, hhi])
    · exact .inl (show P.lo < P.hi by rwa [hlo, hhi])
  · rw [getDifference_of_not_isIntersect h, List.mem_singleton] at hP
    exact .inl (hP ▸ hI)

/-- A piece without left end comes from an interval without one, and the operand either
has a left end or was taken for one that does not intersect. -/
theorem getDifference_lo_bot {I P : SingleInterval α} (hI : Proper I)
    (hP : P ∈ I.getDifference N) (hbot : P.lo = ⊥) :
    I.left.isLimited = false ∧ (N.left.isLimited = true ∨ Opposed I N) := by
  rw [lo_eq_bot, ← Bool.not_eq_false, lo_eq_bot]
  by_cases h : I.isIntersect N = true
  · obtain ⟨-, rfl⟩ | ⟨hlt, hlo, -⟩ | ⟨-, hlo, -⟩ := (mem_getDifference hI h).1 hP
    · exact absurd hbot above_ne_bot
    · exact ⟨hlo.symm.trans hbot, .inl hlt.ne_bot⟩
    · exact absurd (hlo.symm.trans hbot) hi_ne_bot
  · rw [getDifference_of_not_isIntersect h, List.mem_singleton] at hP
    have hIlo : I.lo = ⊥ := hP ▸ hbot
    refine ⟨hIlo, ?_⟩
    by_contra hno
    obtain ⟨hNlo, hopp⟩ := not_or.1 hno
    rw [not_not] at hNlo
    refine h ((isIntersect_iff (.inl hI)).2 ⟨hopp, ?_, ?_⟩)
    · exact hIlo ▸ bot_lt_iff_ne_bot.2 hi_ne_bot
    · exact hNlo ▸ hIlo ▸ hI

theorem getDifference_hi_top {I P : SingleInterval α} (hI : Proper I)
    (hP : P ∈ I.getDifference N) (htop : P.hi = ⊤) :
    I.right.isLimited = false ∧ (N.right.isLimited = true ∨ Opposed I N) := by
  rw [hi_eq_top, ← Bool.not_eq_false, hi_eq_top]
  by_cases h : I.isIntersect N = true
  · obtain ⟨-, rfl⟩ | ⟨-, -, hhi⟩ | ⟨hlt, -, hhi⟩ := (mem_getDifference hI h).1 hP
    · exact absurd htop below_ne_top
    · exact absurd (hhi.symm.trans htop) lo_ne_top
    · exact ⟨hhi.symm.trans htop, .inl hlt.ne_top⟩
  · rw [getDifference_of_not_isIntersect h, List.mem_singleton] at hP
    have hIhi : I.hi = ⊤ := hP ▸ htop
    refine ⟨hIhi, ?_⟩
    by_contra hno
    obtain ⟨hNhi, hopp⟩ := not_or.1 hno
    rw [not_not] at hNhi
    refine h ((isIntersect_iff (.inl hI)).2 ⟨hopp, ?_, ?_⟩)
    · exact hNhi ▸ hIhi ▸ hI
    · exact hIhi ▸ lt_top_iff_ne_top.2 lo_ne_top

theorem notSingleInterval_mergesSafely (hc : ∀ I ∈ c.intervals, Proper I)
    (hok : AddsSafely c N .not) :
    (∀ P ∈ (c.notSingleInterval N).intervals, Regular P) ∧
      MergesSafely (c.notSingleInterval N).intervals.toList := by
  obtain ⟨hapart, hok⟩ := hok
  refine ⟨fun P hP => ?_, ?_⟩
  · obtain ⟨I, hI, hP⟩ := mem_notSingleInterval.1 hP
    exact getDifference_regular (hc I hI) hP
  · rintro ⟨P, hP, hbot⟩ ⟨Q, hQ, htop⟩
    obtain ⟨I, hI, hP⟩ := mem_notSingleInterval.1 hP
    obtain ⟨J, hJ, hQ⟩ := mem_notSingleInterval.1 hQ
    have hpresent : ∀ v, (∃ P ∈ (c.notSingleInterval N).intervals.toList, P.isInRange v = true) ↔
        c.isInRange v = true ∧ ¬N.isInRange v = true := fun v =>
      isInRange_iff.symm.trans (notSingleInterval_isInRange hc hapart)
    simp only [hpresent]
    obtain h | ⟨h0, E, hE, hint, hin⟩ :=
      hok ⟨I, hI, getDifference_lo_bot (hc I hI) hP hbot⟩ ⟨J, hJ, getDifference_hi_top (hc J hJ) hQ htop⟩
    · exact .inl h
    · have hmem : SingleInterval.empty ∈ E.getDifference N :=
        (mem_getDifference (hc E hE) hint).2 (.inl ⟨isIntervalInRange_iff.1 hin, rfl⟩)
      exact .inr ⟨.empty, mem_notSingleInterval.2 ⟨E, hE, hmem⟩, 0, rfl, rfl, h0⟩

/-- **One step**: a safe `add_range` gives every value what the relation says, and leaves
proper intervals. Only Or and And can put the operand itself into the set. -/
theorem addRange_spec (hc : ∀ I ∈ c.intervals, Proper I) {relation : ConditionRelation}
    (hN : Regular N ∨ relation ≠ .or ∧ relation ≠ .and)
    (hok : AddsSafely c N relation) :
    (∀ I ∈ (c.addRange N relation).intervals, Proper I) ∧
      ∀ v, (c.addRange N relation).isInRange v = evaluate relation (c.isInRange v) (N.isInRange v) := by
  cases relation with
  | or =>
    -- the operand itself goes into the set, so it has to be regular
    have hreg : ∀ I ∈ (c.orSingleInterval N).intervals, Regular I := by
      intro I hI
      obtain rfl | hI := OrderedSet.mem_insert.1 hI
      · exact hN.resolve_right fun h => h.1 rfl
      · exact .inl (hc I hI)
    have hsafe : MergesSafely (c.orSingleInterval N).intervals.toList :=
      mergesSafely_of (fun v => orSingleInterval_isInRange.symm) fun hl hr =>
        hok (OrderedSet.exists_mem_insert.1 hl) (OrderedSet.exists_mem_insert.1 hr)
    obtain ⟨hproper, hv⟩ := simplify_spec hreg hsafe
    refine ⟨hproper, fun v => ?_⟩
    rw [Bool.eq_iff_iff, evaluate, Bool.or_eq_true, ← orSingleInterval_isInRange]
    exact hv v
  | and =>
    obtain ⟨hreg, hsafe⟩ := andSingleInterval_mergesSafely hc (hN.resolve_right fun h => h.2 rfl)
    obtain ⟨hproper, hv⟩ := simplify_spec hreg hsafe
    refine ⟨hproper, fun v => ?_⟩
    rw [Bool.eq_iff_iff, evaluate, Bool.and_eq_true, ← andSingleInterval_isInRange hc hok]
    exact hv v
  | not =>
    obtain ⟨hreg, hsafe⟩ := notSingleInterval_mergesSafely hc hok
    obtain ⟨hproper, hv⟩ := simplify_spec hreg hsafe
    refine ⟨hproper, fun v => ?_⟩
    rw [Bool.eq_iff_iff, evaluate, Bool.and_eq_true, Bool.not_eq_true', ← Bool.not_eq_true,
      ← notSingleInterval_isInRange hc hok.1]
    exact hv v
  -- these relations add nothing, and only merge what is there
  | xor | unknown =>
    obtain ⟨hproper, hv⟩ :=
      simplify_spec (fun I hI => .inl (hc I hI)) (mergesSafely_of (fun _ => Iff.rfl) hok)
    exact ⟨hproper, fun v => Bool.eq_iff_iff.2 (hv v)⟩

/-! ## Runs -/

/-- A call of `add_range`. -/
def addCall (c : RangeCondition α) (call : SingleInterval α × ConditionRelation) : RangeCondition α :=
  c.addRange call.1 call.2

/-- Left-to-right evaluation of a run on one value. -/
def evaluateRun (start : Construction α) (calls : List (SingleInterval α × ConditionRelation)) (v : α) : Bool :=
  calls.foldl (fun current call => evaluate call.2 current (call.1.isInRange v)) (start.holds v)

/-- **`is_in_range` evaluates the run from left to right**, for every constructor and every
sequence of calls with intervals that have values, all of whose steps are safe. -/
theorem run_isInRange {start : Construction α} {calls : List (SingleInterval α × ConditionRelation)}
    (hstart : start.Inhabited) (hcalls : ∀ call ∈ calls, ∃ v, call.1.isInRange v = true)
    (hsafe : Run.Meets (fun c call => AddsSafely c call.1 call.2) addCall start.build calls) (v : α) :
    (calls.foldl addCall start.build).isInRange v = evaluateRun start calls v := by
  obtain ⟨hproper, hv⟩ := Construction.build_spec hstart
  refine ((hsafe.and_forall hcalls).simulates
    (fun c b => (∀ I ∈ c.intervals, Proper I) ∧ c.isInRange v = b) ?_ ⟨hproper, hv v⟩).2
  rintro c _ call ⟨hc, rfl⟩ ⟨⟨w, hw⟩, hok⟩
  obtain ⟨hc', hv'⟩ := addRange_spec hc (.inl (.inl (proper_of_mem hw))) hok
  exact ⟨hc', hv' v⟩

/-- `[0, ∞)` without 2, of that `[1, 9)`, and 10. -/
theorem run_isInRange_ray :
    let start : Construction ℚ := .interval (.ofEndpoint (.new (some 0) false .left))
    let calls := [(.ofPoint 2, ConditionRelation.not),
      (.ofBoundaries ⟨some 1, false⟩ ⟨some 9, true⟩, .and), (.ofPoint 10, .or)]
    (calls.foldl addCall start.build).isInRange 3 = evaluateRun start calls 3 := by
  intro start calls
  have hstart : start.Inhabited := ⟨1, by decide⟩
  have hcalls : ∀ call ∈ calls, ∃ v, call.1.isInRange v = true := by
    simp only [calls, List.forall_mem_cons]
    exact ⟨⟨2, by decide⟩, ⟨1, by decide⟩, ⟨10, by decide⟩, by simp⟩
  have hnot : ¬∃ I ∈ start.build.intervals, Opposed I (.ofPoint 2) := by decide
  have hand : ¬∃ I ∈ (start.build.addRange (.ofPoint 2) .not).intervals,
      Opposed I (.ofBoundaries ⟨some 1, false⟩ ⟨some 9, true⟩) := by decide
  refine run_isInRange hstart hcalls ⟨⟨?_, ?_⟩, ?_, ?_, trivial⟩ 3
  · exact fun I hI h => absurd ⟨I, hI, h⟩ hnot
  · exact fun h => absurd h (by decide)
  · exact fun I hI h => absurd ⟨I, hI, h⟩ hand
  · exact fun h => absurd h (by decide)

/-- `(-∞, 0)` and then `(5, ∞)`: the two rays are merged, and 3 is in the range. -/
theorem oppositeRays_joined :
    let before : SingleInterval ℚ := .ofEndpoint (.new (some 0) true .right)
    let behind : SingleInterval ℚ := .ofEndpoint (.new (some 5) true .left)
    let calls := [(before, ConditionRelation.or), (behind, .or)]
    before.isInRange (-1) = true ∧ behind.isInRange 6 = true ∧
      (calls.foldl addCall (Construction.build .default)).isInRange 3 = true ∧
        evaluateRun .default calls 3 = false := by
  decide

end RangeCondition

end ProjectTrans
