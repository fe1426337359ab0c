import ProjectTrans.Model.Condition.SingleInterval

/-!
# Intervals and their cuts

Membership and every relation between two intervals, as comparisons of where they begin
and end. The infinite ends are where the code and the order differ: an interval without
a left end and one without a right end count as adjacent wherever their other ends are
(`Opposed`), so they are merged across whatever lies between them, and are never found
to intersect.
-/

namespace ProjectTrans

open Cuts

/-! ## Endpoints -/

namespace EndpointRange

variable {α : Type*}

theorem new_self (e : EndpointRange α) : new e.value e.isOpen e.side = e := by
  obtain ⟨v, o, s, hv⟩ := e
  cases v with
  | none => simp [new, hv rfl]
  | some a => rfl

/-- A finite adjacent endpoint stands at the same place. -/
theorem getAdjacentEndpoint_cut {e : EndpointRange α} (hs : e.side ≠ .unknown) (h : e.isLimited = true) :
    e.getAdjacentEndpoint.cut = e.cut := by
  obtain ⟨v, o, s, hv⟩ := e
  cases v with
  | none => simp [isLimited] at h
  | some a => cases s <;> cases o <;> simp_all [getAdjacentEndpoint, new, cut]

theorem isLimited_left {e : EndpointRange α} (hs : e.side = .left) : e.isLimited = false ↔ e.cut = ⊥ := by
  unfold isLimited cut
  cases e.value <;> cases e.isOpen <;> simp [hs]

theorem isLimited_right {e : EndpointRange α} (hs : e.side = .right) : e.isLimited = false ↔ e.cut = ⊤ := by
  unfold isLimited cut
  cases e.value <;> cases e.isOpen <;> simp [hs]

variable [LinearOrder α]

/-- An endpoint stands just below or just above its value. -/
theorem cut_bounds {e : EndpointRange α} {a : α} (h : a ∈ e.value) : below a ≤ e.cut ∧ e.cut ≤ above a := by
  unfold cut
  rw [Option.mem_def.1 h]
  cases e.isOpen <;> by_cases hs : e.side = .right <;> simp [hs]

/-- A right endpoint stands before a left one: the comparison of the code, corrected at
equal values. -/
theorem right_cut_lt {r l : EndpointRange α} (hr : r.side = .right) (hl : l.side = .left) :
    r.cut < l.cut ↔ r < l ∧ (l.value = r.value → l.isOpen ∧ r.isOpen) := by
  rw [right_lt_left hr hl]
  unfold cut
  cases hrv : r.value with
  | none => simp [hr]
  | some b =>
    cases hlv : l.value with
    | none => simp [hl]
    | some a =>
      rcases lt_trichotomy b a with h | rfl | h
      · cases r.isOpen <;> cases l.isOpen <;> simp [hr, hl, h, h.le, h.ne']
      · cases r.isOpen <;> cases l.isOpen <;> simp [hr, hl]
      · cases r.isOpen <;> cases l.isOpen <;> simp [hr, hl, h.not_gt, h.not_ge]

end EndpointRange

namespace SingleInterval

variable {α : Type*} [LinearOrder α] {I J : SingleInterval α} {v : α}

/-! ## One interval -/

theorem isInRange_iff : I.isInRange v = true ↔ I.lo ≤ below v ∧ below v < I.hi := by
  rw [isInRange, Bool.and_eq_true, EndpointRange.isInRange_left (by rw [I.left_side]; decide),
    EndpointRange.isInRange_right I.right_side]
  rfl

/-- The interval begins before it ends. -/
def Proper (I : SingleInterval α) : Prop := I.lo < I.hi

/-- An interval that has a value is proper. -/
theorem proper_of_mem (h : I.isInRange v = true) : Proper I :=
  (isInRange_iff.1 h).1.trans_lt (isInRange_iff.1 h).2

theorem lo_eq_bot : I.left.isLimited = false ↔ I.lo = ⊥ := EndpointRange.isLimited_left I.left_side

theorem hi_eq_top : I.right.isLimited = false ↔ I.hi = ⊤ := EndpointRange.isLimited_right I.right_side

/-- There is a right end behind every left end of the line. -/
theorem hi_ne_bot : I.hi ≠ ⊥ := by
  unfold hi EndpointRange.cut
  rw [I.right_side]
  cases I.right.value <;> cases I.right.isOpen <;> simp

theorem lo_ne_top : I.lo ≠ ⊤ := by
  unfold lo EndpointRange.cut
  rw [I.left_side]
  cases I.left.value <;> cases I.left.isOpen <;> simp

/-- An empty interval lies at a value, its ends exchanged. -/
theorem isEmpty_iff : I.isEmpty = true ↔ ∃ a, I.lo = above a ∧ I.hi = below a := by
  unfold isEmpty state lo hi EndpointRange.cut
  rw [I.left_side, I.right_side]
  cases I.left.value <;> cases I.right.value <;> cases I.left.isOpen <;> cases I.right.isOpen <;>
    simp [eq_comm]

theorem lo_le_of_mem {a : α} (h : a ∈ I.right.value) : I.lo ≤ above a := by
  cases hl : I.left.value with
  | none =>
    have hbot : I.lo = ⊥ := lo_eq_bot.1 (by simp [EndpointRange.isLimited, hl])
    simp [hbot]
  | some b => exact (EndpointRange.cut_bounds hl).2.trans (above_le_above.2 (I.values_le b hl a h))

theorem le_hi_of_mem {a : α} (h : a ∈ I.left.value) : below a ≤ I.hi := by
  cases hr : I.right.value with
  | none =>
    have htop : I.hi = ⊤ := hi_eq_top.1 (by simp [EndpointRange.isLimited, hr])
    simp [htop]
  | some b => exact (below_le_below.2 (I.values_le a h b hr)).trans (EndpointRange.cut_bounds hr).1

/-- The empty intervals are those that end before they begin. -/
theorem isEmpty_iff_lt : I.isEmpty = true ↔ I.hi < I.lo := by
  rw [isEmpty_iff]
  constructor
  · rintro ⟨a, hlo, hhi⟩
    rw [hlo, hhi, below_lt_above]
  · intro h
    cases hl : I.left.value with
    | none =>
      have hbot : I.lo = ⊥ := lo_eq_bot.1 (by simp [EndpointRange.isLimited, hl])
      exact absurd (hbot ▸ h) not_lt_bot
    | some a =>
      have hlo := EndpointRange.cut_bounds hl
      have hhi : I.hi = below a := (lt_above_iff.1 (h.trans_le hlo.2)).antisymm (le_hi_of_mem hl)
      exact ⟨a, hlo.2.antisymm (above_le_iff.2 (hhi ▸ h)), hhi⟩

theorem Proper.not_isEmpty (h : Proper I) : I.isEmpty = false := by
  rw [← Bool.not_eq_true, isEmpty_iff_lt]
  exact h.not_gt

theorem not_isInRange_of_isEmpty (h : I.isEmpty = true) : ¬I.isInRange v = true := by
  rw [isInRange_iff]
  exact fun hv => (isEmpty_iff_lt.1 h).not_ge (hv.1.trans hv.2.le)

theorem lo_le_of_lt (h : I < J) : I.lo ≤ J.lo := by
  obtain h | h := lt_iff.1 h
  · exact h.le
  · exact h.1.le

/-- Proper, or empty in the sense of the code. -/
def Regular (I : SingleInterval α) : Prop := Proper I ∨ I.isEmpty = true

/-- Two ends at one value, one of them open: there are no values, and `init_state` does not
take it for empty. -/
def Hollow (I : SingleInterval α) : Prop :=
  I.left.isLimited = true ∧ I.left.value = I.right.value ∧ I.left.isOpen ≠ I.right.isOpen

instance : Decidable (Hollow I) := inferInstanceAs (Decidable (_ ∧ _))

/-- A hollow interval ends where it begins. -/
theorem hollow_iff : Hollow I ↔ I.lo = I.hi := by
  unfold Hollow lo hi EndpointRange.cut EndpointRange.isLimited
  rw [I.left_side, I.right_side]
  cases I.left.value <;> cases I.right.value <;> cases I.left.isOpen <;> cases I.right.isOpen <;> simp

theorem regular_iff : Regular I ↔ ¬Hollow I := by
  rw [Regular, isEmpty_iff_lt, hollow_iff, ← ne_eq, ne_iff_lt_or_gt]
  rfl

theorem ofPoint_isInRange {a : α} : (ofPoint a).isInRange v = true ↔ v = a := by
  rw [isInRange_iff]
  show below a ≤ below v ∧ below v < above a ↔ v = a
  rw [below_le_below, below_lt_above, le_antisymm_iff, and_comm]

@[simp] theorem empty_isEmpty [Zero α] : (empty : SingleInterval α).isEmpty = true := by
  simp [isEmpty, state, empty, EndpointRange.new]

theorem IntervalBoundary.arrange_eq {l r : IntervalBoundary α} (h : ∀ a ∈ l.value, ∀ b ∈ r.value, a ≤ b) :
    IntervalBoundary.arrange l r = (l, r) := by
  unfold IntervalBoundary.arrange
  split
  · rename_i a b ha hb
    rw [if_neg (not_lt.2 (h a ha b hb))]
  · rfl

/-- The boundaries of a left endpoint and a right one not before it keep their places. -/
theorem ofBoundaries_cuts {l r : EndpointRange α} (hl : l.side = .left) (hr : r.side = .right)
    (h : ∀ a ∈ l.value, ∀ b ∈ r.value, a ≤ b) :
    (ofBoundaries l.boundary r.boundary).lo = l.cut ∧ (ofBoundaries l.boundary r.boundary).hi = r.cut := by
  have harr : IntervalBoundary.arrange l.boundary r.boundary = (l.boundary, r.boundary) :=
    IntervalBoundary.arrange_eq h
  unfold ofBoundaries lo hi
  simp only [harr]
  unfold EndpointRange.boundary
  rw [← hl, ← hr, EndpointRange.new_self, EndpointRange.new_self]
  exact ⟨rfl, rfl⟩

theorem values_le_of_cut_le {l r : EndpointRange α} (h : l.cut ≤ r.cut) : ∀ a ∈ l.value, ∀ b ∈ r.value, a ≤ b :=
  fun _ ha _ hb =>
    below_le_above.1 (((EndpointRange.cut_bounds ha).1.trans h).trans (EndpointRange.cut_bounds hb).2)

/-- An interval is what its boundaries make. -/
theorem ofBoundaries_self (I : SingleInterval α) : ofBoundaries I.left.boundary I.right.boundary = I :=
  eq_iff.2 (ofBoundaries_cuts I.left_side I.right_side I.values_le)

/-! ## Two intervals -/

/-- One has no left end and the other no right end. -/
def Opposed (I J : SingleInterval α) : Prop :=
  I.left.isLimited = false ∧ J.right.isLimited = false ∨ I.right.isLimited = false ∧ J.left.isLimited = false

instance : Decidable (Opposed I J) := inferInstanceAs (Decidable (_ ∨ _))

theorem opposed_iff : Opposed I J ↔ I.lo = ⊥ ∧ J.hi = ⊤ ∨ I.hi = ⊤ ∧ J.lo = ⊥ := by
  rw [Opposed, lo_eq_bot, hi_eq_top, hi_eq_top, lo_eq_bot]

theorem isIntervalInRange_iff : I.isIntervalInRange J = true ↔ I.lo ≤ J.lo ∧ J.hi ≤ I.hi := by
  rw [isIntervalInRange, Bool.and_eq_true, EndpointRange.le_iff_cut (sides_left I J) I.left_known,
    EndpointRange.le_iff_cut (sides_right J I) J.right_known]
  rfl

theorem isAdjacent_iff : I.isAdjacent J = true ↔ I.lo = J.hi ∨ I.hi = J.lo ∨ Opposed I J := by
  rw [isAdjacent, Bool.or_eq_true, decide_eq_true_eq, decide_eq_true_eq,
    EndpointRange.adjacent_iff_cut (.inl ⟨I.left_side, J.right_side⟩),
    EndpointRange.adjacent_iff_cut (.inr ⟨I.right_side, J.left_side⟩), Opposed, or_or_or_comm, or_assoc]
  rfl

/-- When one of two intervals is proper and they have an end at one value, there is no gap
behind the one whose left end it is. -/
theorem no_gap_behind {a : α} (h : Proper I ∨ Proper J) (ha : a ∈ I.left.value) (hb : a ∈ J.right.value) :
    ¬I.hi < J.lo := by
  intro hlt
  -- such a gap is the one at `a`, and there is no room for either interval beside it
  obtain hI | hJ := h
  · have hIhi : I.hi ≤ below a := lt_above_iff.1 (hlt.trans_le (lo_le_of_mem hb))
    exact absurd (hI : I.lo < I.hi) (hIhi.trans (EndpointRange.cut_bounds ha).1).not_gt
  · have hJlo : above a ≤ J.lo := above_le_iff.2 ((le_hi_of_mem ha).trans_lt hlt)
    exact absurd (hJ : J.lo < J.hi) ((EndpointRange.cut_bounds hb).2.trans hJlo).not_gt

/-- Between disjoint intervals there is a gap. -/
theorem gap_of_isDisjoint (h : I.isDisjoint J = true) : J.hi < I.lo ∨ I.hi < J.lo := by
  unfold isDisjoint at h
  split at h
  · exact absurd h (by simp)
  split at h
  · rename_i hlt
    refine .inl ((EndpointRange.right_cut_lt J.right_side I.left_side).2 ⟨hlt, fun hv => ?_⟩)
    simpa [hv] using h
  split at h
  · rename_i hlt
    refine .inr ((EndpointRange.right_cut_lt I.right_side J.left_side).2 ⟨hlt, fun hv => ?_⟩)
    simpa [hv, and_comm] using h
  · exact absurd h (by simp)

/-- Two intervals are disjoint when a gap is between them. -/
theorem isDisjoint_iff (h : Proper I ∨ Proper J) :
    I.isDisjoint J = true ↔ I.isAdjacent J = false ∧ (J.hi < I.lo ∨ I.hi < J.lo) := by
  refine ⟨fun hdis => ⟨?_, gap_of_isDisjoint hdis⟩, fun ⟨hadj, hgap⟩ => ?_⟩
  · rw [← Bool.not_eq_true]
    intro hadj
    rw [isDisjoint, if_pos hadj] at hdis
    exact absurd hdis (by simp)
  have hJI : J.hi < I.lo ↔ _ := EndpointRange.right_cut_lt J.right_side I.left_side
  have hIJ : I.hi < J.lo ↔ _ := EndpointRange.right_cut_lt I.right_side J.left_side
  unfold isDisjoint
  rw [if_neg (by simp [hadj])]
  by_cases h1 : J.right < I.left
  · rw [if_pos h1]
    split
    · -- the ends have one value, so the gap is between them
      rename_i hv
      obtain ⟨b, hb, a, ha, -⟩ := (EndpointRange.right_lt_left J.right_side I.left_side).1 h1
      obtain rfl : a = b := Option.some.inj (ha.symm.trans (hv.trans hb))
      simpa using (hJI.1 (hgap.resolve_right (no_gap_behind h ha hb))).2 hv
    · rfl
  · obtain ⟨h2, hopen⟩ := hIJ.1 (hgap.resolve_left fun hlt => h1 (hJI.1 hlt).1)
    rw [if_neg h1, if_pos h2]
    split
    · rename_i hv
      simpa [and_comm] using hopen hv.symm
    · rfl

/-- **Two intervals are merged when they touch, or when they are opposed.** -/
theorem canMergeWith_iff (hI : Proper I) :
    I.canMergeWith J = true ↔ Opposed I J ∨ I.lo ≤ J.hi ∧ J.lo ≤ I.hi := by
  have hadj := isAdjacent_iff (I := I) (J := J)
  have hdis := isDisjoint_iff (J := J) (.inl hI)
  -- where the ends meet exactly, the other ends are in order
  have hmeet : I.lo = J.hi ∨ I.hi = J.lo → I.lo ≤ J.hi ∧ J.lo ≤ I.hi := by
    rcases le_or_gt J.lo J.hi with hJ | hJ
    · rintro (h | h)
      · exact ⟨h.le, hJ.trans (h ▸ (hI : I.lo < I.hi).le)⟩
      · exact ⟨(hI : I.lo < I.hi).le.trans (h ▸ hJ), h.ge⟩
    · obtain ⟨a, hlo, hhi⟩ := isEmpty_iff.1 (isEmpty_iff_lt.2 hJ)
      rintro (h | h)
      · exact ⟨h.le, hlo ▸ above_le_iff.2 (hhi ▸ h ▸ hI)⟩
      · exact ⟨hhi ▸ lt_above_iff.1 (hlo ▸ h ▸ hI), h.ge⟩
  rw [canMergeWith, Bool.not_eq_true', ← Bool.not_eq_true, hdis, ← Bool.not_eq_true, hadj, not_and_or,
    not_not, not_or, not_lt, not_lt]
  constructor
  · rintro ((h | h | h) | h)
    · exact .inr (hmeet (.inl h))
    · exact .inr (hmeet (.inr h))
    · exact .inl h
    · exact .inr h
  · exact Or.imp (fun h => .inr (.inr h)) id

/-- **Two intervals intersect when each begins before the other ends, unless they are opposed.** -/
theorem isIntersect_iff (h : Proper I ∨ Proper J) :
    I.isIntersect J = true ↔ ¬Opposed I J ∧ I.lo < J.hi ∧ J.lo < I.hi := by
  have hadj := isAdjacent_iff (I := I) (J := J)
  have hdis := isDisjoint_iff h
  rw [isIntersect, Bool.and_eq_true, Bool.not_eq_true', Bool.not_eq_true', ← Bool.not_eq_true, hdis,
    ← Bool.not_eq_true, hadj, not_and_or, not_not, not_or, not_lt, not_lt]
  constructor
  · rintro ⟨hle, hnadj⟩
    obtain ⟨h1, h2⟩ := hle.resolve_left hnadj
    exact ⟨fun h => hnadj (.inr (.inr h)), h1.lt_of_ne fun h => hnadj (.inl h),
      h2.lt_of_ne fun h => hnadj (.inr (.inl h.symm))⟩
  · rintro ⟨hopp, h1, h2⟩
    refine ⟨.inr ⟨h1.le, h2.le⟩, ?_⟩
    rintro (h | h | h)
    · exact h1.ne h
    · exact h2.ne' h
    · exact hopp h

/-- A left endpoint that is not behind that of an interval is not behind its right end. -/
theorem value_le_right {e : EndpointRange α} (he : e.cut ≤ I.lo) : ∀ a ∈ e.value, ∀ b ∈ I.right.value, a ≤ b := by
  intro a ha b hb
  have h := ((EndpointRange.cut_bounds ha).1.trans he).trans (lo_le_of_mem hb)
  exact below_le_above.1 h

/-- A union reaches from the lower of the left ends to the higher of the right ends. -/
theorem tryGetUnion_cuts (h : I.canMergeWith J = true) :
    ∃ U, I.tryGetUnion J = some U ∧ U.lo = min I.lo J.lo ∧ U.hi = max I.hi J.hi := by
  have hl : (if I.left.le J.left then I.left else J.left).cut = min I.lo J.lo := by
    rw [apply_ite EndpointRange.cut, min_def]
    simp only [EndpointRange.le_iff_cut (sides_left I J) I.left_known]
    rfl
  have hr : (if I.right.ge J.right then I.right else J.right).cut = max I.hi J.hi := by
    rw [apply_ite EndpointRange.cut, max_comm, max_def]
    simp only [EndpointRange.ge_iff_cut (sides_right I J) I.right_known]
    rfl
  refine ⟨_, if_pos h, ?_⟩
  -- the ends are in order, so the constructor does not exchange them
  have hle : ∀ a ∈ (if I.left.le J.left then I.left else J.left).value,
      ∀ b ∈ (if I.right.ge J.right then I.right else J.right).value, a ≤ b := by
    intro a ha b hb
    split at hb
    · exact value_le_right (hl.le.trans (min_le_left _ _)) a ha b hb
    · exact value_le_right (hl.le.trans (min_le_right _ _)) a ha b hb
  rw [← hl, ← hr]
  refine ofBoundaries_cuts ?_ ?_ hle
  · split
    · exact I.left_side
    · exact J.left_side
  · split
    · exact I.right_side
    · exact J.right_side

/-- An interval that is the union of two was got by merging them. -/
theorem union_cuts {U : SingleInterval α} (h : I.tryGetUnion J = some U) :
    I.canMergeWith J = true ∧ U.lo = min I.lo J.lo ∧ U.hi = max I.hi J.hi := by
  have hcan : I.canMergeWith J = true := by
    by_contra hno
    rw [tryGetUnion, if_neg hno] at h
    exact absurd h (by simp)
  obtain ⟨U', hU', hcuts⟩ := tryGetUnion_cuts hcan
  obtain rfl := Option.some.inj (h.symm.trans hU')
  exact ⟨hcan, hcuts⟩

/-- A union has both intervals within it. -/
theorem union_covers {U : SingleInterval α} (h : I.tryGetUnion J = some U) :
    (U.lo ≤ I.lo ∧ I.hi ≤ U.hi) ∧ U.lo ≤ J.lo ∧ J.hi ≤ U.hi := by
  obtain ⟨-, hlo, hhi⟩ := union_cuts h
  rw [hlo, hhi]
  exact ⟨⟨min_le_left _ _, le_max_left _ _⟩, min_le_right _ _, le_max_right _ _⟩

/-- A union of which one interval is proper is proper. -/
theorem union_proper {U : SingleInterval α} (h : I.tryGetUnion J = some U) (hproper : Proper I ∨ Proper J) :
    Proper U := by
  obtain ⟨⟨hUI, hIU⟩, hUJ, hJU⟩ := union_covers h
  obtain hI | hJ := hproper
  · exact (hUI.trans_lt hI).trans_le hIU
  · exact (hUJ.trans_lt hJ).trans_le hJU

/-- An interval is the union with itself. -/
theorem union_self {U : SingleInterval α} (h : I.tryGetUnion I = some U) : U = I := by
  obtain ⟨-, hlo, hhi⟩ := union_cuts h
  exact eq_iff.2 ⟨hlo.trans (min_self _), hhi.trans (max_self _)⟩

theorem tryGetUnion_eq_none : I.tryGetUnion J = none ↔ ¬I.canMergeWith J = true := by
  rw [tryGetUnion]
  split <;> simp_all

theorem tryGetIntersect_cuts (hI : Proper I) (h : I.isIntersect J = true) :
    ∃ X, I.tryGetIntersect J = some X ∧ X.lo = max I.lo J.lo ∧ X.hi = min I.hi J.hi := by
  have hl : (if I.left.le J.left then J.left else I.left).cut = max I.lo J.lo := by
    rw [apply_ite EndpointRange.cut, max_def]
    simp only [EndpointRange.le_iff_cut (sides_left I J) I.left_known]
    rfl
  have hr : (if I.right.ge J.right then J.right else I.right).cut = min I.hi J.hi := by
    rw [apply_ite EndpointRange.cut, min_comm, min_def]
    simp only [EndpointRange.ge_iff_cut (sides_right I J) I.right_known]
    rfl
  obtain ⟨-, hIJ, hJI⟩ := (isIntersect_iff (.inl hI)).1 h
  have hle : ∀ a ∈ (if I.left.le J.left then J.left else I.left).value,
      ∀ b ∈ (if I.right.ge J.right then J.right else I.right).value, a ≤ b := by
    rcases le_or_gt J.lo J.hi with hJ | hJ
    · exact values_le_of_cut_le (hl ▸ hr ▸ max_le (le_min (hI : I.lo < I.hi).le hIJ.le) (le_min hJI.le hJ))
    -- an empty interval within the other has both ends
    · have hlo : I.left.le J.left = true :=
        (EndpointRange.le_iff_cut (sides_left I J) I.left_known).2 (hIJ.trans hJ).le
      have hhi : I.right.ge J.right = true :=
        (EndpointRange.ge_iff_cut (sides_right I J) I.right_known).2 (hJ.trans hJI).le
      rw [if_pos hlo, if_pos hhi]
      exact J.values_le
  refine ⟨_, if_pos h, ?_⟩
  rw [← hl, ← hr]
  refine ofBoundaries_cuts ?_ ?_ hle
  · split
    · exact J.left_side
    · exact I.left_side
  · split
    · exact J.right_side
    · exact I.right_side

theorem intersect_cuts {X : SingleInterval α} (hI : Proper I) (h : I.tryGetIntersect J = some X) :
    I.isIntersect J = true ∧ X.lo = max I.lo J.lo ∧ X.hi = min I.hi J.hi := by
  have hint : I.isIntersect J = true := by
    by_contra hno
    rw [tryGetIntersect, if_neg hno] at h
    exact absurd h (by simp)
  obtain ⟨X', hX', hcuts⟩ := tryGetIntersect_cuts hI hint
  obtain rfl := Option.some.inj (h.symm.trans hX')
  exact ⟨hint, hcuts⟩

/-- What lies before another interval ends where that begins. -/
theorem before_cuts (h : I.lo < J.lo) :
    (ofBoundaries I.left.boundary J.left.getAdjacentEndpoint.boundary).lo = I.lo ∧
      (ofBoundaries I.left.boundary J.left.getAdjacentEndpoint.boundary).hi = J.lo := by
  have hlim : J.left.isLimited = true := by
    rw [← Bool.not_eq_false, lo_eq_bot]
    exact h.ne_bot
  have hcut : J.left.getAdjacentEndpoint.cut = J.lo := EndpointRange.getAdjacentEndpoint_cut J.left_known hlim
  have hside : J.left.getAdjacentEndpoint.side = .right := by
    show (if J.left.side = .left then _ else _) = _
    rw [if_pos J.left_side]
  obtain ⟨h1, h2⟩ := ofBoundaries_cuts I.left_side hside (values_le_of_cut_le (hcut ▸ h.le))
  exact ⟨h1, h2.trans hcut⟩

/-- What lies behind another interval begins where that ends. -/
theorem behind_cuts (h : J.hi < I.hi) :
    (ofBoundaries J.right.getAdjacentEndpoint.boundary I.right.boundary).lo = J.hi ∧
      (ofBoundaries J.right.getAdjacentEndpoint.boundary I.right.boundary).hi = I.hi := by
  have hlim : J.right.isLimited = true := by
    rw [← Bool.not_eq_false, hi_eq_top]
    exact h.ne_top
  have hcut : J.right.getAdjacentEndpoint.cut = J.hi :=
    EndpointRange.getAdjacentEndpoint_cut J.right_known hlim
  have hside : J.right.getAdjacentEndpoint.side = .left := by
    show (if J.right.side = .left then _ else _) = _
    rw [if_neg (by rw [J.right_side]; decide)]
  obtain ⟨h1, h2⟩ := ofBoundaries_cuts hside I.right_side (values_le_of_cut_le (hcut ▸ h.le))
  exact ⟨h1.trans hcut, h2⟩

/-- Compared with the left end of the intersection, an interval is compared with `J`. -/
theorem left_intersect {X : SingleInterval α} (hlo : X.lo = max I.lo J.lo) :
    (I.left < X.left ↔ I.lo < J.lo) ∧ (X.left = I.left ↔ J.lo ≤ I.lo) := by
  constructor
  · rw [EndpointRange.lt_iff_cut (sides_left I X) I.left_known]
    show I.lo < X.lo ↔ _
    rw [hlo, lt_max_iff, or_iff_right (lt_irrefl _)]
  · rw [← EndpointRange.cut_inj (sides_left X I) X.left_known]
    show X.lo = I.lo ↔ _
    rw [hlo, max_eq_left_iff]

/-- The same on the right. -/
theorem right_intersect {X : SingleInterval α} (hhi : X.hi = min I.hi J.hi) :
    (X.right < I.right ↔ J.hi < I.hi) ∧ (X.right = I.right ↔ I.hi ≤ J.hi) := by
  constructor
  · rw [EndpointRange.lt_iff_cut (sides_right X I) X.right_known]
    show X.hi < I.hi ↔ _
    rw [hhi, min_lt_iff, or_iff_right (lt_irrefl _)]
  · rw [← EndpointRange.cut_inj (sides_right X I) X.right_known]
    show X.hi = I.hi ↔ _
    rw [hhi, min_eq_left_iff]

/-- What a difference keeps of an interval: what lies before `J`, and what behind it. -/
theorem mem_getDifference [Zero α] {P : SingleInterval α} (hI : Proper I) (h : I.isIntersect J = true) :
    P ∈ I.getDifference J ↔
      (J.lo ≤ I.lo ∧ I.hi ≤ J.hi) ∧ P = empty ∨ I.lo < J.lo ∧ P.lo = I.lo ∧ P.hi = J.lo ∨
        J.hi < I.hi ∧ P.lo = J.hi ∧ P.hi = I.hi := by
  obtain ⟨X, hX, hlo, hhi⟩ := tryGetIntersect_cuts hI h
  unfold getDifference
  rw [h, Bool.not_true, if_neg Bool.false_ne_true]
  by_cases hin : J.isIntervalInRange I = true
  · rw [if_pos hin, List.mem_singleton]
    have hin' := isIntervalInRange_iff.1 hin
    simp [hin', hin'.1.not_gt, hin'.2.not_gt]
  have hin' : ¬(J.lo ≤ I.lo ∧ I.hi ≤ J.hi) := mt isIntervalInRange_iff.2 hin
  rw [if_neg hin, hX]
  obtain ⟨hleft, hleft'⟩ := left_intersect hlo
  obtain ⟨hright, hright'⟩ := right_intersect hhi
  -- the piece before `J` ends where the intersection begins
  have hbefore : I.lo < J.lo → (P = ofBoundaries I.left.boundary X.left.getAdjacentEndpoint.boundary ↔
      P.lo = I.lo ∧ P.hi = J.lo) := by
    intro hlt
    have hXlo : X.lo = J.lo := hlo.trans (max_eq_right hlt.le)
    obtain ⟨h1, h2⟩ := before_cuts (I := I) (J := X) (hXlo ▸ hlt)
    rw [eq_iff, h1, h2, hXlo]
  have hbehind : J.hi < I.hi → (P = ofBoundaries X.right.getAdjacentEndpoint.boundary I.right.boundary ↔
      P.lo = J.hi ∧ P.hi = I.hi) := by
    intro hlt
    have hXhi : X.hi = J.hi := hhi.trans (min_eq_right hlt.le)
    obtain ⟨h1, h2⟩ := behind_cuts (I := I) (J := X) (hXhi ▸ hlt)
    rw [eq_iff, h1, h2, hXhi]
  simp only [hleft, hright, hleft', hright']
  -- two pieces, the left one, or the right one
  by_cases hl : I.lo < J.lo
  · by_cases hr : J.hi < I.hi
    · rw [if_pos ⟨hl, hr⟩, List.mem_cons, List.mem_singleton, hbefore hl, hbehind hr]
      simp [hl, hr, hl.not_ge]
    · rw [if_neg (fun h => hr h.2), if_neg hl.not_ge, if_pos (not_lt.1 hr), List.mem_singleton, hbefore hl]
      simp [hl, hr, hl.not_ge]
  · have hr : J.hi < I.hi := not_le.1 fun h => hin' ⟨not_lt.1 hl, h⟩
    rw [if_neg (fun h => hl h.1), if_pos (not_lt.1 hl), List.mem_singleton, hbehind hr]
    simp [hl, hr, hr.not_ge]

theorem getDifference_of_not_isIntersect [Zero α] (h : ¬I.isIntersect J = true) : I.getDifference J = [I] := by
  unfold getDifference
  rw [if_pos (by simpa using h)]

/-- Intervals that do not intersect have no value in common, unless they are opposed. -/
theorem not_isInRange_of_not_isIntersect (hI : Proper I) (h : ¬I.isIntersect J = true)
    (hopp : Opposed I J → ∀ v, I.isInRange v = true → ¬J.isInRange v = true) (hv : I.isInRange v = true) :
    ¬J.isInRange v = true := by
  by_cases ho : Opposed I J
  · exact hopp ho v hv
  · intro hw
    obtain ⟨hv1, hv2⟩ := isInRange_iff.1 hv
    obtain ⟨hw1, hw2⟩ := isInRange_iff.1 hw
    exact h ((isIntersect_iff (.inl hI)).2 ⟨ho, hv1.trans_lt hw2, hw1.trans_lt hv2⟩)

/-- The values of an intersection. -/
theorem tryGetIntersect_isInRange {X : SingleInterval α} (hI : Proper I)
    (hX : I.tryGetIntersect J = some X) :
    X.isInRange v = true ↔ I.isInRange v = true ∧ J.isInRange v = true := by
  obtain ⟨-, hlo, hhi⟩ := intersect_cuts hI hX
  rw [isInRange_iff, isInRange_iff, isInRange_iff, hlo, hhi, max_le_iff, lt_min_iff, and_and_and_comm]

/-- **The values of a difference**, for two intervals that have none in common when they
are opposed. -/
theorem getDifference_isInRange [Zero α] (hI : Proper I)
    (hopp : Opposed I J → ∀ v, I.isInRange v = true → ¬J.isInRange v = true) :
    (∃ P ∈ I.getDifference J, P.isInRange v = true) ↔ I.isInRange v = true ∧ ¬J.isInRange v = true := by
  by_cases h : I.isIntersect J = true
  · simp only [mem_getDifference hI h]
    -- a value outside `J` is before it or behind it, and so in one of the pieces
    obtain ⟨-, hIJ, hJI⟩ := (isIntersect_iff (.inl hI)).1 h
    rw [isInRange_iff (I := I), isInRange_iff (I := J), not_and_or, not_le, not_lt]
    constructor
    · rintro ⟨P, ⟨-, rfl⟩ | ⟨hlt, hlo, hhi⟩ | ⟨hlt, hlo, hhi⟩, hv⟩
      · exact absurd hv (not_isInRange_of_isEmpty empty_isEmpty)
      · rw [isInRange_iff, hlo, hhi] at hv
        exact ⟨⟨hv.1, hv.2.trans hJI⟩, .inl hv.2⟩
      · rw [isInRange_iff, hlo, hhi] at hv
        exact ⟨⟨hIJ.le.trans hv.1, hv.2⟩, .inr hv.1⟩
    · rintro ⟨⟨hlo, hhi⟩, hv | hv⟩
      · have hlt := hlo.trans_lt hv
        have hP := before_cuts hlt
        exact ⟨_, .inr (.inl ⟨hlt, hP⟩), isInRange_iff.2 (by rw [hP.1, hP.2]; exact ⟨hlo, hv⟩)⟩
      · have hlt := hv.trans_lt hhi
        have hP := behind_cuts hlt
        exact ⟨_, .inr (.inr ⟨hlt, hP⟩), isInRange_iff.2 (by rw [hP.1, hP.2]; exact ⟨hv, hhi⟩)⟩
  · rw [getDifference_of_not_isIntersect h]
    simp only [List.mem_singleton, exists_eq_left]
    exact ⟨fun hv => ⟨hv, not_isInRange_of_not_isIntersect hI h hopp hv⟩, And.left⟩

end SingleInterval

end ProjectTrans
