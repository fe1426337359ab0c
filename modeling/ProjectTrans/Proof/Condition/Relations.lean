import ProjectTrans.Lib.Spans
import ProjectTrans.Proof.Condition.Interval

/-!
# Relations of two intervals

Over a dense order the three relations of two intervals with values are told by their
values (`relations_iff`): they intersect when they share one, they are adjacent when they
share none and make up one interval. It fails for opposed intervals, which the code always
calls adjacent. The pieces of a difference share no value, and together with the
intersection they are the interval (`difference_and_intersect`).
-/

namespace ProjectTrans

open Cuts

namespace SingleInterval

variable {α : Type*} [LinearOrder α] {I J : SingleInterval α} {v : α}

/-! ## Intervals as spans -/

/-- An interval as what lies between its ends. -/
def span (I : SingleInterval α) : Span α := ⟨I.lo, I.hi⟩

theorem mem_span : v ∈ I.span ↔ I.isInRange v = true := isInRange_iff.symm

/-- Both ends have values. -/
def Finite (I : SingleInterval α) : Prop := I.left.isLimited = true ∧ I.right.isLimited = true

instance : Decidable I.Finite := inferInstanceAs (Decidable (_ ∧ _))

theorem finite_iff : I.Finite ↔ I.lo ≠ ⊥ ∧ I.hi ≠ ⊤ := by
  rw [Finite, ← Bool.not_eq_false, ← Bool.not_eq_false, lo_eq_bot, hi_eq_top]

theorem Finite.not_opposed (h : I.Finite) : ¬Opposed I J := by
  rw [opposed_iff]
  rintro (ho | ho)
  · exact (finite_iff.1 h).1 ho.1
  · exact (finite_iff.1 h).2 ho.1

theorem Proper.bounded (h : Proper I) (hf : I.Finite) : I.span.Bounded :=
  ⟨h, (finite_iff.1 hf).1, (finite_iff.1 hf).2⟩

/-- Two intervals with values share one when each begins before the other ends. -/
theorem share_iff [DenselyOrdered α] (hI : ∃ v, I.isInRange v = true) (hJ : ∃ v, J.isInRange v = true) :
    (∃ v, I.isInRange v = true ∧ J.isInRange v = true) ↔ I.lo < J.hi ∧ J.lo < I.hi := by
  simp only [← mem_span] at *
  exact Cuts.share_iff hI hJ

/-! ## Disjoint, adjacent, intersecting -/

theorem isAdjacent_comm : I.isAdjacent J = J.isAdjacent I := by
  rw [Bool.eq_iff_iff, isAdjacent_iff, isAdjacent_iff, opposed_iff, opposed_iff]
  grind

theorem isDisjoint_comm (h : Proper I ∨ Proper J) : I.isDisjoint J = J.isDisjoint I := by
  rw [Bool.eq_iff_iff, isDisjoint_iff h, isDisjoint_iff h.symm, isAdjacent_comm, or_comm]

theorem isIntersect_comm (h : Proper I ∨ Proper J) : I.isIntersect J = J.isIntersect I := by
  rw [isIntersect, isIntersect, isDisjoint_comm h, isAdjacent_comm]

theorem canMergeWith_comm (h : Proper I ∨ Proper J) : I.canMergeWith J = J.canMergeWith I := by
  rw [canMergeWith, canMergeWith, isDisjoint_comm h]

/-- Of the three relations the code lets exactly one hold. -/
theorem exactly_one_relation (I J : SingleInterval α) :
    (I.isDisjoint J).toNat + (I.isAdjacent J).toNat + (I.isIntersect J).toNat = 1 := by
  have hadj : I.isAdjacent J = true → I.isDisjoint J = false := fun h => by rw [isDisjoint, if_pos h]
  rw [isIntersect]
  cases h : I.isAdjacent J with
  | true => simp [hadj h]
  | false => cases I.isDisjoint J <;> rfl

/-- Some interval has the values of both and no others. -/
def UnionIsInterval (I J : SingleInterval α) : Prop :=
  ∃ U : SingleInterval α, ∀ v, U.isInRange v = true ↔ I.isInRange v = true ∨ J.isInRange v = true

theorem UnionIsInterval.symm (h : UnionIsInterval I J) : UnionIsInterval J I :=
  h.imp fun _ hU v => (hU v).trans or_comm

/-- An interval and one that does not begin before it ends make up an interval when that
begins where the first ends. -/
theorem unionIsInterval_iff [DenselyOrdered α] (hI : ∃ v, I.isInRange v = true) (hJ : ∃ v, J.isInRange v = true)
    (hle : I.hi ≤ J.lo) : UnionIsInterval I J ↔ I.hi = J.lo := by
  obtain ⟨v, hv⟩ := hI
  obtain ⟨w, hw⟩ := hJ
  have hvI := isInRange_iff.1 hv
  have hwJ := isInRange_iff.1 hw
  constructor
  · rintro ⟨U, hU⟩
    by_contra hne
    -- a value of the gap lies between `v` and `w`, so `U` has it
    obtain ⟨u, hIu, huJ⟩ := exists_value hi_ne_bot lo_ne_top (hle.lt_of_ne hne)
    have hUv := isInRange_iff.1 ((hU v).2 (.inl hv))
    have hUw := isInRange_iff.1 ((hU w).2 (.inr hw))
    have hUu : U.isInRange u = true :=
      isInRange_iff.2 ⟨hUv.1.trans (hvI.2.le.trans hIu), (huJ.trans_le hwJ.1).trans hUw.2⟩
    obtain hu | hu := (hU u).1 hUu
    · exact absurd (isInRange_iff.1 hu).2 hIu.not_gt
    · exact absurd (isInRange_iff.1 hu).1 huJ.not_ge
  · intro htouch
    have hcan : I.canMergeWith J = true :=
      (canMergeWith_iff (proper_of_mem hv)).2
        (.inr ⟨(hvI.1.trans hvI.2.le).trans (hle.trans (hwJ.1.trans hwJ.2.le)), htouch.ge⟩)
    obtain ⟨U, -, hlo, hhi⟩ := tryGetUnion_cuts hcan
    rw [min_eq_left ((hvI.1.trans hvI.2.le).trans hle)] at hlo
    rw [max_eq_right (hle.trans (hwJ.1.trans hwJ.2.le))] at hhi
    refine ⟨U, fun u => ?_⟩
    rw [isInRange_iff, isInRange_iff, isInRange_iff, hlo, hhi]
    constructor
    · rintro ⟨h1, h2⟩
      rcases lt_or_ge (below u) I.hi with h | h
      · exact .inl ⟨h1, h⟩
      · exact .inr ⟨htouch ▸ h, h2⟩
    · rintro (⟨h1, h2⟩ | ⟨h1, h2⟩)
      · exact ⟨h1, (h2.trans_le hle).trans (hwJ.1.trans_lt hwJ.2)⟩
      · exact ⟨(hvI.1.trans hvI.2.le).trans (hle.trans h1), h2⟩

/-- Two intervals that share no value make up one interval when one begins where the
other ends. -/
theorem touch_iff [DenselyOrdered α] (hI : ∃ v, I.isInRange v = true) (hJ : ∃ v, J.isInRange v = true) :
    (¬∃ v, I.isInRange v = true ∧ J.isInRange v = true) ∧ UnionIsInterval I J ↔ I.hi = J.lo ∨ J.hi = I.lo := by
  have hIp : I.lo < I.hi := proper_of_mem hI.choose_spec
  have hJp : J.lo < J.hi := proper_of_mem hJ.choose_spec
  rw [share_iff hI hJ, not_and_or, not_lt, not_lt]
  constructor
  · rintro ⟨hle | hle, hU⟩
    · exact .inr ((unionIsInterval_iff hJ hI hle).1 hU.symm)
    · exact .inl ((unionIsInterval_iff hI hJ hle).1 hU)
  · rintro (h | h)
    · exact ⟨.inr h.le, (unionIsInterval_iff hI hJ h.le).2 h⟩
    · exact ⟨.inl h.le, ((unionIsInterval_iff hJ hI h.le).2 h).symm⟩

/-- The three relations as the values of the two intervals tell them. -/
structure RelationsByValues (I J : SingleInterval α) : Prop where
  exactly_one : (I.isDisjoint J).toNat + (I.isAdjacent J).toNat + (I.isIntersect J).toNat = 1
  intersect : I.isIntersect J = true ↔ ∃ v, I.isInRange v = true ∧ J.isInRange v = true
  adjacent : I.isAdjacent J = true ↔
    (¬∃ v, I.isInRange v = true ∧ J.isInRange v = true) ∧ UnionIsInterval I J
  symmetric : I.isDisjoint J = J.isDisjoint I ∧ I.isAdjacent J = J.isAdjacent I ∧
    I.isIntersect J = J.isIntersect I

/-- **The relations are those of the values, except for opposed intervals that do not
touch**: an end at infinity is taken for the adjacent end of the opposite one. -/
theorem relations_iff [DenselyOrdered α] (hI : ∃ v, I.isInRange v = true) (hJ : ∃ v, J.isInRange v = true) :
    RelationsByValues I J ↔ (Opposed I J → I.hi = J.lo ∨ J.hi = I.lo) := by
  have hIp := proper_of_mem hI.choose_spec
  constructor
  · intro h hopp
    -- opposed intervals are called adjacent, so they have to touch
    have hadj : I.isAdjacent J = true := isAdjacent_iff.2 (.inr (.inr hopp))
    exact (touch_iff hI hJ).1 (h.adjacent.1 hadj)
  · intro h
    refine ⟨exactly_one_relation I J, ?_, ?_, isDisjoint_comm (.inl hIp), isAdjacent_comm,
      isIntersect_comm (.inl hIp)⟩
    · rw [isIntersect_iff (.inl hIp), share_iff hI hJ]
      refine ⟨And.right, fun hshare => ⟨fun hopp => ?_, hshare⟩⟩
      obtain htouch | htouch := h hopp
      · exact hshare.2.ne' htouch
      · exact hshare.1.ne' htouch
    · rw [touch_iff hI hJ, isAdjacent_iff]
      constructor
      · rintro (htouch | htouch | hopp)
        · exact .inr htouch.symm
        · exact .inl htouch
        · exact h hopp
      · rintro (htouch | htouch)
        · exact .inr (.inl htouch)
        · exact .inl htouch.symm

/-- `(-∞, 1)` and `[1, ∞)`. -/
theorem relations_iff_rays :
    RelationsByValues (α := ℚ) (.ofEndpoint (.new (some 1) true .right))
      (.ofEndpoint (.new (some 1) false .left)) :=
  (relations_iff ⟨0, by decide⟩ ⟨2, by decide⟩).2 fun _ => .inl (by decide)

/-- The whole line has 0 and is not found to intersect itself. -/
theorem wholeLine_adjacent_itself :
    let line : SingleInterval ℚ := .ofBoundaries ⟨none, true⟩ ⟨none, true⟩
    line.isInRange 0 = true ∧ line.isIntersect line = false ∧ line.isAdjacent line = true ∧
      ¬RelationsByValues line line := by
  intro line
  have h0 : line.isInRange 0 = true := by decide
  have hint : line.isIntersect line = false := by decide
  refine ⟨h0, hint, by decide, fun h => ?_⟩
  have hyes := h.intersect.2 ⟨0, h0, h0⟩
  rw [hint] at hyes
  exact absurd hyes (by decide)

/-! ## Differences -/

/-- Of two pieces of a difference, the first ends where the operand begins and the second
begins where it ends. -/
theorem getDifference_pieces [Zero α] (hI : Proper I) :
    (I.getDifference J).Pairwise fun P Q => P.hi = J.lo ∧ Q.lo = J.hi := by
  by_cases h : I.isIntersect J = true
  · obtain ⟨X, hX, hlo, hhi⟩ := tryGetIntersect_cuts hI h
    unfold getDifference
    rw [h, Bool.not_true, if_neg Bool.false_ne_true]
    split
    · exact List.pairwise_singleton _ _
    · rw [hX]
      simp only
      split
      · rename_i hboth
        -- the only branch with two pieces: the intersection is the operand
        have hl : I.lo < X.lo := (EndpointRange.lt_iff_cut (sides_left I X) I.left_known).1 hboth.1
        have hr : X.hi < I.hi := (EndpointRange.lt_iff_cut (sides_right X I) X.right_known).1 hboth.2
        have hXlo : X.lo = J.lo := by
          rw [hlo, lt_max_iff] at hl
          exact hlo.trans (max_eq_right (hl.resolve_left (lt_irrefl _)).le)
        have hXhi : X.hi = J.hi := by
          rw [hhi, min_lt_iff] at hr
          exact hhi.trans (min_eq_right (hr.resolve_left (lt_irrefl _)).le)
        refine List.pairwise_pair.2 ⟨?_, ?_⟩
        · exact (before_cuts hl).2.trans hXlo
        · exact (behind_cuts hr).1.trans hXhi
      · split
        · exact List.pairwise_singleton _ _
        · split
          · exact List.pairwise_singleton _ _
          · exact List.Pairwise.nil
  · rw [getDifference_of_not_isIntersect h]
    exact List.pairwise_singleton _ _

/-- **Difference and intersection**, of an interval with finite ends and any other: the pieces of the difference
share no value and have the values of the first that the second has not; there is an
intersection when the two share a value, and it has the values they share. -/
theorem difference_and_intersect [DenselyOrdered α] [Zero α] (hI : ∃ v, I.isInRange v = true)
    (hJ : ∃ v, J.isInRange v = true) (hfin : I.Finite) :
    (I.getDifference J).Pairwise (fun P Q => ¬∃ v, P.isInRange v = true ∧ Q.isInRange v = true) ∧
      (∀ v, (∃ P ∈ I.getDifference J, P.isInRange v = true) ↔ I.isInRange v = true ∧ ¬J.isInRange v = true) ∧
      (I.tryGetIntersect J = none ↔ ¬∃ v, I.isInRange v = true ∧ J.isInRange v = true) ∧
      ∀ X ∈ I.tryGetIntersect J, ∀ v, X.isInRange v = true ↔ I.isInRange v = true ∧ J.isInRange v = true := by
  have hIp := proper_of_mem hI.choose_spec
  have hJp : J.lo < J.hi := proper_of_mem hJ.choose_spec
  refine ⟨?_, fun v => ?_, ?_, fun X hX v => tryGetIntersect_isInRange hIp hX⟩
  · apply (getDifference_pieces hIp).imp
    rintro P Q ⟨hP, hQ⟩ ⟨v, hvP, hvQ⟩
    have hlt := (isInRange_iff.1 hvQ).1.trans_lt (isInRange_iff.1 hvP).2
    rw [hP, hQ] at hlt
    exact absurd hJp hlt.not_gt
  · exact getDifference_isInRange hIp fun hopp => absurd hopp hfin.not_opposed
  · rw [share_iff hI hJ]
    have hint : I.isIntersect J = true ↔ I.lo < J.hi ∧ J.lo < I.hi := by
      rw [isIntersect_iff (.inl hIp)]
      exact and_iff_right hfin.not_opposed
    rw [← hint, tryGetIntersect]
    split
    · rename_i h
      simp [h]
    · rename_i h
      simp [h]

/-- `[0, 2]` without `(1, 2]`, and what the two share. -/
theorem difference_and_intersect_overlap :
    let I : SingleInterval ℚ := .ofBoundaries ⟨some 0, false⟩ ⟨some 2, false⟩
    let J : SingleInterval ℚ := .ofBoundaries ⟨some 1, true⟩ ⟨some 2, false⟩
    ((∃ P ∈ I.getDifference J, P.isInRange 1 = true) ↔ I.isInRange 1 = true ∧ ¬J.isInRange 1 = true) ∧
      ∀ X ∈ I.tryGetIntersect J, X.isInRange 2 = true ↔ I.isInRange 2 = true ∧ J.isInRange 2 = true := by
  intro I J
  have h := difference_and_intersect (I := I) (J := J) ⟨1, by decide⟩ ⟨2, by decide⟩ (by decide)
  exact ⟨h.2.1 1, fun X hX => h.2.2.2 X hX 2⟩

end SingleInterval

end ProjectTrans
