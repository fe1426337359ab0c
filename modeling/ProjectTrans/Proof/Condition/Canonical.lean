import ProjectTrans.Proof.Condition.SetAlgebra

/-!
# Range conditions in normal form

What is stored is in normal form, and two conditions with the same values store the same
(`run_canonical`), in every run that puts no hollow interval into the set. A half-open
interval between one value and itself has no values, but is not empty for `init_state`,
so the sweep keeps it when nothing touches it.
-/

namespace ProjectTrans

open Cuts SingleInterval

variable {α : Type*} [LinearOrder α]

namespace RangeCondition

/-! ## Nothing is lost in a sweep -/

/-- Every interval that is not empty lies within one that comes out of the sweep. -/
theorem sweep_within {J : SingleInterval α} {rest : List (SingleInterval α)} :
    ∀ {current : SingleInterval α} {result : OrderedSet (SingleInterval α)},
      (∃ K ∈ result, K.lo ≤ J.lo ∧ J.hi ≤ K.hi) ∨
          (current.isEmpty = false ∧ current.lo ≤ J.lo ∧ J.hi ≤ current.hi) ∨ J ∈ rest ∧ J.isEmpty = false →
        ∃ U ∈ sweep current result rest, U.lo ≤ J.lo ∧ J.hi ≤ U.hi := by
  induction rest with
  | nil =>
    intro current result h
    rw [sweep]
    obtain h | ⟨hc, hJ⟩ | ⟨h, -⟩ := h
    · split
      · exact h
      · exact OrderedSet.exists_mem_insert.2 (.inr h)
    · rw [if_neg (by simp [hc])]
      exact OrderedSet.exists_mem_insert.2 (.inl hJ)
    · exact absurd h List.not_mem_nil
  | cons next rest ih =>
    intro current result h
    rw [sweep]
    -- the interval lies in the next one, or is still to come
    have hnext : J ∈ next :: rest ∧ J.isEmpty = false →
        (next.isEmpty = false ∧ next.lo ≤ J.lo ∧ J.hi ≤ next.hi) ∨ J ∈ rest ∧ J.isEmpty = false := by
      rintro ⟨hJ, hne⟩
      obtain rfl | hJ := List.mem_cons.1 hJ
      · exact .inl ⟨hne, le_rfl, le_rfl⟩
      · exact .inr ⟨hJ, hne⟩
    cases hc : current.isEmpty with
    | true =>
      rw [if_pos rfl]
      refine ih ?_
      obtain h | ⟨h, -⟩ | h := h
      · exact .inl h
      · exact absurd (h.symm.trans hc) (by simp)
      · exact .inr (hnext h)
    | false =>
      rw [if_neg Bool.false_ne_true]
      cases hU : current.tryGetUnion next with
      | some U =>
        -- the union takes the place of both
        obtain ⟨hcU, hnU⟩ := union_covers hU
        have hUne : U.isEmpty = false := by
          rw [← Bool.not_eq_true, isEmpty_iff_lt, not_lt] at hc ⊢
          exact (hcU.1.trans hc).trans hcU.2
        refine ih ?_
        obtain h | ⟨-, hJlo, hJhi⟩ | h := h
        · exact .inl h
        · exact .inr (.inl ⟨hUne, hcU.1.trans hJlo, hJhi.trans hcU.2⟩)
        · obtain ⟨-, hJlo, hJhi⟩ | h := hnext h
          · exact .inr (.inl ⟨hUne, hnU.1.trans hJlo, hJhi.trans hnU.2⟩)
          · exact .inr (.inr h)
      | none =>
        refine ih ?_
        obtain h | ⟨-, hJ⟩ | h := h
        · exact .inl (OrderedSet.exists_mem_insert.2 (.inr h))
        · -- the current interval is put out, and the next one becomes current
          exact .inl (OrderedSet.exists_mem_insert.2 (.inl hJ))
        · exact .inr (hnext h)

theorem simplify_within {c : RangeCondition α} {J : SingleInterval α} (hJ : J ∈ c.intervals)
    (hne : J.isEmpty = false) : ∃ U ∈ (simplify c).intervals, U.lo ≤ J.lo ∧ J.hi ≤ U.hi := by
  simp only [OrderedSet.mem_def, simplify_intervals] at hJ ⊢
  cases hl : c.intervals.toList with
  | nil =>
    rw [hl] at hJ
    exact absurd hJ List.not_mem_nil
  | cons I rest =>
    rw [hl] at hJ
    obtain rfl | hJ := List.mem_cons.1 hJ
    · exact sweep_within (.inr (.inl ⟨hne, le_rfl, le_rfl⟩))
    · exact sweep_within (.inr (.inr ⟨hJ, hne⟩))

/-! ## Hollow operands -/

/-- **When a step puts no hollow interval into the set**: a hollow operand of Or is merged
with something stored, one of And lies within nothing stored. -/
def AddsCleanly (c : RangeCondition α) (N : SingleInterval α) : ConditionRelation → Prop
  | .or => Hollow N → ∃ I ∈ c.intervals, I.canMergeWith N = true
  | .and => Hollow N → ∀ I ∈ c.intervals, ¬I.isIntersect N = true
  | _ => True

variable {c : RangeCondition α} {N : SingleInterval α}

/-- What comes out of the sweep is proper, or the operand itself. -/
theorem Tidy.or_cases (hc : Tidy c) (N : SingleInterval α) :
    ∀ U ∈ (simplify (c.orSingleInterval N)).intervals, Proper U ∨ U = N := by
  refine simplify_forall (fun {J K U} hJ hK hU => ?_) fun J hJ => ?_
  · obtain hJ | rfl := hJ
    · exact .inl (union_proper hU (.inl hJ))
    obtain hK | rfl := hK
    · exact .inl (union_proper hU (.inr hK))
    · exact .inr (union_self hU)
  · obtain rfl | hJ := OrderedSet.mem_insert.1 hJ
    · exact .inr rfl
    · exact .inl (hc.proper J hJ)

/-- A hollow interval that touches a stored one does not come out of the sweep. -/
theorem Tidy.or_hollow (hc : Tidy c) {I : SingleInterval α} (hI : I ∈ c.intervals) (hN : Hollow N)
    (hcan : I.canMergeWith N = true) : ∀ U ∈ (simplify (c.orSingleInterval N)).intervals, Proper U := by
  have hIp : I.lo < I.hi := hc.proper I hI
  have hNN := hollow_iff.1 hN
  obtain ⟨hIN, hNI⟩ := ((canMergeWith_iff hIp).1 hcan).resolve_left (hc.finite I hI).not_opposed
  intro U hU
  refine (hc.or_cases N U hU).resolve_right fun hUN => ?_
  -- the operand would stand apart from the interval that has come of `I`
  obtain ⟨V, hV, hVlo, hVhi⟩ := simplify_within (c := c.orSingleInterval N) (OrderedSet.mem_insert.2 (.inr hI))
    (hc.proper I hI).not_isEmpty
  have hVp : V.lo < V.hi := (hVlo.trans_lt hIp).trans_le hVhi
  have hne : V.span ≠ U.span := by
    intro h
    have hlo : V.lo = U.lo := congrArg Span.lo h
    have hhi : V.hi = U.hi := congrArg Span.hi h
    rw [hlo, hhi, hUN, hNN] at hVp
    exact absurd hVp (lt_irrefl _)
  have hgap := (simplify_apart (c.orSingleInterval N)).gaps.gap
    (List.mem_map.2 ⟨V, hV, rfl⟩) (List.mem_map.2 ⟨U, hU, rfl⟩) hne
  obtain hgap | hgap := hgap
  · have hlt : V.hi < N.lo := hUN ▸ hgap
    exact absurd (hNI.trans hVhi) hlt.not_ge
  · have hlt : N.hi < V.lo := hUN ▸ hgap
    exact absurd (hVlo.trans hIN) hlt.not_ge

/-- **A clean step keeps the set tidy.** -/
theorem Tidy.addRange_clean [Zero α] (hc : Tidy c) (hN : N.Finite) {relation : ConditionRelation}
    (hclean : AddsCleanly c N relation) : Tidy (c.addRange N relation) := by
  by_cases hh : Hollow N
  · refine ⟨?_, addRange_finite hc hN relation, simplify_apart _⟩
    cases relation with
    | or =>
      obtain ⟨I, hI, hcan⟩ := hclean hh
      exact hc.or_hollow hI hh hcan
    | and =>
      -- nothing is left to sweep over
      refine simplify_forall (fun {J K U} hJ hK hU => ?_) fun X hX => ?_
      · exact union_proper hU (.inl hJ)
      · obtain ⟨I, hI, hX⟩ := mem_andSingleInterval.1 hX
        exact absurd (intersect_cuts (hc.proper I hI) hX).1 (hclean hh I hI)
    | not | xor | unknown => exact (hc.addRange (.inr ⟨by simp, by simp⟩) hN).1.proper
  · exact (hc.addRange (.inl (regular_iff.2 hh)) hN).1

/-! ## Normal form -/

/-- **The normal form**: the stored intervals have values, are strictly sorted, and no two of
them can be merged. -/
structure NormalForm (c : RangeCondition α) : Prop where
  inhabited : ∀ I ∈ c.intervals, ∃ v, I.isInRange v = true
  sorted : c.intervals.toList.Pairwise (· < ·)
  unmerged : c.intervals.toList.Pairwise fun I J => I.canMergeWith J = false ∧ J.canMergeWith I = false

variable [DenselyOrdered α]

theorem Tidy.normalForm (h : Tidy c) : NormalForm c := by
  refine ⟨fun I hI => h.exists_mem hI, c.intervals.sorted, ?_⟩
  have hgaps : c.intervals.toList.Pairwise fun I J => I.hi < J.lo := List.pairwise_map.1 h.apart.gaps
  refine hgaps.imp_of_mem fun {I J} hI hJ hgap => ?_
  have hno : I.canMergeWith J = false := by
    rw [← Bool.not_eq_true, canMergeWith_iff (h.proper I hI)]
    rintro (hopp | ⟨-, hle⟩)
    · exact (h.finite I hI).not_opposed hopp
    · exact absurd hle hgap.not_ge
  exact ⟨hno, (canMergeWith_comm (.inr (h.proper I hI))).trans hno⟩

/-- **Tidy conditions with the same values store the same intervals.** -/
theorem Tidy.isEqual_iff {A B : RangeCondition α} (hA : Tidy A) (hB : Tidy B) :
    A.isEqual B = true ↔ ∀ v, A.isInRange v = B.isInRange v := by
  rw [isEqual, decide_eq_true_eq]
  refine ⟨fun h v => by rw [isInRange, isInRange, h], fun h => ?_⟩
  -- one inclusion, for any two; it is used in both directions
  have hsub : ∀ {A B : RangeCondition α}, Tidy A → Tidy B → (∀ v, A.isInRange v = B.isInRange v) →
      ∀ I ∈ A.intervals, I ∈ B.intervals := by
    intro A B hA hB h I hI
    have hmem : ∀ {c : RangeCondition α} {v : α},
        (∃ t ∈ c.intervals.toList.map span, v ∈ t) ↔ c.isInRange v = true := by
      intro c v
      rw [isInRange_iff]
      constructor
      · rintro ⟨t, ht, hv⟩
        obtain ⟨J, hJ, rfl⟩ := List.mem_map.1 ht
        exact ⟨J, hJ, mem_span.1 hv⟩
      · rintro ⟨J, hJ, hv⟩
        exact ⟨J.span, List.mem_map.2 ⟨J, hJ, rfl⟩, mem_span.2 hv⟩
    have hbounded : ∀ {c : RangeCondition α}, Tidy c → ∀ t ∈ c.intervals.toList.map span, t.Bounded := by
      intro c hc t ht
      obtain ⟨J, hJ, rfl⟩ := List.mem_map.1 ht
      exact (hc.proper J hJ).bounded (hc.finite J hJ)
    -- spans with gaps between them are told apart by what they cover
    have hspan : I.span ∈ B.intervals.toList.map span :=
      hA.apart.gaps.mem_of_mem_iff hB.apart.gaps (hbounded hA) (hbounded hB)
        (fun v => by rw [hmem, hmem, h]) (List.mem_map.2 ⟨I, hI, rfl⟩)
    obtain ⟨J, hJ, hJI⟩ := List.mem_map.1 hspan
    obtain rfl : J = I := eq_iff.2 ⟨congrArg Span.lo hJI, congrArg Span.hi hJI⟩
    exact hJ
  exact OrderedSet.ext_mem fun I => ⟨hsub hA hB h I, hsub hB hA (fun v => (h v).symm) I⟩

/-- A run with intervals of finite ends that puts no hollow interval into the set. -/
structure CleanRun [Zero α] (start : Construction α) (calls : List (SingleInterval α × ConditionRelation)) :
    Prop where
  start_finite : start.Finite
  start_clean : start.Clean
  calls_finite : ∀ call ∈ calls, call.1.Finite
  calls_clean : Run.Meets (fun c call => AddsCleanly c call.1 call.2) addCall start.build calls

omit [DenselyOrdered α] in
theorem CleanRun.tidy [Zero α] {start : Construction α} {calls : List (SingleInterval α × ConditionRelation)}
    (h : CleanRun start calls) : Tidy (calls.foldl addCall start.build) := by
  refine (h.calls_clean.and_forall h.calls_finite).invariant Tidy ?_
    (Construction.build_tidy h.start_clean h.start_finite)
  rintro c call hc ⟨hfin, hclean⟩
  exact hc.addRange_clean hfin hclean

/-- **Clean runs end in normal form, and two of them have the same values when `is_equal`
says so.** -/
theorem run_canonical [Zero α] {start start' : Construction α}
    {calls calls' : List (SingleInterval α × ConditionRelation)} (h : CleanRun start calls)
    (h' : CleanRun start' calls') :
    NormalForm (calls.foldl addCall start.build) ∧
      ((∀ v, (calls.foldl addCall start.build).isInRange v = (calls'.foldl addCall start'.build).isInRange v) ↔
        (calls.foldl addCall start.build).isEqual (calls'.foldl addCall start'.build) = true) :=
  ⟨h.tidy.normalForm, (h.tidy.isEqual_iff h'.tidy).symm⟩

/-- `[0, 2)`, with `[1, 1)` added and removed, and the same from `[0, 2]` without 2. -/
theorem run_canonical_hollow :
    let half : SingleInterval ℚ := .ofBoundaries ⟨some 0, false⟩ ⟨some 2, true⟩
    let whole : SingleInterval ℚ := .ofBoundaries ⟨some 0, false⟩ ⟨some 2, false⟩
    let hollow : SingleInterval ℚ := .ofBoundaries ⟨some 1, false⟩ ⟨some 1, true⟩
    let calls := [(half, ConditionRelation.or), (hollow, .or), (hollow, .not)]
    let calls' := [(.ofPoint 2, ConditionRelation.not)]
    ∀ v, (calls.foldl addCall (Construction.build .default)).isInRange v =
      (calls'.foldl addCall (Construction.build (.interval whole))).isInRange v := by
  intro half whole hollow calls calls'
  have hhollow : ∃ I ∈ (empty.addRange half .or).intervals, I.canMergeWith hollow = true := by decide
  have hclean : CleanRun .default calls := by
    refine ⟨trivial, trivial, ?_, fun h => absurd h (by decide), fun _ => hhollow, trivial, trivial⟩
    simp only [calls, List.forall_mem_cons]
    exact ⟨by decide, by decide, by decide, by simp⟩
  have hclean' : CleanRun (.interval whole) calls' := by
    refine ⟨show whole.Finite by decide, show ¬Hollow whole by decide, ?_, trivial, trivial⟩
    simp only [calls', List.forall_mem_cons]
    exact ⟨by decide, by simp⟩
  exact (run_canonical hclean hclean').2.2 (by decide)

/-- `[0, 0)` added to nothing: it is stored, has no value, and makes the condition unequal to
one without values. -/
theorem hollow_stored :
    let hollow : SingleInterval ℚ := .ofBoundaries ⟨some 0, false⟩ ⟨some 0, true⟩
    let c := empty.addRange hollow .or
    hollow.Finite ∧ (∀ v, c.isInRange v = (empty : RangeCondition ℚ).isInRange v) ∧ c.isEqual empty = false ∧
      ¬NormalForm c := by
  intro hollow c
  have hstored : c.intervals.toList = [hollow] := by decide
  have hnone : ∀ v, ¬hollow.isInRange v = true := by
    intro v hv
    have hh : hollow.lo = hollow.hi := hollow_iff.1 (by decide)
    exact absurd (proper_of_mem hv) hh.not_lt
  refine ⟨by decide, fun v => ?_, by decide, fun h => ?_⟩
  · rw [isInRange, hstored]
    simpa [isInRange, empty, OrderedSet.empty] using hnone v
  · have hmem : hollow ∈ c.intervals := by
      rw [OrderedSet.mem_def, hstored]
      exact List.mem_singleton.2 rfl
    obtain ⟨v, hv⟩ := h.inhabited hollow hmem
    exact hnone v hv

end RangeCondition

end ProjectTrans
