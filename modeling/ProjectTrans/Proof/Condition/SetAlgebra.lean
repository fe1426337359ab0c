import ProjectTrans.Proof.Condition.NormalForm

/-!
# The algebra of finite range conditions

Of range conditions made from intervals that have values and finite ends, union,
intersection and difference are those of their values (`setOperations_isInRange`), and
containment and overlap are told by the intervals (`containment_and_overlap`). Both rest
on what such a condition stores (`Tidy`). `add_range` of a range is the union or the
difference for Or and Not; And is right for one interval at a time only
(`addRangeCondition_iff`).
-/

namespace ProjectTrans

open Cuts SingleInterval

variable {α : Type*} [LinearOrder α]

namespace RangeCondition

/-! ## Conditions with finite ends -/

/-- The interval a constructor is given has finite ends. -/
def Construction.Finite : Construction α → Prop
  | interval value => value.Finite
  | _ => True

/-- The interval a constructor is given is not hollow. -/
def Construction.Clean : Construction α → Prop
  | interval value => ¬Hollow value
  | _ => True

theorem Construction.Inhabited.clean {start : Construction α} (h : start.Inhabited) : start.Clean := by
  cases start with
  | interval I => exact regular_iff.1 (.inl (proper_of_mem h.choose_spec))
  | default | point _ => trivial

/-- A range condition made from intervals that have values and finite ends. -/
def BuiltFinite [Zero α] (c : RangeCondition α) : Prop :=
  ∃ (start : Construction α) (calls : List (SingleInterval α × ConditionRelation)),
    (start.Inhabited ∧ start.Finite) ∧ (∀ call ∈ calls, (∃ v, call.1.isInRange v = true) ∧ call.1.Finite) ∧
      c = calls.foldl addCall start.build

/-- What a condition with finite ends stores. -/
structure Tidy (c : RangeCondition α) : Prop where
  proper : ∀ I ∈ c.intervals, Proper I
  finite : ∀ I ∈ c.intervals, I.Finite
  apart : Apart c

theorem finite_of_union {I J U : SingleInterval α} (hI : I.Finite) (hJ : J.Finite)
    (hU : I.tryGetUnion J = some U) : U.Finite := by
  obtain ⟨-, hlo, hhi⟩ := union_cuts hU
  rw [finite_iff] at *
  rw [hlo, hhi, ne_eq, ne_eq, min_eq_bot, max_eq_top]
  exact ⟨not_or.2 ⟨hI.1, hJ.1⟩, not_or.2 ⟨hI.2, hJ.2⟩⟩

theorem finite_of_intersect {I J X : SingleInterval α} (hIp : Proper I) (hI : I.Finite)
    (hX : I.tryGetIntersect J = some X) : X.Finite := by
  obtain ⟨-, hlo, hhi⟩ := intersect_cuts hIp hX
  rw [finite_iff] at *
  rw [hlo, hhi, ne_eq, ne_eq, max_eq_bot, min_eq_top]
  exact ⟨fun h => hI.1 h.1, fun h => hI.2 h.1⟩

theorem finite_of_difference [Zero α] {I J P : SingleInterval α} (hIp : Proper I) (hI : I.Finite)
    (hP : P ∈ I.getDifference J) : P.Finite := by
  by_cases h : I.isIntersect J = true
  · obtain ⟨-, rfl⟩ | ⟨-, hlo, hhi⟩ | ⟨-, hlo, hhi⟩ := (mem_getDifference hIp h).1 hP
    · exact ⟨rfl, rfl⟩
    · exact finite_iff.2 ⟨hlo ▸ (finite_iff.1 hI).1, hhi ▸ lo_ne_top⟩
    · exact finite_iff.2 ⟨hlo ▸ hi_ne_bot, hhi ▸ (finite_iff.1 hI).2⟩
  · rw [getDifference_of_not_isIntersect h, List.mem_singleton] at hP
    exact hP ▸ hI

/-- At finite ends no step goes wrong. -/
theorem addsSafely_of_finite [Zero α] {c : RangeCondition α} {N : SingleInterval α}
    (hc : ∀ I ∈ c.intervals, I.Finite) (hN : N.Finite) (relation : ConditionRelation) :
    AddsSafely c N relation := by
  have hleft : ¬∃ I ∈ c.intervals, I.left.isLimited = false := by
    rintro ⟨I, hI, h⟩
    exact absurd ((hc I hI).1.symm.trans h) (by simp)
  have hapart : OpposedApart c N := fun I hI hopp => absurd hopp (hc I hI).not_opposed
  cases relation with
  | or =>
    rintro (h | h)
    · exact absurd (hN.1.symm.trans h) (by simp)
    · exact absurd h hleft
  | and => exact hapart
  | not =>
    refine ⟨hapart, ?_⟩
    rintro ⟨I, hI, h, -⟩
    exact absurd ⟨I, hI, h⟩ hleft
  | xor | unknown => exact fun h => absurd h hleft

theorem addRange_finite [Zero α] {c : RangeCondition α} {N : SingleInterval α} (hc : Tidy c) (hN : N.Finite)
    (relation : ConditionRelation) : ∀ I ∈ (c.addRange N relation).intervals, I.Finite := by
  refine simplify_forall finite_of_union fun I hI => ?_
  cases relation with
  | or =>
    obtain rfl | hI := OrderedSet.mem_insert.1 hI
    · exact hN
    · exact hc.finite I hI
  | and =>
    obtain ⟨J, hJ, hX⟩ := mem_andSingleInterval.1 hI
    exact finite_of_intersect (hc.proper J hJ) (hc.finite J hJ) hX
  | not =>
    obtain ⟨J, hJ, hP⟩ := mem_notSingleInterval.1 hI
    exact finite_of_difference (hc.proper J hJ) (hc.finite J hJ) hP
  | xor | unknown => exact hc.finite I hI

/-- **One step** with a finite interval. -/
theorem Tidy.addRange [Zero α] {c : RangeCondition α} {N : SingleInterval α} (hc : Tidy c)
    {relation : ConditionRelation} (hN : Regular N ∨ relation ≠ .or ∧ relation ≠ .and) (hfin : N.Finite) :
    Tidy (c.addRange N relation) ∧
      ∀ v, (c.addRange N relation).isInRange v = evaluate relation (c.isInRange v) (N.isInRange v) := by
  obtain ⟨hproper, hv⟩ := addRange_spec hc.proper hN (addsSafely_of_finite hc.finite hfin relation)
  exact ⟨⟨hproper, addRange_finite hc hfin relation, simplify_apart _⟩, hv⟩

theorem tidy_empty : Tidy (empty : RangeCondition α) :=
  ⟨fun I hI => absurd hI (OrderedSet.not_mem_empty I), fun I hI => absurd hI (OrderedSet.not_mem_empty I),
    List.Pairwise.nil, fun I hI => absurd hI (OrderedSet.not_mem_empty I)⟩

theorem Construction.build_tidy [Zero α] {start : Construction α} (h : start.Clean) (hfin : start.Finite) :
    Tidy start.build := by
  have hstored : ∀ I ∈ start.build.intervals, Proper I ∧ I.Finite := by
    intro I hI
    cases start with
    | default => exact absurd hI (OrderedSet.not_mem_empty I)
    | point a =>
      obtain rfl := List.mem_singleton.1 hI
      exact ⟨proper_of_mem (ofPoint_isInRange.2 rfl), rfl, rfl⟩
    | interval J =>
      simp only [build, ofInterval] at hI
      split at hI
      · exact absurd hI (OrderedSet.not_mem_empty I)
      · rename_i hne
        obtain rfl := List.mem_singleton.1 hI
        exact ⟨(regular_iff.2 h).resolve_right hne, hfin⟩
  exact ⟨fun I hI => (hstored I hI).1, fun I hI => (hstored I hI).2, Built.apart ⟨start, [], rfl⟩⟩

/-- A list of intervals added with one relation. -/
theorem Tidy.addAll [Zero α] {l : List (SingleInterval α)} (hl : ∀ N ∈ l, Proper N ∧ N.Finite)
    (relation : ConditionRelation) : ∀ {c : RangeCondition α}, Tidy c →
      Tidy (l.foldl (fun c N => c.addRange N relation) c) ∧
        ∀ v, (l.foldl (fun c N => c.addRange N relation) c).isInRange v =
          l.foldl (fun current N => evaluate relation current (N.isInRange v)) (c.isInRange v) := by
  induction l with
  | nil => exact fun hc => ⟨hc, fun _ => rfl⟩
  | cons N l ih =>
    intro c hc
    obtain ⟨hNp, hNf⟩ := hl N List.mem_cons_self
    have hregular : Regular N ∨ relation ≠ .or ∧ relation ≠ .and := .inl (.inl hNp)
    obtain ⟨hstep, hv⟩ := hc.addRange hregular hNf
    obtain ⟨htidy, hrest⟩ := ih (fun M hM => hl M (List.mem_cons_of_mem _ hM)) hstep
    refine ⟨htidy, fun v => ?_⟩
    rw [List.foldl_cons, List.foldl_cons, hrest, hv]

theorem BuiltFinite.tidy [Zero α] {c : RangeCondition α} (h : BuiltFinite c) : Tidy c := by
  obtain ⟨start, calls, ⟨hstart, hfin⟩, hcalls, rfl⟩ := h
  refine List.foldlRecOn calls addCall (Construction.build_tidy hstart.clean hfin) fun c hc call hcall => ?_
  obtain ⟨⟨v, hv⟩, hN⟩ := hcalls call hcall
  exact (hc.addRange (.inl (.inl (proper_of_mem hv))) hN).1

theorem BuiltFinite.default [Zero α] : BuiltFinite (empty : RangeCondition α) :=
  ⟨.default, [], ⟨trivial, trivial⟩, by simp, rfl⟩

theorem BuiltFinite.addRange [Zero α] {c : RangeCondition α} {N : SingleInterval α} (h : BuiltFinite c)
    (hN : ∃ v, N.isInRange v = true) (hfin : N.Finite) (relation : ConditionRelation) :
    BuiltFinite (c.addRange N relation) := by
  obtain ⟨start, calls, hstart, hcalls, rfl⟩ := h
  refine ⟨start, calls ++ [(N, relation)], hstart, fun call hcall => ?_, ?_⟩
  · obtain hcall | hcall := List.mem_append.1 hcall
    · exact hcalls call hcall
    · obtain rfl := List.mem_singleton.1 hcall
      exact ⟨hN, hfin⟩
  · rw [List.foldl_append]
    rfl

theorem BuiltFinite.addRangeValue [Zero α] {c : RangeCondition α} (h : BuiltFinite c) (v : α)
    (relation : ConditionRelation) : BuiltFinite (c.addRangeValue v relation) :=
  h.addRange ⟨v, ofPoint_isInRange.2 rfl⟩ ⟨rfl, rfl⟩ relation

/-! ## Union, intersection, difference -/

section Pointwise

variable {l : List (SingleInterval α)} {v : α} {b : Bool}

theorem foldl_or : l.foldl (fun current N => evaluate .or current (N.isInRange v)) b =
    (b || l.any fun N => N.isInRange v) := by
  induction l generalizing b with
  | nil => simp
  | cons N l ih => rw [List.foldl_cons, ih, List.any_cons, evaluate, Bool.or_assoc]

theorem foldl_and : l.foldl (fun current N => evaluate .and current (N.isInRange v)) b =
    (b && l.all fun N => N.isInRange v) := by
  induction l generalizing b with
  | nil => simp
  | cons N l ih => rw [List.foldl_cons, ih, List.all_cons, evaluate, Bool.and_assoc]

theorem foldl_not : l.foldl (fun current N => evaluate .not current (N.isInRange v)) b =
    (b && !l.any fun N => N.isInRange v) := by
  induction l generalizing b with
  | nil => simp
  | cons N l ih => rw [List.foldl_cons, ih, List.any_cons, evaluate, Bool.not_or, Bool.and_assoc]

end Pointwise

variable [Zero α] {A B : RangeCondition α}

theorem Tidy.addRangeCondition (hA : Tidy A) (hB : Tidy B) (relation : ConditionRelation) :
    Tidy (A.addRangeCondition B relation) ∧
      ∀ v, (A.addRangeCondition B relation).isInRange v = B.intervals.toList.foldl
        (fun current N => evaluate relation current (N.isInRange v)) (A.isInRange v) :=
  hA.addAll (fun N hN => ⟨hB.proper N hN, hB.finite N hN⟩) relation

theorem Tidy.getUnionRange (hA : Tidy A) (hB : Tidy B) :
    Tidy (A.getUnionRange B) ∧ ∀ v, (A.getUnionRange B).isInRange v = (A.isInRange v || B.isInRange v) := by
  obtain ⟨htidy, hv⟩ := hA.addRangeCondition hB .or
  exact ⟨htidy, fun v => (hv v).trans foldl_or⟩

theorem Tidy.getDifferenceRange (hA : Tidy A) (hB : Tidy B) :
    Tidy (A.getDifferenceRange B) ∧
      ∀ v, (A.getDifferenceRange B).isInRange v = (A.isInRange v && !B.isInRange v) := by
  obtain ⟨htidy, hv⟩ := hA.addRangeCondition hB .not
  exact ⟨htidy, fun v => (hv v).trans foldl_not⟩

/-- The intersection is the union of the intersections with the single intervals. -/
theorem Tidy.getIntersectRange (hA : Tidy A) (hB : Tidy B) :
    Tidy (A.getIntersectRange B) ∧
      ∀ v, (A.getIntersectRange B).isInRange v = (A.isInRange v && B.isInRange v) := by
  -- by induction on the pieces of `B`, over any condition that is collected so far
  have hfold : ∀ l : List (SingleInterval α), (∀ N ∈ l, Proper N ∧ N.Finite) → ∀ {R : RangeCondition α}, Tidy R →
      Tidy (l.foldl (fun R N => R.addRangeCondition (A.addRange N .and) .or) R) ∧
        ∀ v, (l.foldl (fun R N => R.addRangeCondition (A.addRange N .and) .or) R).isInRange v =
          (R.isInRange v || A.isInRange v && l.any fun N => N.isInRange v) := by
    intro l
    induction l with
    | nil => exact fun _ R hR => ⟨hR, fun v => by simp⟩
    | cons N l ih =>
      intro hl R hR
      obtain ⟨hNp, hNf⟩ := hl N List.mem_cons_self
      have hregular : Regular N ∨ ConditionRelation.and ≠ .or ∧ ConditionRelation.and ≠ .and := .inl (.inl hNp)
      obtain ⟨hX, hXv⟩ := hA.addRange hregular hNf
      obtain ⟨hU, hUv⟩ := hR.getUnionRange hX
      obtain ⟨htidy, hrest⟩ := ih (fun M hM => hl M (List.mem_cons_of_mem _ hM)) hU
      refine ⟨htidy, fun v => ?_⟩
      rw [List.foldl_cons, List.any_cons, Bool.and_or_distrib_left, ← Bool.or_assoc]
      refine (hrest v).trans ?_
      rw [hUv, hXv, evaluate]
  obtain ⟨htidy, hv⟩ := hfold B.intervals.toList (fun N hN => ⟨hB.proper N hN, hB.finite N hN⟩) tidy_empty
  refine ⟨htidy, fun v => (hv v).trans ?_⟩
  rw [show (empty : RangeCondition α).isInRange v = false from rfl, Bool.false_or]
  rfl

/-- **Boolean algebra**: a value is in a union when it is in either condition, in an
intersection when it is in both, in a difference when it is in the first and not in the
second. -/
theorem setOperations_isInRange (hA : BuiltFinite A) (hB : BuiltFinite B) (v : α) :
    (A.getUnionRange B).isInRange v = (A.isInRange v || B.isInRange v) ∧
      (A.getIntersectRange B).isInRange v = (A.isInRange v && B.isInRange v) ∧
      (A.getDifferenceRange B).isInRange v = (A.isInRange v && !B.isInRange v) ∧
      (A.getComplementRange B).isInRange v = (A.isInRange v && !B.isInRange v) ∧
      (A ||| B).isInRange v = (A.isInRange v || B.isInRange v) ∧
      (A &&& B).isInRange v = (A.isInRange v && B.isInRange v) := by
  have hor := (hA.tidy.getUnionRange hB.tidy).2 v
  have hand := (hA.tidy.getIntersectRange hB.tidy).2 v
  have hnot := (hA.tidy.getDifferenceRange hB.tidy).2 v
  exact ⟨hor, hand, hnot, hnot, hor, hand⟩

/-- `[0, 2]` and `(1, 3)` at 1. -/
theorem setOperations_isInRange_overlap :
    let A : RangeCondition ℚ := empty.addRange (.ofBoundaries ⟨some 0, false⟩ ⟨some 2, false⟩) .or
    let B : RangeCondition ℚ := empty.addRange (.ofBoundaries ⟨some 1, true⟩ ⟨some 3, true⟩) .or
    (A.getUnionRange B).isInRange 1 = true ∧ (A.getDifferenceRange B).isInRange 1 = true := by
  intro A B
  have hA : BuiltFinite A := BuiltFinite.default.addRange ⟨0, by decide⟩ (by decide) .or
  have hB : BuiltFinite B := BuiltFinite.default.addRange ⟨2, by decide⟩ (by decide) .or
  obtain ⟨hor, -, hnot, -⟩ := setOperations_isInRange hA hB 1
  have hA1 : A.isInRange 1 = true := by decide
  have hB1 : B.isInRange 1 = false := by decide
  rw [hor, hnot, hA1, hB1]
  decide

/-! ## One call for each interval -/

/-- Adding `R` with each relation gives every value the membership that the set operation gives it. -/
def AgreesWithOperations (C R : RangeCondition α) : Prop :=
  (∀ v, (C.addRangeCondition R .and).isInRange v = (C.getIntersectRange R).isInRange v) ∧
    (∀ v, (C.addRangeCondition R .or).isInRange v = (C.getUnionRange R).isInRange v) ∧
    ∀ v, (C.addRangeCondition R .not).isInRange v = (C.getDifferenceRange R).isInRange v

omit [Zero α] in
/-- No value is in two of the stored intervals. -/
theorem Apart.share_none {I J : SingleInterval α} {l : List (SingleInterval α)} {c : RangeCondition α}
    (h : Apart c) (hc : c.intervals.toList = I :: J :: l) {v : α} (hI : I.isInRange v = true) :
    ¬J.isInRange v = true := by
  have hgap : I.hi < J.lo := by
    have hgaps := h.gaps
    rw [hc] at hgaps
    exact (List.pairwise_cons.1 hgaps).1 J.span (by simp)
  intro hJ
  exact absurd ((SingleInterval.isInRange_iff.1 hI).2.trans hgap) (SingleInterval.isInRange_iff.1 hJ).1.not_gt

/-- **`add_range` of a range agrees with the set operations** when the range is one interval;
when it has none and the condition has no values; and when it has several and shares no
value with the condition. And keeps what all of the intervals have, and everything when
there are none. -/
theorem addRangeCondition_iff {C R : RangeCondition α} (hC : BuiltFinite C) (hR : BuiltFinite R) :
    AgreesWithOperations C R ↔
      R.intervals.toList.length = 1 ∨ (R.isEmpty = true ∧ ∀ v, ¬C.isInRange v = true) ∨
        (1 < R.intervals.toList.length ∧ ¬∃ v, C.isInRange v = true ∧ R.isInRange v = true) := by
  have hkeep : AgreesWithOperations C R ↔ ∀ v, (C.isInRange v && R.intervals.toList.all fun N => N.isInRange v) =
      (C.isInRange v && R.isInRange v) := by
    have hand : ∀ v, (C.addRangeCondition R .and).isInRange v = _ := fun v =>
      ((hC.tidy.addRangeCondition hR.tidy .and).2 v).trans foldl_and
    simp only [AgreesWithOperations, hand, (hC.tidy.getIntersectRange hR.tidy).2]
    exact and_iff_left ⟨fun v => rfl, fun v => rfl⟩
  rw [hkeep, isEmpty]
  cases hl : R.intervals.toList with
  | nil =>
    have hRv : ∀ v, R.isInRange v = false := fun v => by rw [isInRange, hl]; rfl
    simp [hRv]
  | cons I rest =>
    cases rest with
    | nil =>
      have hRv : ∀ v, R.isInRange v = I.isInRange v := fun v => by rw [isInRange, hl]; simp
      simp [hRv]
    | cons J rest =>
      -- no value is in all of several intervals
      have hall : ∀ v, ((I :: J :: rest).all fun N => N.isInRange v) = false := by
        intro v
        rw [← Bool.not_eq_true]
        intro h
        have h2 := List.all_eq_true.1 h
        exact (hR.tidy.apart.share_none hl (h2 I (by simp))) (h2 J (by simp))
      simp only [hall, Bool.and_false, eq_comm (a := false), Bool.and_eq_false_iff]
      constructor
      · intro h
        refine .inr (.inr ⟨by simp, ?_⟩)
        rintro ⟨v, hCv, hRv⟩
        obtain h' | h' := h v
        · exact absurd (hCv.symm.trans h') (by simp)
        · exact absurd (hRv.symm.trans h') (by simp)
      · rintro (h | ⟨h, -⟩ | ⟨-, h⟩) v
        · simp at h
        · simp at h
        · rw [← Bool.not_eq_true, ← Bool.not_eq_true, ← not_and_or]
          exact fun hv => h ⟨v, hv⟩

/-- `[0, 4]` and the single interval `[1, 3)`. -/
theorem addRangeCondition_iff_single :
    AgreesWithOperations (α := ℚ) (empty.addRange (.ofBoundaries ⟨some 0, false⟩ ⟨some 4, false⟩) .or)
      (empty.addRange (.ofBoundaries ⟨some 1, false⟩ ⟨some 3, true⟩) .or) :=
  (addRangeCondition_iff (BuiltFinite.default.addRange ⟨0, by decide⟩ (by decide) .or)
    (BuiltFinite.default.addRange ⟨1, by decide⟩ (by decide) .or)).2 (.inl (by decide))

/-- `[0, 4]` and the two values 1 and 3: And with them leaves nothing, the intersection has both. -/
theorem addRangeCondition_twoValues :
    let C : RangeCondition ℚ := empty.addRange (.ofBoundaries ⟨some 0, false⟩ ⟨some 4, false⟩) .or
    let R : RangeCondition ℚ := (empty.addRangeValue 1 .or).addRangeValue 3 .or
    BuiltFinite C ∧ BuiltFinite R ∧ (C.addRangeCondition R .and).isInRange 1 = false ∧
      (C.getIntersectRange R).isInRange 1 = true ∧ ¬AgreesWithOperations C R := by
  intro C R
  have hand : (C.addRangeCondition R .and).isInRange 1 = false := by decide
  have hint : (C.getIntersectRange R).isInRange 1 = true := by decide
  refine ⟨BuiltFinite.default.addRange ⟨0, by decide⟩ (by decide) .or,
    (BuiltFinite.default.addRangeValue 1 .or).addRangeValue 3 .or, hand, hint, fun h => ?_⟩
  exact absurd ((hand.symm.trans (h.1 1)).trans hint) (by decide)

/-! ## Containment and overlap -/

section Dense

variable [DenselyOrdered α]

omit [Zero α] in
theorem Tidy.exists_mem {c : RangeCondition α} {I : SingleInterval α} (h : Tidy c) (hI : I ∈ c.intervals) :
    ∃ v, I.isInRange v = true := by
  obtain ⟨v, hv⟩ := ((h.proper I hI).bounded (h.finite I hI)).exists_mem
  exact ⟨v, mem_span.1 hv⟩

omit [Zero α] in
/-- Nothing is stored when there are no values. -/
theorem Tidy.isEmpty_iff {c : RangeCondition α} (h : Tidy c) : c.isEmpty = true ↔ ∀ v, ¬c.isInRange v = true := by
  rw [RangeCondition.isEmpty, List.isEmpty_iff, List.eq_nil_iff_forall_not_mem]
  constructor
  · intro hnone v hv
    obtain ⟨I, hI, -⟩ := isInRange_iff.1 hv
    exact hnone I hI
  · intro hnone I hI
    obtain ⟨v, hv⟩ := h.exists_mem hI
    exact hnone v (isInRange_iff.2 ⟨I, hI, hv⟩)

omit [Zero α] in
/-- An interval all of whose values are in the condition lies within a stored one. -/
theorem Tidy.covers {c : RangeCondition α} {I : SingleInterval α} (h : Tidy c) (hI : Proper I) (hfin : I.Finite)
    (hcov : ∀ v, I.isInRange v = true → c.isInRange v = true) :
    ∃ J ∈ c.intervals, J.lo ≤ I.lo ∧ I.hi ≤ J.hi := by
  have hspan : ∃ t ∈ c.intervals.toList.map span, t.lo ≤ I.span.lo ∧ I.span.hi ≤ t.hi := by
    refine h.apart.gaps.covers (fun t ht => ?_) (hI.bounded hfin) fun v hv => ?_
    · obtain ⟨J, hJ, rfl⟩ := List.mem_map.1 ht
      exact h.proper J hJ
    · obtain ⟨J, hJ, hvJ⟩ := isInRange_iff.1 (hcov v (mem_span.1 hv))
      exact ⟨J.span, List.mem_map.2 ⟨J, hJ, rfl⟩, mem_span.2 hvJ⟩
  obtain ⟨t, ht, hcuts⟩ := hspan
  obtain ⟨J, hJ, rfl⟩ := List.mem_map.1 ht
  exact ⟨J, hJ, hcuts⟩

omit [Zero α] in
theorem Tidy.isConditionInRange_iff (hA : Tidy A) (hB : Tidy B) :
    A.isConditionInRange B = true ↔ ∀ v, B.isInRange v = true → A.isInRange v = true := by
  rw [isConditionInRange, List.all_eq_true]
  constructor
  · intro h v hv
    obtain ⟨I, hI, hvI⟩ := isInRange_iff.1 hv
    obtain ⟨J, hJ, hJI⟩ := List.any_eq_true.1 (h I hI)
    obtain ⟨hlo, hhi⟩ := isIntervalInRange_iff.1 hJI
    obtain ⟨h1, h2⟩ := SingleInterval.isInRange_iff.1 hvI
    exact isInRange_iff.2 ⟨J, hJ, SingleInterval.isInRange_iff.2 ⟨hlo.trans h1, h2.trans_le hhi⟩⟩
  · intro h I hI
    obtain ⟨J, hJ, hcuts⟩ := hA.covers (hB.proper I hI) (hB.finite I hI) fun v hv =>
      h v (isInRange_iff.2 ⟨I, hI, hv⟩)
    exact List.any_eq_true.2 ⟨J, hJ, isIntervalInRange_iff.2 hcuts⟩

omit [Zero α] in
theorem Tidy.isIntersect_iff (hA : Tidy A) (hB : Tidy B) :
    A.isIntersect B = true ↔ ∃ v, A.isInRange v = true ∧ B.isInRange v = true := by
  have hpair : ∀ I ∈ B.intervals, ∀ J ∈ A.intervals, I.isIntersect J = true ↔
      ∃ v, I.isInRange v = true ∧ J.isInRange v = true := by
    intro I hI J hJ
    rw [SingleInterval.isIntersect_iff (.inl (hB.proper I hI)), share_iff (hB.exists_mem hI) (hA.exists_mem hJ)]
    exact and_iff_right (hB.finite I hI).not_opposed
  simp only [RangeCondition.isIntersect, List.any_eq_true]
  constructor
  · rintro ⟨I, hI, J, hJ, h⟩
    obtain ⟨v, hvI, hvJ⟩ := (hpair I hI J hJ).1 h
    exact ⟨v, isInRange_iff.2 ⟨J, hJ, hvJ⟩, isInRange_iff.2 ⟨I, hI, hvI⟩⟩
  · rintro ⟨v, hvA, hvB⟩
    obtain ⟨J, hJ, hvJ⟩ := isInRange_iff.1 hvA
    obtain ⟨I, hI, hvI⟩ := isInRange_iff.1 hvB
    exact ⟨I, hI, J, hJ, (hpair I hI J hJ).2 ⟨v, hvI, hvJ⟩⟩

/-- **Containment and overlap** are those of the values, and what the difference and the
intersection say. -/
theorem containment_and_overlap (hA : BuiltFinite A) (hB : BuiltFinite B) :
    (A.isConditionInRange B = true ↔ ∀ v, B.isInRange v = true → A.isInRange v = true) ∧
      (A.isIntersect B = true ↔ ∃ v, A.isInRange v = true ∧ B.isInRange v = true) ∧
      A.isConditionInRange B = (B.getDifferenceRange A).isEmpty ∧
      A.isIntersect B = !(A.getIntersectRange B).isEmpty := by
  have hin := hA.tidy.isConditionInRange_iff hB.tidy
  have hint := hA.tidy.isIntersect_iff hB.tidy
  refine ⟨hin, hint, ?_, ?_⟩
  · obtain ⟨hD, hDv⟩ := hB.tidy.getDifferenceRange hA.tidy
    rw [Bool.eq_iff_iff, hin, hD.isEmpty_iff]
    simp only [hDv, Bool.and_eq_true, Bool.not_eq_true', not_and, Bool.not_eq_false]
  · obtain ⟨hX, hXv⟩ := hA.tidy.getIntersectRange hB.tidy
    rw [Bool.eq_iff_iff, hint, Bool.not_eq_true', ← Bool.not_eq_true, hX.isEmpty_iff]
    simp only [hXv, Bool.and_eq_true, not_forall, not_not]

/-- `[0, 4]` has the values of `(1, 3]`, and shares some with it. -/
theorem containment_and_overlap_within :
    let A : RangeCondition ℚ := empty.addRange (.ofBoundaries ⟨some 0, false⟩ ⟨some 4, false⟩) .or
    let B : RangeCondition ℚ := empty.addRange (.ofBoundaries ⟨some 1, true⟩ ⟨some 3, false⟩) .or
    (∀ v, B.isInRange v = true → A.isInRange v = true) ∧ (B.getDifferenceRange A).isEmpty = true := by
  intro A B
  have hA : BuiltFinite A := BuiltFinite.default.addRange ⟨0, by decide⟩ (by decide) .or
  have hB : BuiltFinite B := BuiltFinite.default.addRange ⟨2, by decide⟩ (by decide) .or
  obtain ⟨hin, -, hdiff, -⟩ := containment_and_overlap hA hB
  have hyes : A.isConditionInRange B = true := by decide
  exact ⟨hin.1 hyes, hdiff ▸ hyes⟩

end Dense

end RangeCondition

end ProjectTrans
