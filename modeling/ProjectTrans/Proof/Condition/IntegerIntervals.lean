import ProjectTrans.Proof.Condition.NormalForm

/-!
# Integer intervals

`get_integer_intervals` casts each end to 64 signed bits. An end from `2 ^ 63` on becomes
negative, so an interval that reaches across `2 ^ 63` is turned around, and one that lies
behind it is moved below zero.
-/

namespace ProjectTrans

namespace IntegralType

variable {T : IntegralType}

theorem value_bounds (v : T.Value) : -2 ^ 63 ≤ v.1 ∧ v.1 ≤ 2 ^ 64 - 1 := by
  obtain ⟨n, hmin, hmax⟩ := v
  obtain ⟨bits, signed, rfl | rfl | rfl | rfl⟩ := T <;> cases signed <;> simp [min, max] at hmin hmax ⊢ <;> omega

/-- A type with a value that 64 signed bits do not hold is the unsigned one of 64 bits. -/
theorem bounds_of_wide {v : T.Value} (h : 2 ^ 63 ≤ v.1) : T.min = 0 ∧ T.max = 2 ^ 64 - 1 := by
  obtain ⟨n, hmin, hmax⟩ := v
  obtain ⟨bits, signed, rfl | rfl | rfl | rfl⟩ :=
    T <;> cases signed <;> simp [min, max] at hmin hmax h ⊢ <;> omega

theorem cast_toInt (v : T.Value) : (T.cast v).toInt = if v.1 < 2 ^ 63 then v.1 else v.1 - 2 ^ 64 := by
  have hv := value_bounds v
  rw [cast, Int64.toInt_ofInt, Int.bmod_def]
  have hsize : ((Int64.size : ℕ) : ℤ) = 2 ^ 64 := by decide
  rw [hsize]
  split <;> omega

end IntegralType

open Cuts

namespace SingleInterval

section Boundaries

variable {α : Type*} [LinearOrder α]

/-- What an endpoint admits. -/
theorem new_isInRange {w : Option α} {o : Bool} {s : BoundarySide} {v : α} :
    (EndpointRange.new w o s).isInRange v = true ↔
      ∀ a ∈ w, if s = .right then if o then v < a else v ≤ a else if o then a < v else a ≤ v := by
  cases w with
  | none => simp [EndpointRange.isInRange, EndpointRange.new]
  | some a =>
    simp only [EndpointRange.isInRange, EndpointRange.new, Option.mem_some_iff, forall_eq']
    rcases lt_trichotomy v a with h | rfl | h
    · cases o <;> by_cases hs : s = .right <;> simp [hs, h, h.le, h.not_gt, h.not_ge]
    · cases o <;> by_cases hs : s = .right <;> simp [hs]
    · cases o <;> by_cases hs : s = .right <;> simp [hs, h, h.le, h.not_gt, h.not_ge]

/-- What two boundaries admit, in the order they are given. -/
theorem ofBoundaries_isInRange {l r : IntervalBoundary α} (h : ∀ a ∈ l.value, ∀ b ∈ r.value, a ≤ b) {v : α} :
    (ofBoundaries l r).isInRange v = true ↔
      (∀ a ∈ l.value, if l.isOpen then a < v else a ≤ v) ∧ ∀ b ∈ r.value, if r.isOpen then v < b else v ≤ b := by
  have hl : (ofBoundaries l r).left = .new l.value l.isOpen .left := by
    show EndpointRange.new (IntervalBoundary.arrange l r).1.value
      (IntervalBoundary.arrange l r).1.isOpen .left = _
    rw [IntervalBoundary.arrange_eq h]
  have hr : (ofBoundaries l r).right = .new r.value r.isOpen .right := by
    show EndpointRange.new (IntervalBoundary.arrange l r).2.value
      (IntervalBoundary.arrange l r).2.isOpen .right = _
    rw [IntervalBoundary.arrange_eq h]
  rw [SingleInterval.isInRange, Bool.and_eq_true, hl, hr, new_isInRange, new_isInRange]
  simp

/-- Two boundaries in the wrong order are exchanged. -/
theorem ofBoundaries_swap {l r : IntervalBoundary α} {a b : α} (ha : a ∈ l.value) (hb : b ∈ r.value) (h : b < a) :
    ofBoundaries l r = ofBoundaries r l := by
  have harr : IntervalBoundary.arrange l r = IntervalBoundary.arrange r l := by
    simp [IntervalBoundary.arrange, Option.mem_def.1 ha, Option.mem_def.1 hb, h, h.not_gt]
  unfold ofBoundaries
  simp only [harr]

end Boundaries

/-! ## One interval -/

variable {T : IntegralType} {I J : SingleInterval T.Value}

/-- The integer lies between the ends of the interval. -/
def Reads (I : SingleInterval T.Value) (i : ℤ) : Prop :=
  (∀ a ∈ I.left.value, if I.left.isOpen then a.1 < i else a.1 ≤ i) ∧
    ∀ b ∈ I.right.value, if I.right.isOpen then i < b.1 else i ≤ b.1

theorem isInRange_iff_reads {v : T.Value} : I.isInRange v = true ↔ I.Reads v.1 := by
  have h := ofBoundaries_isInRange (l := I.left.boundary) (r := I.right.boundary) I.values_le (v := v)
  rw [ofBoundaries_self] at h
  exact h

theorem getIntegerEndpoint_boundary (e : EndpointRange T.Value) :
    (e.getIntegerEndpoint T.cast).boundary = ⟨e.value.map T.cast, e.isOpen⟩ := by
  obtain ⟨v, o, s, hv⟩ := e
  cases v with
  | none => simp [EndpointRange.getIntegerEndpoint, EndpointRange.new, EndpointRange.boundary, hv rfl]
  | some a => rfl

/-- An interval whose ends keep their order when they are cast. -/
theorem lifted_kept (h : ∀ a ∈ I.left.value, ∀ b ∈ I.right.value, (T.cast a).toInt ≤ (T.cast b).toInt)
    {x : Int64} : (I.getIntegerInterval T.cast).isInRange x = true ↔
      (∀ a ∈ I.left.value, if I.left.isOpen then (T.cast a).toInt < x.toInt else (T.cast a).toInt ≤ x.toInt) ∧
        ∀ b ∈ I.right.value,
          if I.right.isOpen then x.toInt < (T.cast b).toInt else x.toInt ≤ (T.cast b).toInt := by
  rw [getIntegerInterval, getIntegerEndpoint_boundary, getIntegerEndpoint_boundary, ofBoundaries_isInRange]
  · simp only [Option.forall_mem_map, Int64.lt_iff_toInt_lt, Int64.le_iff_toInt_le]
  · simpa only [Option.forall_mem_map, Int64.le_iff_toInt_le] using h

/-- An interval whose ends are exchanged when they are cast. -/
theorem lifted_exchanged {p q : T.Value} (hp : p ∈ I.left.value) (hq : q ∈ I.right.value)
    (h : (T.cast q).toInt < (T.cast p).toInt) {x : Int64} :
    (I.getIntegerInterval T.cast).isInRange x = true ↔
      (if I.right.isOpen then (T.cast q).toInt < x.toInt else (T.cast q).toInt ≤ x.toInt) ∧
        if I.left.isOpen then x.toInt < (T.cast p).toInt else x.toInt ≤ (T.cast p).toInt := by
  rw [getIntegerInterval, getIntegerEndpoint_boundary, getIntegerEndpoint_boundary, Option.mem_def.1 hp,
    Option.mem_def.1 hq, ofBoundaries_swap rfl rfl (Int64.lt_iff_toInt_lt.2 h), ofBoundaries_isInRange]
  · simp [Int64.lt_iff_toInt_lt, Int64.le_iff_toInt_le]
  · simpa [Int64.le_iff_toInt_le] using h.le

/-- Ends below `2 ^ 63` keep their places. -/
theorem lifted_narrow (hl : ∀ a ∈ I.left.value, a.1 < 2 ^ 63) (hr : ∀ b ∈ I.right.value, b.1 < 2 ^ 63)
    {x : Int64} : (I.getIntegerInterval T.cast).isInRange x = true ↔ I.Reads x.toInt := by
  have hcl : ∀ a ∈ I.left.value, (T.cast a).toInt = a.1 := fun a ha => by
    rw [IntegralType.cast_toInt, if_pos (hl a ha)]
  have hcr : ∀ b ∈ I.right.value, (T.cast b).toInt = b.1 := fun b hb => by
    rw [IntegralType.cast_toInt, if_pos (hr b hb)]
  rw [lifted_kept fun a ha b hb => by rw [hcl a ha, hcr b hb]; exact I.values_le a ha b hb, Reads]
  refine and_congr (forall₂_congr fun a ha => ?_) (forall₂_congr fun b hb => ?_)
  · rw [hcl a ha]
  · rw [hcr b hb]

/-- Ends from `2 ^ 63` on are moved down by `2 ^ 64`. -/
theorem lifted_wide (hl : ∀ a ∈ I.left.value, 2 ^ 63 ≤ a.1) (hr : ∀ b ∈ I.right.value, 2 ^ 63 ≤ b.1)
    {x : Int64} : (I.getIntegerInterval T.cast).isInRange x = true ↔ I.Reads (x.toInt + 2 ^ 64) := by
  have hcl : ∀ a ∈ I.left.value, (T.cast a).toInt = a.1 - 2 ^ 64 := fun a ha => by
    rw [IntegralType.cast_toInt, if_neg (hl a ha).not_gt]
  have hcr : ∀ b ∈ I.right.value, (T.cast b).toInt = b.1 - 2 ^ 64 := fun b hb => by
    rw [IntegralType.cast_toInt, if_neg (hr b hb).not_gt]
  have hord : ∀ a ∈ I.left.value, ∀ b ∈ I.right.value, (T.cast a).toInt ≤ (T.cast b).toInt := by
    intro a ha b hb
    rw [hcl a ha, hcr b hb]
    exact Int.sub_le_sub_right (I.values_le a ha b hb) _
  rw [lifted_kept hord, Reads]
  refine and_congr (forall₂_congr fun a ha => ?_) (forall₂_congr fun b hb => ?_)
  · rw [hcl a ha, sub_lt_iff_lt_add, sub_le_iff_le_add]
  · rw [hcr b hb, lt_sub_iff_add_lt, le_sub_iff_add_le]

/-- **An interval across `2 ^ 63` is turned around.** -/
theorem lifted_across {p q : T.Value} (hp : p ∈ I.left.value) (hq : q ∈ I.right.value) (hp' : p.1 < 2 ^ 63)
    (hq' : 2 ^ 63 ≤ q.1) {x : Int64} :
    (I.getIntegerInterval T.cast).isInRange x = true ↔
      (if I.right.isOpen then q.1 < x.toInt + 2 ^ 64 else q.1 ≤ x.toInt + 2 ^ 64) ∧
        if I.left.isOpen then x.toInt < p.1 else x.toInt ≤ p.1 := by
  have hcp : (T.cast p).toInt = p.1 := by rw [IntegralType.cast_toInt, if_pos hp']
  have hcq : (T.cast q).toInt = q.1 - 2 ^ 64 := by rw [IntegralType.cast_toInt, if_neg hq'.not_gt]
  have hmin := (IntegralType.bounds_of_wide hq').1
  have hp0 : 0 ≤ p.1 := hmin ▸ p.2.1
  have hqmax := (IntegralType.value_bounds q).2
  rw [lifted_exchanged hp hq (by rw [hcp, hcq]; omega), hcp, hcq, sub_lt_iff_lt_add, sub_le_iff_le_add]

/-! ## Ends that 64 signed bits do not hold -/

/-- An end at a value that 64 signed bits do not hold. -/
def Wide (e : EndpointRange T.Value) : Prop := ∃ a ∈ e.value, 2 ^ 63 ≤ a.1

theorem not_wide {e : EndpointRange T.Value} : ¬Wide e ↔ ∀ a ∈ e.value, a.1 < 2 ^ 63 := by
  simp [Wide]

theorem not_wide_of {e : EndpointRange T.Value} {p : T.Value} (hp : p ∈ e.value) (h : p.1 < 2 ^ 63) : ¬Wide e :=
  not_wide.2 fun _ ha => Option.mem_unique hp ha ▸ h

/-- With such an end the type is the unsigned one of 64 bits. -/
theorem Wide.bounds {e : EndpointRange T.Value} (h : Wide e) : T.min = 0 ∧ T.max = 2 ^ 64 - 1 := by
  obtain ⟨a, -, ha⟩ := h
  exact IntegralType.bounds_of_wide ha

theorem Wide.all {e : EndpointRange T.Value} (h : Wide e) : ∀ a ∈ e.value, 2 ^ 63 ≤ a.1 := by
  obtain ⟨a, ha, hwide⟩ := h
  intro b hb
  rwa [Option.mem_unique hb ha]

/-- What is behind a wide left end is wide. -/
theorem Wide.right_all (h : Wide I.left) : ∀ b ∈ I.right.value, 2 ^ 63 ≤ b.1 := by
  obtain ⟨a, ha, hwide⟩ := h
  exact fun b hb => hwide.trans (I.values_le a ha b hb)

/-- The ways an interval can lie about `2 ^ 63`. -/
theorem kinds (I : SingleInterval T.Value) :
    (¬Wide I.left ∧ ¬Wide I.right) ∨ Wide I.left ∨ (I.left.value = none ∧ Wide I.right) ∨
      ∃ p ∈ I.left.value, p.1 < 2 ^ 63 ∧ Wide I.right := by
  by_cases hl : Wide I.left
  · exact .inr (.inl hl)
  by_cases hr : Wide I.right
  · cases h : I.left.value with
    | none => exact .inr (.inr (.inl ⟨rfl, hr⟩))
    | some p => exact .inr (.inr (.inr ⟨p, rfl, not_wide.1 hl p h, hr⟩))
  · exact .inl ⟨hl, hr⟩

/-- An interval of the values from a wide end on. -/
def Upward (I : SingleInterval T.Value) : Prop := Wide I.left ∧ I.right.isLimited = false

theorem value_none {e : EndpointRange T.Value} (h : e.isLimited = false) : e.value = none := by
  simpa [EndpointRange.isLimited] using h

/-- Lifted, an upward interval admits every value that 64 signed bits hold. -/
theorem Upward.admits (h : Upward I) {v : T.Value} (hv : v.1 < 2 ^ 63) :
    (I.getIntegerInterval T.cast).isInRange (T.cast v) = true := by
  have hright := value_none h.2
  have hv0 : 0 ≤ v.1 := h.1.bounds.1 ▸ v.2.1
  rw [lifted_wide h.1.all (by simp [hright]), IntegralType.cast_toInt, if_pos hv]
  refine ⟨fun a ha => ?_, by simp [hright]⟩
  have hmax := (IntegralType.value_bounds a).2
  split <;> omega

/-- Lifted, an interval across `2 ^ 63` admits the values before it. -/
theorem across_admits {p v : T.Value} (hp : p ∈ I.left.value) (hp' : p.1 < 2 ^ 63) (hr : Wide I.right)
    (hv : v.1 < p.1 ∨ v.1 = p.1 ∧ I.left.isOpen = false) :
    (I.getIntegerInterval T.cast).isInRange (T.cast v) = true := by
  obtain ⟨q, hq, hq'⟩ := id hr
  have hv0 : 0 ≤ v.1 := hr.bounds.1 ▸ v.2.1
  have hmax := (IntegralType.value_bounds q).2
  have hvlt : v.1 < 2 ^ 63 := by omega
  rw [lifted_across hp hq hp' hq', IntegralType.cast_toInt, if_pos hvlt]
  constructor
  · split <;> omega
  · obtain hv | ⟨hv, ho⟩ := hv
    · split <;> omega
    · rw [ho, if_neg Bool.false_ne_true, hv]

/-- An interval without left end has what is below the type. -/
theorem reads_negative (h : I.left.isLimited = false) (hmin : T.min = 0) {i : ℤ} (hi : i < 0) : I.Reads i := by
  refine ⟨by simp [value_none h], fun b _ => ?_⟩
  have hb : 0 ≤ b.1 := hmin ▸ b.2.1
  split <;> omega

/-- What is below the type is in an interval without left end only. -/
theorem unlimited_of_reads_negative (hmin : T.min = 0) {i : ℤ} (hi : i < 0) (h : I.Reads i) :
    I.left.isLimited = false := by
  cases hl : I.left.value with
  | none => simp [EndpointRange.isLimited, hl]
  | some a =>
    have ha : 0 ≤ a.1 := hmin ▸ a.2.1
    have hread := h.1 a hl
    split at hread <;> omega

end SingleInterval

open SingleInterval

namespace RangeCondition

variable {T : IntegralType} {c : RangeCondition T.Value} {I J : SingleInterval T.Value}

theorem exists_lifted {p : SingleInterval Int64 → Prop} :
    (∃ L ∈ c.getIntegerIntervals T.cast, p L) ↔ ∃ I ∈ c.intervals, p (I.getIntegerInterval T.cast) := by
  rw [getIntegerIntervals]
  simp only [List.mem_map, exists_exists_and_eq_and]
  rfl

theorem isInRange_iff_reads {v : T.Value} : c.isInRange v = true ↔ ∃ I ∈ c.intervals, I.Reads v.1 := by
  simp only [isInRange_iff, SingleInterval.isInRange_iff_reads]

/-- **What lifting is to keep**: a value that 64 signed bits hold is in the condition when the
lifted intervals have it, and these admit no integer that the condition excludes. -/
structure LiftedExactly (c : RangeCondition T.Value) : Prop where
  members : ∀ v : T.Value, v.1 < 2 ^ 63 → (c.isInRange v = true ↔
    ∃ L ∈ c.getIntegerIntervals T.cast, L.isInRange (T.cast v) = true)
  others : ∀ x : Int64, (∃ L ∈ c.getIntegerIntervals T.cast, L.isInRange x = true) →
    ∃ I ∈ c.intervals, I.Reads x.toInt

/-- **When it keeps that.** Without wide ends both conditions are void. With them, the negative
integers that the lifted intervals admit must be in an interval without left end; and an
interval across `2 ^ 63` goes unnoticed only beside an upward one, or from `2 ^ 63 - 1` on
when everything before is in the condition. -/
structure KeepsEnds (c : RangeCondition T.Value) : Prop where
  negatives : (∃ I ∈ c.intervals, I.left.isLimited = false) ∨ ∀ I ∈ c.intervals,
    (Wide I.left → ∀ v, ¬I.isInRange v = true) ∧
      (¬Wide I.left → Wide I.right → I.right.isOpen = true ∧ ∀ q ∈ I.right.value, q.1 = 2 ^ 64 - 1)
  across : ((∃ I ∈ c.intervals, Upward I) ∧ ∀ v : T.Value, v.1 < 2 ^ 63 → c.isInRange v = true) ∨
    (¬∃ I ∈ c.intervals, Upward I) ∧ ∀ I ∈ c.intervals, ¬Wide I.left → Wide I.right →
      ∃ p ∈ I.left.value, p.1 = 2 ^ 63 - 1 ∧ ∀ v : T.Value, v.1 < 2 ^ 63 - 1 → c.isInRange v = true

/-- Without wide ends nothing goes wrong. -/
theorem keepsEnds_of_narrow (h : ∀ I ∈ c.intervals, ¬Wide I.left ∧ ¬Wide I.right) : KeepsEnds c := by
  refine ⟨.inr fun I hI => ⟨fun hw => absurd hw (h I hI).1, fun _ hw => absurd hw (h I hI).2⟩, .inr ⟨?_, ?_⟩⟩
  · rintro ⟨I, hI, hup⟩
    exact (h I hI).1 hup.1
  · exact fun I hI _ hw => absurd hw (h I hI).2

/-- Only the unsigned type of 64 bits has wide ends. -/
theorem keepsEnds_of_max (h : T.max < 2 ^ 63) : KeepsEnds c :=
  keepsEnds_of_narrow fun _ _ =>
    ⟨not_wide.2 fun a _ => a.2.2.trans_lt h, not_wide.2 fun b _ => b.2.2.trans_lt h⟩

/-! ## Lifting is exact -/

/-- A negative integer is in an interval without left end, if there is one. -/
theorem exists_reads_negative (hbot : ∃ I ∈ c.intervals, I.left.isLimited = false) (hmin : T.min = 0) {i : ℤ}
    (hi : i < 0) : ∃ J ∈ c.intervals, J.Reads i := by
  obtain ⟨J, hJ, hunl⟩ := hbot
  exact ⟨J, hJ, reads_negative hunl hmin hi⟩

/-- A wide interval that admits an integer that is not negative has no right end. -/
theorem upward_of_reads (hl : Wide I.left) {x : Int64} (hx : 0 ≤ x.toInt) (hread : I.Reads (x.toInt + 2 ^ 64)) :
    Upward I := by
  refine ⟨hl, ?_⟩
  cases hrv : I.right.value with
  | none => simp [EndpointRange.isLimited, hrv]
  | some b =>
    have hb := (IntegralType.value_bounds b).2
    have hbread := hread.2 b hrv
    split at hbread <;> omega

/-- What a wide interval admits is in the condition. -/
theorem KeepsEnds.others_wide (h : KeepsEnds c) {x : Int64} (hI : I ∈ c.intervals) (hl : Wide I.left)
    (hread : I.Reads (x.toInt + 2 ^ 64)) : ∃ J ∈ c.intervals, J.Reads x.toInt := by
  obtain ⟨hmin, hmax⟩ := hl.bounds
  have hxlt : x.toInt < 2 ^ 63 := Int64.toInt_lt x
  have hxge : -2 ^ 63 ≤ x.toInt := Int64.le_toInt x
  rcases lt_or_ge x.toInt 0 with hx0 | hx0
  · obtain hbot | hno := h.negatives
    · exact exists_reads_negative hbot hmin hx0
    · let w : T.Value := ⟨x.toInt + 2 ^ 64, by omega, by omega⟩
      have hw : I.isInRange w = true := SingleInterval.isInRange_iff_reads.2 hread
      exact absurd hw ((hno I hI).1 hl w)
  · obtain ⟨-, hall⟩ | ⟨hno, -⟩ := h.across
    · let v : T.Value := ⟨x.toInt, by omega, by omega⟩
      exact isInRange_iff_reads.1 (hall v hxlt)
    · exact absurd ⟨I, hI, upward_of_reads hl hx0 hread⟩ hno

/-- What an interval across `2 ^ 63` admits is in the condition. -/
theorem KeepsEnds.others_across (h : KeepsEnds c) {x : Int64} (hI : I ∈ c.intervals) {p q : T.Value}
    (hp : p ∈ I.left.value) (hp' : p.1 < 2 ^ 63) (hq : q ∈ I.right.value) (hq' : 2 ^ 63 ≤ q.1)
    (hx : (I.getIntegerInterval T.cast).isInRange x = true) : ∃ J ∈ c.intervals, J.Reads x.toInt := by
  have hr : Wide I.right := ⟨q, hq, hq'⟩
  have hxlt : x.toInt < 2 ^ 63 := Int64.toInt_lt x
  obtain ⟨hmin, hmax⟩ := hr.bounds
  obtain ⟨hxq, hxp⟩ := (lifted_across hp hq hp' hq').1 hx
  rcases lt_or_ge x.toInt 0 with hx0 | hx0
  · obtain hbot | hno := h.negatives
    · exact exists_reads_negative hbot hmin hx0
    · obtain ⟨ho, hqe⟩ := (hno I hI).2 (not_wide_of hp hp') hr
      rw [if_pos ho, hqe q hq] at hxq
      omega
  -- a value that both types have
  let v : T.Value := ⟨x.toInt, by omega, by omega⟩
  rcases lt_or_ge x.toInt p.1 with hlt | hge
  · obtain ⟨-, hall⟩ | ⟨-, hacross⟩ := h.across
    · exact isInRange_iff_reads.1 (hall v hxlt)
    · obtain ⟨p', hpp', hpe, hall⟩ := hacross I hI (not_wide_of hp hp') hr
      obtain rfl := Option.mem_unique hp hpp'
      exact isInRange_iff_reads.1 (hall v (hpe ▸ hlt))
  · -- only where the interval begins does it admit a value of its own
    refine ⟨I, hI, fun a ha => ?_, fun b hb => ?_⟩
    · obtain rfl := Option.mem_unique hp ha
      split at hxp
      · omega
      · rename_i ho
        rw [if_neg ho]
        exact hge
    · obtain rfl := Option.mem_unique hq hb
      split at hxp <;> split <;> omega

/-- Where the ends are kept, the lifted intervals admit nothing new. -/
theorem KeepsEnds.others (h : KeepsEnds c) {x : Int64} (hI : I ∈ c.intervals)
    (hx : (I.getIntegerInterval T.cast).isInRange x = true) : ∃ J ∈ c.intervals, J.Reads x.toInt := by
  obtain ⟨hl, hr⟩ | hl | ⟨hl, hr⟩ | ⟨p, hp, hp', hr⟩ := kinds I
  · exact ⟨I, hI, (lifted_narrow (not_wide.1 hl) (not_wide.1 hr)).1 hx⟩
  · exact h.others_wide hI hl ((lifted_wide hl.all hl.right_all).1 hx)
  · -- without a left end, a wide interval admits negative integers only
    have hread := (lifted_wide (by simp [hl]) hr.all).1 hx
    obtain ⟨q, hq, -⟩ := id hr
    have hqmax := (IntegralType.value_bounds q).2
    have hqread := hread.2 q hq
    have hx0 : x.toInt < 0 := by split at hqread <;> omega
    exact exists_reads_negative ⟨I, hI, by simp [EndpointRange.isLimited, hl]⟩ hr.bounds.1 hx0
  · obtain ⟨q, hq, hq'⟩ := hr
    exact h.others_across hI hp hp' hq hq' hx

/-- Where the ends are kept, the lifted intervals admit the values of the condition. -/
theorem KeepsEnds.admits (h : KeepsEnds c) {v : T.Value} (hI : I ∈ c.intervals) (hv : v.1 < 2 ^ 63)
    (hvI : I.isInRange v = true) :
    ∃ J ∈ c.intervals, (J.getIntegerInterval T.cast).isInRange (T.cast v) = true := by
  have hread := SingleInterval.isInRange_iff_reads.1 hvI
  by_cases hr : Wide I.right
  · by_cases hl : Wide I.left
    · obtain ⟨a, ha, hwide⟩ := hl
      have hva := hread.1 a ha
      split at hva <;> omega
    obtain ⟨⟨J, hJ, hup⟩, -⟩ | ⟨-, hacross⟩ := h.across
    · exact ⟨J, hJ, hup.admits hv⟩
    · -- the only value of `I` that 64 signed bits hold is the one it begins with
      obtain ⟨p, hp, hpe, -⟩ := hacross I hI hl hr
      have hpv := hread.1 p hp
      refine ⟨I, hI, across_admits hp (by omega) hr (.inr ?_)⟩
      split at hpv
      · omega
      · rename_i ho
        exact ⟨by omega, by simpa using ho⟩
  · by_cases hl : Wide I.left
    · obtain ⟨a, ha, hwide⟩ := hl
      have hva := hread.1 a ha
      split at hva <;> omega
    · refine ⟨I, hI, (lifted_narrow (not_wide.1 hl) (not_wide.1 hr)).2 ?_⟩
      rw [IntegralType.cast_toInt, if_pos hv]
      exact hread

/-! ## Where lifting is exact, the ends are kept -/

/-- The negative integers of a wide interval must be in one without left end. -/
theorem LiftedExactly.negatives (h : LiftedExactly c) (hbot : ¬∃ I ∈ c.intervals, I.left.isLimited = false)
    (hI : I ∈ c.intervals) :
    (Wide I.left → ∀ v, ¬I.isInRange v = true) ∧
      (¬Wide I.left → Wide I.right → I.right.isOpen = true ∧ ∀ q ∈ I.right.value, q.1 = 2 ^ 64 - 1) := by
  have hno : T.min = 0 → ∀ x : Int64, x.toInt < 0 → ¬(I.getIntegerInterval T.cast).isInRange x = true := by
    intro hmin x hx0 hx
    obtain ⟨J, hJ, hread⟩ := h.others x (exists_lifted.2 ⟨I, hI, hx⟩)
    exact hbot ⟨J, hJ, unlimited_of_reads_negative hmin hx0 hread⟩
  constructor
  · intro hl v hv
    have hread := SingleInterval.isInRange_iff_reads.1 hv
    have hwide : 2 ^ 63 ≤ v.1 := by
      obtain ⟨a, ha, hwide⟩ := id hl
      have hva := hread.1 a ha
      split at hva <;> omega
    have hmax := (IntegralType.value_bounds v).2
    have hcast : (T.cast v).toInt = v.1 - 2 ^ 64 := by rw [IntegralType.cast_toInt, if_neg hwide.not_gt]
    refine hno hl.bounds.1 (T.cast v) (by omega) ((lifted_wide hl.all hl.right_all).2 ?_)
    rw [hcast, sub_add_cancel]
    exact hread
  · intro hl hr
    obtain ⟨q, hq, hq'⟩ := id hr
    have hqmax := (IntegralType.value_bounds q).2
    cases hlv : I.left.value with
    | none => exact absurd ⟨I, hI, by simp [EndpointRange.isLimited, hlv]⟩ hbot
    | some p =>
      have hp0 : 0 ≤ p.1 := hr.bounds.1 ▸ p.2.1
      have hminus : ((-1 : Int64)).toInt = -1 := by decide
      -- the interval does not admit -1
      have hone := mt (lifted_across hlv hq (not_wide.1 hl p hlv) hq').2
        (hno hr.bounds.1 (-1) (by rw [hminus]; decide))
      rw [hminus] at hone
      have hbefore : if I.left.isOpen then -1 < p.1 else -1 ≤ p.1 := by split <;> omega
      have hbehind : ¬if I.right.isOpen then q.1 < -1 + 2 ^ 64 else q.1 ≤ -1 + 2 ^ 64 :=
        fun hq => hone ⟨hq, hbefore⟩
      split at hbehind
      · rename_i ho
        refine ⟨ho, fun b hb => ?_⟩
        obtain rfl := Option.mem_unique hq hb
        omega
      · omega

/-- Next to no upward interval, one across `2 ^ 63` is the only one that, lifted, can admit
its values. -/
theorem Apart.eq_of_admits (hc : Apart c) (hup : ¬∃ I ∈ c.intervals, Upward I) (hI : I ∈ c.intervals)
    (hJ : J ∈ c.intervals) (hr : Wide I.right) {v : T.Value} (hv : v.1 < 2 ^ 63) (hvI : I.isInRange v = true)
    (hx : (J.getIntegerInterval T.cast).isInRange (T.cast v) = true) : J = I := by
  have hmeet : J.lo < I.hi → I.lo < J.hi → J = I := by
    intro h1 h2
    by_contra hne
    have hspan : J.span ≠ I.span := fun h => hne (eq_iff.2 ⟨congrArg Span.lo h, congrArg Span.hi h⟩)
    obtain hgap | hgap := hc.gaps.gap (List.mem_map.2 ⟨J, hJ, rfl⟩) (List.mem_map.2 ⟨I, hI, rfl⟩) hspan
    · exact absurd h2 hgap.not_gt
    · exact absurd h1 hgap.not_gt
  have hcast : (T.cast v).toInt = v.1 := by rw [IntegralType.cast_toInt, if_pos hv]
  have hv0 : 0 ≤ v.1 := hr.bounds.1 ▸ v.2.1
  obtain ⟨hIlo, hIhi⟩ := SingleInterval.isInRange_iff.1 hvI
  -- moved down, a wide interval with a right end admits no value
  have hfar : ∀ b ∈ J.right.value, ¬J.Reads ((T.cast v).toInt + 2 ^ 64) := by
    intro b hb hread
    have hmax := (IntegralType.value_bounds b).2
    have hvb := hread.2 b hb
    split at hvb <;> omega
  obtain ⟨hl', hr'⟩ | hl' | ⟨hl', hr'⟩ | ⟨p, hp, hp', hr'⟩ := kinds J
  · have hread := (lifted_narrow (not_wide.1 hl') (not_wide.1 hr')).1 hx
    rw [hcast, ← SingleInterval.isInRange_iff_reads] at hread
    obtain ⟨hJlo, hJhi⟩ := SingleInterval.isInRange_iff.1 hread
    exact hmeet (hJlo.trans_lt hIhi) (hIlo.trans_lt hJhi)
  · have hread := (lifted_wide hl'.all hl'.right_all).1 hx
    cases hrv : J.right.value with
    | none => exact absurd ⟨J, hJ, hl', by simp [EndpointRange.isLimited, hrv]⟩ hup
    | some b => exact absurd hread (hfar b hrv)
  · have hread := (lifted_wide (by simp [hl']) hr'.all).1 hx
    obtain ⟨b, hb, -⟩ := hr'
    exact absurd hread (hfar b hb)
  · -- both reach across, so they have a cut in common
    obtain ⟨q, hq, hq'⟩ := hr
    obtain ⟨q', hqq', hq''⟩ := hr'
    have hpq : p < q := Subtype.mk_lt_mk.2 (by omega)
    have hvq : v < q' := Subtype.mk_lt_mk.2 (by omega)
    refine hmeet ?_ ?_
    · exact ((EndpointRange.cut_bounds hp).2.trans_lt (above_lt_below.2 hpq)).trans_le
        (EndpointRange.cut_bounds hq).1
    · exact (hIlo.trans_lt (below_lt_below.2 hvq)).trans_le (EndpointRange.cut_bounds hqq').1

/-- What an interval across `2 ^ 63` has, its own lifted interval admits, next to no upward one. -/
theorem LiftedExactly.self_admits (h : LiftedExactly c) (hc : Apart c) (hup : ¬∃ I ∈ c.intervals, Upward I)
    (hI : I ∈ c.intervals) (hr : Wide I.right) {v : T.Value} (hv : v.1 < 2 ^ 63) (hvI : I.isInRange v = true) :
    (I.getIntegerInterval T.cast).isInRange (T.cast v) = true := by
  obtain ⟨J, hJ, hx⟩ := exists_lifted.1 ((h.members v hv).1 (isInRange_iff.2 ⟨I, hI, hvI⟩))
  obtain rfl := hc.eq_of_admits hup hI hJ hr hv hvI hx
  exact hx

/-- Next to no upward interval, one across `2 ^ 63` has a left end: it would not admit 0. -/
theorem LiftedExactly.left_value (h : LiftedExactly c) (hc : Apart c) (hup : ¬∃ I ∈ c.intervals, Upward I)
    (hI : I ∈ c.intervals) (hr : Wide I.right) : I.left.value ≠ none := by
  intro hlv
  obtain ⟨q, hq, -⟩ := id hr
  have hqmax := (IntegralType.value_bounds q).2
  let zero : T.Value := ⟨0, T.zero_mem⟩
  have hlt : zero.1 < 2 ^ 63 := show (0 : ℤ) < 2 ^ 63 by decide
  have hzero : I.isInRange zero = true := by
    refine SingleInterval.isInRange_iff_reads.2 ⟨by simp [hlv], fun b hb => ?_⟩
    have hb' := hr.all b hb
    show if I.right.isOpen then (0 : ℤ) < b.1 else 0 ≤ b.1
    split <;> omega
  have hx := (lifted_wide (by simp [hlv]) hr.all).1 (h.self_admits hc hup hI hr hlt hzero)
  have hzq := hx.2 q hq
  have hcast : (T.cast zero).toInt = 0 := (IntegralType.cast_toInt zero).trans (if_pos hlt)
  rw [hcast] at hzq
  split at hzq <;> omega

/-- It begins at the last value before `2 ^ 63`: it would not admit the value behind its end. -/
theorem LiftedExactly.left_last (h : LiftedExactly c) (hc : Apart c) (hup : ¬∃ I ∈ c.intervals, Upward I)
    (hI : I ∈ c.intervals) (hr : Wide I.right) {p : T.Value} (hp : p ∈ I.left.value) (hp' : p.1 < 2 ^ 63) :
    p.1 = 2 ^ 63 - 1 := by
  by_contra hne
  obtain ⟨q, hq, hq'⟩ := id hr
  obtain ⟨hmin, hmax⟩ := hr.bounds
  have hp0 : 0 ≤ p.1 := hmin ▸ p.2.1
  let w : T.Value := ⟨p.1 + 1, by omega, by omega⟩
  have hw : w.1 < 2 ^ 63 := show p.1 + 1 < 2 ^ 63 by omega
  have hwI : I.isInRange w = true := by
    refine SingleInterval.isInRange_iff_reads.2 ⟨fun a ha => ?_, fun b hb => ?_⟩
    · obtain rfl := Option.mem_unique hp ha
      show if I.left.isOpen then p.1 < p.1 + 1 else p.1 ≤ p.1 + 1
      split <;> omega
    · have hb' := hr.all b hb
      show if I.right.isOpen then p.1 + 1 < b.1 else p.1 + 1 ≤ b.1
      split <;> omega
  have hx := ((lifted_across hp hq hp' hq').1 (h.self_admits hc hup hI hr hw hwI)).2
  have hcast : (T.cast w).toInt = p.1 + 1 := by rw [IntegralType.cast_toInt, if_pos hw]
  rw [hcast] at hx
  split at hx <;> omega

/-- Next to no upward interval, one across `2 ^ 63` begins at the last value before, and the
others have all that come before. -/
theorem LiftedExactly.across (h : LiftedExactly c) (hc : Apart c) (hup : ¬∃ I ∈ c.intervals, Upward I)
    (hI : I ∈ c.intervals) (hl : ¬Wide I.left) (hr : Wide I.right) :
    ∃ p ∈ I.left.value, p.1 = 2 ^ 63 - 1 ∧ ∀ v : T.Value, v.1 < 2 ^ 63 - 1 → c.isInRange v = true := by
  cases hlv : I.left.value with
  | none => exact absurd hlv (h.left_value hc hup hI hr)
  | some p =>
    have hp' := not_wide.1 hl p hlv
    have hpe := h.left_last hc hup hI hr hlv hp'
    refine ⟨p, rfl, hpe, fun v hv => ?_⟩
    have hx := across_admits hlv hp' hr (.inl (hpe ▸ hv))
    exact (h.members v (by omega)).2 (exists_lifted.2 ⟨I, hI, hx⟩)

/-- **Lifting to 64 signed bits keeps a condition when it keeps the ends**, for every integral
type and every condition that `add_range` can make. -/
theorem integerIntervals_iff (hc : Built c) : LiftedExactly c ↔ KeepsEnds c := by
  constructor
  · intro h
    constructor
    · by_cases hbot : ∃ I ∈ c.intervals, I.left.isLimited = false
      · exact .inl hbot
      · exact .inr fun I hI => h.negatives hbot hI
    · by_cases hup : ∃ I ∈ c.intervals, Upward I
      · obtain ⟨I, hI, hI'⟩ := id hup
        exact .inl ⟨hup, fun v hv => (h.members v hv).2 (exists_lifted.2 ⟨I, hI, hI'.admits hv⟩)⟩
      · exact .inr ⟨hup, fun I hI => h.across hc.apart hup hI⟩
  · intro h
    have hothers : ∀ x : Int64, (∃ L ∈ c.getIntegerIntervals T.cast, L.isInRange x = true) →
        ∃ I ∈ c.intervals, I.Reads x.toInt := by
      intro x hx
      obtain ⟨I, hI, hx⟩ := exists_lifted.1 hx
      exact h.others hI hx
    refine ⟨fun v hv => ⟨fun hvc => ?_, fun hx => ?_⟩, hothers⟩
    · obtain ⟨I, hI, hvI⟩ := isInRange_iff.1 hvc
      exact exists_lifted.2 (h.admits hI hv hvI)
    · have hread := hothers (T.cast v) hx
      rw [IntegralType.cast_toInt, if_pos hv] at hread
      exact isInRange_iff_reads.2 hread

/-- `uint64_t`. -/
def uint64 : IntegralType := ⟨64, false, .inr (.inr (.inr rfl))⟩

/-- `[1, 9]`. -/
theorem integerIntervals_iff_narrow :
    let c : RangeCondition uint64.Value := empty.addRange
      (.ofBoundaries ⟨some ⟨1, by decide⟩, false⟩ ⟨some ⟨9, by decide⟩, false⟩) .or
    LiftedExactly c := by
  intro c
  refine (integerIntervals_iff (Built.default.addRange _ .or)).2 (keepsEnds_of_narrow fun I hI => ?_)
  have hends : ∀ I ∈ c.intervals.toList, (∀ a ∈ I.left.value, a.1 < 2 ^ 63) ∧
      ∀ b ∈ I.right.value, b.1 < 2 ^ 63 := by
    decide
  exact (hends I hI).imp not_wide.2 not_wide.2

/-- `[0, 2 ^ 63]` is lifted to `[-2 ^ 63, 0]`: 1 is lost, and -1 is admitted. -/
theorem across_turnedAround :
    let c : RangeCondition uint64.Value := empty.addRange
      (.ofBoundaries ⟨some ⟨0, by decide⟩, false⟩ ⟨some ⟨2 ^ 63, by decide⟩, false⟩) .or
    Built c ∧ c.isInRange ⟨1, by decide⟩ = true ∧
      ((c.getIntegerIntervals uint64.cast).any fun L => L.isInRange 1) = false ∧
      ((c.getIntegerIntervals uint64.cast).any fun L => L.isInRange (-1)) = true ∧ ¬LiftedExactly c := by
  intro c
  have hone : c.isInRange ⟨1, by decide⟩ = true := by decide
  have hlost : ((c.getIntegerIntervals uint64.cast).any fun L => L.isInRange 1) = false := by decide
  refine ⟨Built.default.addRange _ .or, hone, hlost, by decide, fun h => ?_⟩
  have hmem := List.any_eq_true.2 ((h.members ⟨1, by decide⟩ (by decide)).1 hone)
  exact absurd (hlost.symm.trans hmem) (by decide)

end RangeCondition

end ProjectTrans
