import ProjectTrans.Model.Condition.EndpointRange

/-!
# Intervals (`condition/single_interval`)

An interval is a left and a right endpoint. Every constructor puts two finite ends in the
order of their values; the state is a function of the ends.
-/

namespace ProjectTrans

open Cuts

/-- `IntervalState`. -/
inductive IntervalState
  | empty
  | whole
  | fixedLeft
  | fixedRight
  | fixedBoth
  | unknown
  deriving DecidableEq, Repr

/-- `IntervalBoundary`: an end without its direction. -/
structure IntervalBoundary (α : Type*) where
  value : Option α
  isOpen : Bool
  deriving DecidableEq

/-- The boundary an endpoint gives. -/
def EndpointRange.boundary {α : Type*} (e : EndpointRange α) : IntervalBoundary α := ⟨e.value, e.isOpen⟩

variable {α : Type*} [LinearOrder α]

/-- Two boundaries, exchanged when both have values and the first is greater. -/
def IntervalBoundary.arrange (l r : IntervalBoundary α) : IntervalBoundary α × IntervalBoundary α :=
  match l.value, r.value with
  | some a, some b => if b < a then (r, l) else (l, r)
  | _, _ => (l, r)

theorem IntervalBoundary.arrange_le (l r : IntervalBoundary α) :
    ∀ a ∈ (arrange l r).1.value, ∀ b ∈ (arrange l r).2.value, a ≤ b := by
  unfold arrange
  split
  · rename_i a b ha hb
    split
    · rename_i h
      simp [ha, hb, h.le]
    · rename_i h
      simp [ha, hb, not_lt.1 h]
  · rename_i h
    intro a ha b hb
    exact absurd hb (h a b ha)

/-- `SingleInterval`. -/
structure SingleInterval (α : Type*) [LinearOrder α] where
  left : EndpointRange α
  right : EndpointRange α
  left_side : left.side = .left
  right_side : right.side = .right
  values_le : ∀ a ∈ left.value, ∀ b ∈ right.value, a ≤ b
  deriving DecidableEq

namespace SingleInterval

/-- The constructor from a left and a right boundary. -/
def ofBoundaries (l r : IntervalBoundary α) : SingleInterval α :=
  let p := IntervalBoundary.arrange l r
  ⟨.new p.1.value p.1.isOpen .left, .new p.2.value p.2.isOpen .right, rfl, rfl,
    IntervalBoundary.arrange_le l r⟩

/-- The default constructor: `(0, 0)`. -/
def empty [Zero α] : SingleInterval α :=
  ⟨.new (some 0) true .left, .new (some 0) true .right, rfl, rfl, by simp [EndpointRange.new]⟩

/-- The constructor from one endpoint. -/
def ofEndpoint (point : EndpointRange α) : SingleInterval α where
  left := if point.side = .left then point else .infinite .left
  right := if point.side = .right then point else .infinite .right
  left_side := by
    split
    · assumption
    · rfl
  right_side := by
    split
    · assumption
    · rfl
  values_le := by
    intro a ha b hb
    split at hb
    · rename_i h
      rw [if_neg (by rw [h]; decide)] at ha
      exact absurd ha (by simp [EndpointRange.infinite])
    · exact absurd hb (by simp [EndpointRange.infinite])

/-- The constructor from a value. -/
def ofPoint (point : α) : SingleInterval α :=
  ⟨.new (some point) false .left, .new (some point) false .right, rfl, rfl, by simp [EndpointRange.new]⟩

/-- `init_state`. -/
def state (I : SingleInterval α) : IntervalState :=
  match I.left.value, I.right.value with
  | none, none => .whole
  | none, some _ => .fixedRight
  | some _, none => .fixedLeft
  | some a, some b => if a = b ∧ I.left.isOpen ∧ I.right.isOpen then .empty else .fixedBoth

/-- `operator<`. -/
def lt (I J : SingleInterval α) : Bool :=
  if I.left < J.left then true
  else if J.left < I.left then false
  else I.right < J.right

instance : LT (SingleInterval α) := ⟨fun I J => I.lt J = true⟩

instance : DecidableLT (SingleInterval α) := fun I J => inferInstanceAs (Decidable (I.lt J = true))

/-- `is_equals`. -/
def isEquals (I other : SingleInterval α) : Bool := I.left = other.left && I.right = other.right

/-- `is_empty`. -/
def isEmpty (I : SingleInterval α) : Bool := I.state = .empty

/-- `is_in_range` of a value. -/
def isInRange (I : SingleInterval α) (v : α) : Bool := I.left.isInRange v && I.right.isInRange v

/-- `is_in_range` of an interval. -/
def isIntervalInRange (I other : SingleInterval α) : Bool := I.left.le other.left && other.right.le I.right

/-- `is_adjacent`. -/
def isAdjacent (I other : SingleInterval α) : Bool :=
  I.left.getAdjacentEndpoint = other.right || I.right.getAdjacentEndpoint = other.left

/-- `is_disjoint`. -/
def isDisjoint (I other : SingleInterval α) : Bool :=
  if I.isAdjacent other then false
  else if other.right < I.left then
    if I.left.value = other.right.value then I.left.isOpen && other.right.isOpen else true
  else if I.right < other.left then
    if I.right.value = other.left.value then I.right.isOpen && other.left.isOpen else true
  else false

/-- `is_intersect`. -/
def isIntersect (I other : SingleInterval α) : Bool := !I.isDisjoint other && !I.isAdjacent other

/-- `can_merge_with`. -/
def canMergeWith (I other : SingleInterval α) : Bool := !I.isDisjoint other

/-- `try_get_intersect`. -/
def tryGetIntersect (I other : SingleInterval α) : Option (SingleInterval α) :=
  if I.isIntersect other then
    let left := if I.left.le other.left then other.left else I.left
    let right := if I.right.ge other.right then other.right else I.right
    some (ofBoundaries left.boundary right.boundary)
  else none

/-- `try_get_union`. -/
def tryGetUnion (I other : SingleInterval α) : Option (SingleInterval α) :=
  if I.canMergeWith other then
    let left := if I.left.le other.left then I.left else other.left
    let right := if I.right.ge other.right then I.right else other.right
    some (ofBoundaries left.boundary right.boundary)
  else none

/-- `get_difference`. -/
def getDifference [Zero α] (I other : SingleInterval α) : List (SingleInterval α) :=
  if !I.isIntersect other then [I]
  else if other.isIntervalInRange I then [empty]
  else
    match I.tryGetIntersect other with
    | none => [empty]
    | some intersect =>
      let before := ofBoundaries I.left.boundary intersect.left.getAdjacentEndpoint.boundary
      let behind := ofBoundaries intersect.right.getAdjacentEndpoint.boundary I.right.boundary
      if I.left < intersect.left ∧ intersect.right < I.right then [before, behind]
      else if intersect.left = I.left then [behind]
      else if intersect.right = I.right then [before]
      else []

/-- `get_integer_interval`, for an integral type and its cast to 64 bits. -/
def getIntegerInterval (cast : α → Int64) (I : SingleInterval α) : SingleInterval Int64 :=
  ofBoundaries (I.left.getIntegerEndpoint cast).boundary (I.right.getIntegerEndpoint cast).boundary

/-! ## Intervals as pairs of cuts -/

/-- Where an interval begins. -/
def lo (I : SingleInterval α) : Cut α := I.left.cut

/-- Where an interval ends. -/
def hi (I : SingleInterval α) : Cut α := I.right.cut

theorem left_known (I : SingleInterval α) : I.left.side ≠ .unknown := by
  rw [I.left_side]
  decide

theorem right_known (I : SingleInterval α) : I.right.side ≠ .unknown := by
  rw [I.right_side]
  decide

theorem sides_left (I J : SingleInterval α) : I.left.side = J.left.side := by
  rw [I.left_side, J.left_side]

theorem sides_right (I J : SingleInterval α) : I.right.side = J.right.side := by
  rw [I.right_side, J.right_side]

theorem lt_iff {I J : SingleInterval α} : I < J ↔ I.lo < J.lo ∨ I.lo = J.lo ∧ I.hi < J.hi := by
  show I.lt J = true ↔ _
  unfold lt lo hi
  simp only [EndpointRange.lt_iff_cut (sides_left I J) I.left_known,
    EndpointRange.lt_iff_cut (sides_left J I) J.left_known,
    EndpointRange.lt_iff_cut (sides_right I J) I.right_known]
  rcases lt_trichotomy I.left.cut J.left.cut with h | h | h
  · simp [h]
  · simp [h]
  · simp [h.not_gt, h, h.ne']

/-- An interval is determined by its two cuts. -/
theorem eq_iff {I J : SingleInterval α} : I = J ↔ I.lo = J.lo ∧ I.hi = J.hi := by
  refine ⟨fun h => h ▸ ⟨rfl, rfl⟩, fun h => ?_⟩
  have hl := (EndpointRange.cut_inj (sides_left I J) I.left_known).1 h.1
  have hr := (EndpointRange.cut_inj (sides_right I J) I.right_known).1 h.2
  cases I
  cases J
  simp only at hl hr
  subst hl hr
  rfl

instance : IsStrictTotalOrder (SingleInterval α) (· < ·) where
  trichotomous I J hIJ hJI := by
    rw [lt_iff] at hIJ hJI
    push Not at hIJ hJI
    have hlo := le_antisymm hJI.1 hIJ.1
    exact eq_iff.2 ⟨hlo, le_antisymm (hJI.2 hlo.symm) (hIJ.2 hlo)⟩
  irrefl I h := by
    rw [lt_iff] at h
    simp at h
  trans I J K hIJ hJK := by
    rw [lt_iff] at *
    grind

end SingleInterval

end ProjectTrans
