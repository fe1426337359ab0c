import ProjectTrans.Lib.OrderedSet
import ProjectTrans.Model.Condition.SingleInterval

/-!
# Range conditions (`condition/range_condition`)

A range condition is an ordered set of intervals, of which a value has to be in one.
Adding a range rebuilds the set and then sweeps over it once, merging neighbours.
-/

namespace ProjectTrans

/-- `ConditionRelation`. -/
inductive ConditionRelation
  | or
  | and
  | xor
  | not
  | unknown
  deriving DecidableEq, Repr

/-- `RangeCondition`. -/
structure RangeCondition (α : Type*) [LinearOrder α] where
  intervals : OrderedSet (SingleInterval α)
  deriving DecidableEq

namespace RangeCondition

variable {α : Type*} [LinearOrder α]

/-- The default constructor. -/
def empty : RangeCondition α := ⟨.empty⟩

/-- The constructor from a value. -/
def ofPoint (value : α) : RangeCondition α := ⟨OrderedSet.empty.insert (.ofPoint value)⟩

/-- The constructor from an interval. -/
def ofInterval (value : SingleInterval α) : RangeCondition α :=
  if value.isEmpty then empty else ⟨OrderedSet.empty.insert value⟩

/-- `or_single_interval`. -/
def orSingleInterval (c : RangeCondition α) (newInterval : SingleInterval α) : RangeCondition α :=
  ⟨c.intervals.insert newInterval⟩

/-- `and_single_interval`. -/
def andSingleInterval (c : RangeCondition α) (newInterval : SingleInterval α) : RangeCondition α :=
  ⟨OrderedSet.empty.insertAll
    (c.intervals.toList.filterMap fun interval => interval.tryGetIntersect newInterval)⟩

/-- `not_single_interval`. -/
def notSingleInterval [Zero α] (c : RangeCondition α) (newInterval : SingleInterval α) : RangeCondition α :=
  ⟨OrderedSet.empty.insertAll
    (c.intervals.toList.flatMap fun interval => interval.getDifference newInterval)⟩

/-- The loop of `simplify`: `current` is merged with what follows as long as that works. -/
def sweep (current : SingleInterval α) (result : OrderedSet (SingleInterval α)) :
    List (SingleInterval α) → OrderedSet (SingleInterval α)
  | [] => if current.isEmpty then result else result.insert current
  | next :: rest =>
    if current.isEmpty then sweep next result rest
    else
      match current.tryGetUnion next with
      | some merged => sweep merged result rest
      | none => sweep next (result.insert current) rest

/-- `simplify`. -/
def simplify (c : RangeCondition α) : RangeCondition α :=
  match c.intervals.toList with
  | [] => c
  | [I] => if I.isEmpty then empty else c
  | I :: rest => ⟨sweep I .empty rest⟩

/-- `add_range` of an interval. -/
def addRange [Zero α] (c : RangeCondition α) (newInterval : SingleInterval α)
    (relation : ConditionRelation) : RangeCondition α :=
  simplify <|
    match relation with
    | .and => c.andSingleInterval newInterval
    | .or => c.orSingleInterval newInterval
    | .not => c.notSingleInterval newInterval
    | _ => c

/-- `add_range` of a range: one call for each of its intervals. -/
def addRangeCondition [Zero α] (c newRange : RangeCondition α) (relation : ConditionRelation) :
    RangeCondition α :=
  newRange.intervals.toList.foldl (fun c newInterval => c.addRange newInterval relation) c

/-- `add_range` of a value. -/
def addRangeValue [Zero α] (c : RangeCondition α) (newValue : α) (relation : ConditionRelation) :
    RangeCondition α :=
  c.addRange (.ofPoint newValue) relation

/-- `get_intersect_range`. -/
def getIntersectRange [Zero α] (c other : RangeCondition α) : RangeCondition α :=
  other.intervals.toList.foldl
    (fun result otherInterval => result.addRangeCondition (c.addRange otherInterval .and) .or) empty

/-- `get_union_range`. -/
def getUnionRange [Zero α] (c other : RangeCondition α) : RangeCondition α :=
  other.intervals.toList.foldl (fun newRange otherInterval => newRange.addRange otherInterval .or) c

/-- `get_difference_range`. -/
def getDifferenceRange [Zero α] (c other : RangeCondition α) : RangeCondition α :=
  other.intervals.toList.foldl (fun result interval => result.addRange interval .not) c

/-- `get_complement_range`: what `rhs` leaves of `lhs`. -/
def getComplementRange [Zero α] (lhs rhs : RangeCondition α) : RangeCondition α := lhs.getDifferenceRange rhs

/-- `operator||`. -/
instance [Zero α] : OrOp (RangeCondition α) := ⟨getUnionRange⟩

/-- `operator&&`. -/
instance [Zero α] : AndOp (RangeCondition α) := ⟨getIntersectRange⟩

/-- `is_equal`. -/
def isEqual (c other : RangeCondition α) : Bool := c.intervals = other.intervals

/-- `is_intersect`. -/
def isIntersect (c other : RangeCondition α) : Bool :=
  other.intervals.toList.any fun interval => c.intervals.toList.any fun otherInterval =>
    interval.isIntersect otherInterval

/-- `is_in_range` of an interval. -/
def isIntervalInRange (c : RangeCondition α) (other : SingleInterval α) : Bool :=
  c.intervals.toList.any fun interval => interval.isIntervalInRange other

/-- `is_in_range` of a range. -/
def isConditionInRange (c other : RangeCondition α) : Bool :=
  other.intervals.toList.all fun otherInterval => c.isIntervalInRange otherInterval

/-- `is_in_range` of a value. -/
def isInRange (c : RangeCondition α) (other : α) : Bool :=
  c.intervals.toList.any fun interval => interval.isInRange other

/-- `is_empty`. -/
def isEmpty (c : RangeCondition α) : Bool := c.intervals.toList.isEmpty

/-- `get_integer_intervals`, for an integral type and its cast to 64 bits. -/
def getIntegerIntervals (cast : α → Int64) (c : RangeCondition α) : List (SingleInterval Int64) :=
  c.intervals.toList.map (·.getIntegerInterval cast)

end RangeCondition

end ProjectTrans
