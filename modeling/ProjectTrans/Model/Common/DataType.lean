import ProjectTrans.Lib.Buffer

/-!
# Data types (`common/core/data_type`)

`DataType` is an enumeration with a fixed one-byte representation, so a byte read
from the wire is a `DataType` whether or not it names an enumerator.
-/

namespace ProjectTrans

open Wire

/-- `DataType`: a byte, of which the values below have names. -/
structure DataType where
  code : UInt8
  deriving DecidableEq, Repr

namespace DataType

def object : DataType := ⟨0⟩
def uInt8 : DataType := ⟨1⟩
def int8 : DataType := ⟨2⟩
def uInt16 : DataType := ⟨3⟩
def int16 : DataType := ⟨4⟩
def uInt32 : DataType := ⟨5⟩
def int32 : DataType := ⟨6⟩
def uInt64 : DataType := ⟨7⟩
def int64 : DataType := ⟨8⟩
def float : DataType := ⟨9⟩
def double : DataType := ⟨10⟩
def bool : DataType := ⟨11⟩
def string : DataType := ⟨12⟩
def byteArray : DataType := ⟨13⟩
def map : DataType := ⟨14⟩
def array : DataType := ⟨15⟩
def dictionary : DataType := ⟨16⟩
def null : DataType := ⟨17⟩
def unknown : DataType := ⟨18⟩

end DataType

/-- `get_data_type_length`. -/
def getDataTypeLength (type : DataType) : UInt32 :=
  if type = .uInt8 then 1
  else if type = .int8 then 1
  else if type = .uInt16 then 2
  else if type = .int16 then 2
  else if type = .uInt32 then 4
  else if type = .int32 then 4
  else if type = .uInt64 then 8
  else if type = .int64 then 8
  else if type = .float then 4
  else if type = .double then 8
  else 0

/-- `is_integer_type`. -/
def isIntegerType (type : DataType) : Bool :=
  type = .uInt8 || type = .int8 || type = .uInt16 || type = .int16 ||
    type = .uInt32 || type = .int32 || type = .uInt64 || type = .int64

/-- `is_string_type`. -/
def isStringType (type : DataType) : Bool := type = .string

/-- `get_data_type<T>()`. -/
class HasDataType (T : Type) where
  getDataType : DataType

export HasDataType (getDataType)

instance : HasDataType UInt8 := ⟨.uInt8⟩
instance : HasDataType Int8 := ⟨.int8⟩
instance : HasDataType UInt16 := ⟨.uInt16⟩
instance : HasDataType Int16 := ⟨.int16⟩
instance : HasDataType UInt32 := ⟨.uInt32⟩
instance : HasDataType Int32 := ⟨.int32⟩
instance : HasDataType UInt64 := ⟨.uInt64⟩
instance : HasDataType Int64 := ⟨.int64⟩

/-- An integer type: its `DataType` is one, of its width. -/
class IntegerType (T : Type) extends Scalar T, HasDataType T where
  isInteger : isIntegerType getDataType = true
  length_eq : (getDataTypeLength getDataType).toNat = width

instance : IntegerType UInt8 := ⟨by decide, by decide⟩
instance : IntegerType Int8 := ⟨by decide, by decide⟩
instance : IntegerType UInt16 := ⟨by decide, by decide⟩
instance : IntegerType Int16 := ⟨by decide, by decide⟩
instance : IntegerType UInt32 := ⟨by decide, by decide⟩
instance : IntegerType Int32 := ⟨by decide, by decide⟩
instance : IntegerType UInt64 := ⟨by decide, by decide⟩
instance : IntegerType Int64 := ⟨by decide, by decide⟩

/-- An integer has between one and eight bytes. -/
theorem getDataTypeLength_integer {type : DataType} (h : isIntegerType type = true) :
    0 < (getDataTypeLength type).toNat ∧ (getDataTypeLength type).toNat ≤ 8 := by
  simp only [isIntegerType, Bool.or_eq_true, decide_eq_true_eq, or_assoc] at h
  rcases h with rfl | rfl | rfl | rfl | rfl | rfl | rfl | rfl <;> decide

variable (T : Type) [IntegerType T]

theorem IntegerType.width_pos : 0 < Scalar.width T := by
  rw [← IntegerType.length_eq (T := T)]
  exact (getDataTypeLength_integer IntegerType.isInteger).1

theorem IntegerType.width_le : Scalar.width T ≤ 8 := by
  rw [← IntegerType.length_eq (T := T)]
  exact (getDataTypeLength_integer IntegerType.isInteger).2

end ProjectTrans
