import ProjectTrans.Model.Codec.SerializeCodec

/-!
# Typed calls

The calls of `serialize` for the types a caller can hand it: a value of any trivially
copyable type, strings and vectors. `get_data_type<T>()` names some of the types and
calls the others unknown; a value is written as its bytes either way.
-/

namespace ProjectTrans

open Wire

/-- The trivially copyable types: those `get_data_type` knows, and any other. -/
inductive CopyableType
  | uInt8
  | int8
  | uInt16
  | int16
  | uInt32
  | int32
  | uInt64
  | int64
  | float
  | double
  | bool
  | nullptr
  | other (size : ℕ) (pos : 0 < size)
  deriving DecidableEq, Repr

namespace CopyableType

/-- `sizeof`. -/
def size : CopyableType → ℕ
  | uInt8 | int8 | bool => 1
  | uInt16 | int16 => 2
  | uInt32 | int32 | float => 4
  | uInt64 | int64 | double | nullptr => 8
  | other size _ => size

/-- `get_data_type`. -/
def dataType : CopyableType → DataType
  | uInt8 => .uInt8
  | int8 => .int8
  | uInt16 => .uInt16
  | int16 => .int16
  | uInt32 => .uInt32
  | int32 => .int32
  | uInt64 => .uInt64
  | int64 => .int64
  | float => .float
  | double => .double
  | bool => .bool
  | nullptr => .null
  | other _ _ => .unknown

/-- The table of lengths has the size of the type. -/
def HasLength (t : CopyableType) : Prop := (getDataTypeLength t.dataType).toNat = t.size

instance (t : CopyableType) : Decidable t.HasLength := inferInstanceAs (Decidable (_ = _))

/-- **The table has no size** for booleans, null pointers and unknown types. -/
theorem hasLength_iff (t : CopyableType) :
    t.HasLength ↔ t ≠ bool ∧ t ≠ nullptr ∧ ∀ n h, t ≠ other n h := by
  cases t with
  | other n h =>
    have hzero : (getDataTypeLength (other n h).dataType).toNat = 0 := by
      show (getDataTypeLength .unknown).toNat = 0
      decide
    refine iff_of_false ?_ fun hne => hne.2.2 n h rfl
    unfold HasLength
    rw [hzero]
    exact h.ne
  | _ =>
    simp [HasLength, size]
    decide

end CopyableType

/-- A value of a trivially copyable type, given by the pattern of its bits. -/
structure Object (t : CopyableType) where
  bits : ℕ
  lt : bits < 256 ^ t.size
  deriving DecidableEq, Repr

instance (t : CopyableType) : Scalar (Object t) where
  width := t.size
  bits := Object.bits
  ofBits n := ⟨n % 256 ^ t.size, Nat.mod_lt _ (by positivity)⟩
  bits_lt := Object.lt
  ofBits_bits x := by
    obtain ⟨bits, lt⟩ := x
    simp [Nat.mod_eq_of_lt lt]
  bits_ofBits n h := Nat.mod_eq_of_lt h

instance (t : CopyableType) : HasDataType (Object t) := ⟨t.dataType⟩

/-- A typed `serialize`: of a value, a `std::string` (or what is made one: `char*`, a
literal), a `const char*`, a vector, or a vector of `char`. -/
inductive TypedCall
  | value (t : CopyableType) (data : Object t)
  | string (data : Bytes)
  | cString (data : Bytes)
  | vector (t : CopyableType) (data : List (Object t))
  | chars (data : Bytes)
  deriving DecidableEq, Repr

namespace SerializeCodec

/-- `serialize<T>` of a `const char*`: its type is that of a string, and `to_byte_array`
takes the one byte the pointer points to. -/
def serializeCString (host : Endian) (c : SerializeCodec) (data name : Bytes) : Checked SerializeCodec :=
  let value := [data.headD 0]
  c.serialize host
    ⟨UInt16.ofNat name.length, name, .string, .none, UInt32.ofNat value.length, value⟩

/-- `serialize<T>` of a vector of `char`: more than one is a string, and `char` alone has
no type of its own. -/
def serializeChars (host : Endian) (c : SerializeCodec) (data name : Bytes) : Checked SerializeCodec := do
  let size := UInt32.ofNat data.length
  if data = [] ∨ size = 0 then
    return c
  let value := data.take size.toNat
  if 1 < size then
    c.serialize host
      ⟨UInt16.ofNat name.length, name, .string, .hasValueLength, UInt32.ofNat value.length, value⟩
  else
    c.serialize host
      ⟨UInt16.ofNat name.length, name, .unknown, .none, UInt32.ofNat value.length, value⟩

/-- A typed call on a codec, for the field `name`. -/
def serializeTyped (host : Endian) (c : SerializeCodec) : TypedCall × Bytes → Checked SerializeCodec
  | (.value _ data, name) => c.serializeValue host data name
  | (.string data, name) => c.serializeString host data name
  | (.cString data, name) => c.serializeCString host data name
  | (.vector _ data, name) => c.serializeVector host data name
  | (.chars data, name) => c.serializeChars host data name

end SerializeCodec

end ProjectTrans
