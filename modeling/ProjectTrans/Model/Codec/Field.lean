import ProjectTrans.Model.Common.DataType
import ProjectTrans.Model.Codec.Header
import ProjectTrans.Lib.Cursor

/-!
# Fields (`network/codec/serialize_field`)

A field is a name, a type, a flag and a value. `wire` is the byte string a field
stands for, in the parts the two parsers read; `toSerializedByteArray_eq`: the
buffer-filling encoder writes exactly that for a field whose two lengths are the
real ones.
-/

namespace ProjectTrans

open Wire

/-- `SerializeFieldFlag`, a byte. -/
structure SerializeFieldFlag where
  bits : UInt8
  deriving DecidableEq, Repr

def SerializeFieldFlag.none : SerializeFieldFlag := ⟨0⟩
def SerializeFieldFlag.hasValueLength : SerializeFieldFlag := ⟨1⟩

/-- `SerializeField`. -/
structure SerializeField where
  nameLength : UInt16
  name : Bytes
  type : DataType
  flag : SerializeFieldFlag
  valueLength : UInt32
  value : Bytes
  deriving DecidableEq, Repr

/-- The types whose value is copied as it is; every other value goes through a
byte-order conversion of its single bytes. -/
def isCopiedType (type : DataType) : Bool :=
  type = .string || type = .byteArray || type = .dictionary || type = .array || type = .map

namespace SerializeField

/-- The field says how long its value is. -/
def carriesLength (f : SerializeField) : Bool :=
  hasFlag f.flag.bits SerializeFieldFlag.hasValueLength.bits

/-- `serialized_size`. -/
def serializedSize (f : SerializeField) : ℕ :=
  let size := u32 (2 + f.name.length + 1 + 1 + f.value.length)
  if f.carriesLength then u32 (size + 4) else size

/-- The bytes the encoder takes from `value`. -/
def valueBytes (host : Endian) (f : SerializeField) : Checked Bytes :=
  if isCopiedType f.type then .ok f.value
  else do
    let src ← readAt f.value 0 f.valueLength.toNat
    return convertByteOrderArray host 1 f.valueLength.toNat src

/-- `to_serialized_byte_array`. -/
def toSerializedByteArray (host : Endian) (f : SerializeField) : Checked Bytes := do
  let c : Cursor := ⟨List.replicate f.serializedSize 0, 0, 0⟩
  let c ← c.put 2 (toNetworkByteOrder host f.nameLength)
  let c ← c.put f.nameLength.toNat f.name
  let c ← c.put 1 (toNetworkByteOrder host f.type.code)
  let c ← c.put 1 (toNetworkByteOrder host f.flag.bits)
  let c ← if f.carriesLength then c.put 4 (toNetworkByteOrder host f.valueLength) else pure c
  let value ← f.valueBytes host
  let c ← c.put f.valueLength.toNat value
  return c.data

/-- `min_serialized_byte_array_size`. -/
def minSerializedByteArraySize : ℕ := 2 + 1 + 1

/-- The parts `from_serialized_byte_array` reads in front of the value: the name and its
length, the type, the flag and the value length. -/
def readHead (host : Endian) (data : Bytes) :
    OptionT Checked (UInt16 × Bytes × DataType × SerializeFieldFlag × UInt32 × Reader) := do
  let (p, r) ← (Reader.startAt 0).next data 2
  let nameLength := toLocalByteOrder UInt16 host p
  let (name, r) ← r.next data nameLength.toNat
  let (p, r) ← r.next data 1
  let type : DataType := ⟨toLocalByteOrder UInt8 host p⟩
  let (p, r) ← r.next data 1
  let flag : SerializeFieldFlag := ⟨toLocalByteOrder UInt8 host p⟩
  if hasFlag flag.bits SerializeFieldFlag.hasValueLength.bits then
    let (p, r) ← r.next data 4
    return (nameLength, name, type, flag, toLocalByteOrder UInt32 host p, r)
  else
    return (nameLength, name, type, flag, getDataTypeLength type, r)

/-- `from_serialized_byte_array`. -/
def fromSerializedByteArray (host : Endian) (data : Bytes) : OptionT Checked SerializeField := do
  if u32 data.length < minSerializedByteArraySize then
    failure
  let (nameLength, name, type, flag, valueLength, r) ← readHead host data
  let (value, _) ← r.next data valueLength.toNat
  let value :=
    if isCopiedType type then value else convertByteOrderArray host 1 valueLength.toNat value
  return ⟨nameLength, name, type, flag, valueLength, value⟩

/-- The parts of a field on the wire, in order. -/
def wireParts (f : SerializeField) : List Bytes :=
  [beBytes 2 f.nameLength.toNat, f.name, beBytes 1 f.type.code.toNat, beBytes 1 f.flag.bits.toNat] ++
    (if f.carriesLength then [beBytes 4 f.valueLength.toNat] else []) ++ [f.value]

/-- A field as it stands on the wire. -/
def wire (f : SerializeField) : Bytes := f.wireParts.flatten

/-- The two lengths of a field are the real ones. -/
structure Sized (f : SerializeField) : Prop where
  name : f.nameLength.toNat = f.name.length
  value : f.valueLength.toNat = f.value.length

/-- A sized field whose value length can be told from its flag or its type. -/
structure WellFormed (f : SerializeField) : Prop extends Sized f where
  length : f.carriesLength = true ∨ getDataTypeLength f.type = f.valueLength

theorem carriesLength_of_flag {f : SerializeField} (h : f.flag = .hasValueLength) : f.carriesLength = true := by
  unfold carriesLength
  rw [h]
  decide

theorem carriesLength_of_none {f : SerializeField} (h : f.flag = .none) : f.carriesLength = false := by
  unfold carriesLength
  rw [h]
  decide

theorem wire_length (f : SerializeField) :
    f.wire.length = 4 + f.name.length + f.value.length + if f.carriesLength then 4 else 0 := by
  unfold wire wireParts
  split <;> simp <;> omega

theorem serializedSize_eq {f : SerializeField} (h : f.wire.length < 2 ^ 32) :
    f.serializedSize = f.wire.length := by
  rw [wire_length] at h ⊢
  have hbase : u32 (2 + f.name.length + 1 + 1 + f.value.length) = 4 + f.name.length + f.value.length := by
    rw [u32_of_lt (by omega)]; omega
  unfold serializedSize
  rw [hbase]
  split <;> simp_all [u32_of_lt]

theorem valueBytes_eq (host : Endian) {f : SerializeField} (hf : f.Sized) :
    f.valueBytes host = .ok f.value := by
  have hr : readAt f.value 0 f.valueLength.toNat = .ok f.value :=
    readAt_iff.2 ⟨hf.value.symm, [], [], by simp, rfl⟩
  unfold valueBytes
  split
  · rfl
  · rw [hr, Checked.ok_bind, hf.value, convertByteOrderArray_one host le_rfl, List.take_length]
    rfl

/-- **The encoder writes the wire form.** -/
theorem toSerializedByteArray_eq (host : Endian) {f : SerializeField} (hf : f.Sized)
    (h : f.wire.length < 2 ^ 32) : f.toSerializedByteArray host = .ok f.wire := by
  have hfill := Cursor.fill_eq f.wireParts rfl h
  unfold toSerializedByteArray
  rw [valueBytes_eq host hf, serializedSize_eq h, hf.name, hf.value]
  unfold wireParts at hfill
  by_cases hc : f.carriesLength = true <;>
    simpa [hc, toNetworkByteOrder_eq, List.foldlM_cons, hf.name, hf.value, wire, wireParts] using hfill

theorem serializedSize_lt (f : SerializeField) : f.serializedSize < 2 ^ 32 := by
  unfold serializedSize
  dsimp only
  split <;> exact u32_lt _

/-- A field that does not fit 32 bits is not encoded. -/
theorem toSerializedByteArray_fits {host : Endian} {f : SerializeField} {bs : Bytes} (hf : f.Sized)
    (h : f.toSerializedByteArray host = .ok bs) : f.wire.length < 2 ^ 32 := by
  have hfit := @Cursor.fill_fits _ f.wireParts bs f.serializedSize_lt
  apply hfit
  unfold toSerializedByteArray at h
  rw [valueBytes_eq host hf, hf.name, hf.value] at h
  unfold wireParts
  by_cases hc : f.carriesLength = true <;>
    simpa [hc, toNetworkByteOrder_eq, List.foldlM_cons, hf.name, hf.value] using h

end SerializeField

end ProjectTrans
