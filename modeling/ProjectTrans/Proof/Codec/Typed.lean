import ProjectTrans.Proof.Codec.Build

/-!
# Typed fields on the wire

The field each typed `serialize` hands on, and what `to_value`, `to_string` and
`to_array` make of it on the other side.
-/

namespace ProjectTrans

open Wire

namespace SerializeCodec

variable (host : Endian)

/-- What is behind a pointer is written when it is there. -/
theorem pointer_notSkipped {α : Type} {xs : List α} {size : UInt32} (hpos : 0 < size.toNat)
    (hsize : size.toNat ≤ xs.length) : ¬(xs = [] ∨ size = 0) := by
  rintro (rfl | rfl)
  · rw [List.length_nil] at hsize
    omega
  · cases hpos

section Fields

variable {T : Type} [Scalar T] [HasDataType T]

/-- The field of a value. -/
def valueField (host : Endian) (x : T) (name : Bytes) : SerializeField :=
  ⟨UInt16.ofNat name.length, name, getDataType T, .none, UInt32.ofNat (toByteArray host x).length,
    toByteArray host x⟩

/-- The field of a string. -/
def stringField (s name : Bytes) : SerializeField :=
  ⟨UInt16.ofNat name.length, name, .string, .hasValueLength, UInt32.ofNat s.length, s⟩

/-- The array value of a vector. -/
def arrayValue (xs : List T) : SerializeArrayValue :=
  ⟨getDataType T, UInt32.ofNat xs.length, .none, [UInt32.ofNat (Scalar.width T)], elementsWire xs⟩

/-- The field of a vector of more than one element. -/
def arrayField (xs : List T) (name : Bytes) : SerializeField :=
  ⟨UInt16.ofNat name.length, name, .array, .hasValueLength, UInt32.ofNat (arrayValue xs).wire.length,
    (arrayValue xs).wire⟩

/-- The fields of a vector: none when it is empty, a plain value when it is a single one. -/
def vectorFields (host : Endian) (xs : List T) (name : Bytes) : List SerializeField :=
  match xs with
  | [] => []
  | [x] => [valueField host x name]
  | x :: y :: zs => [arrayField (x :: y :: zs) name]

@[simp] theorem valueField_name (x : T) (name : Bytes) : (valueField host x name).name = name := rfl
@[simp] theorem stringField_name (s name : Bytes) : (stringField s name).name = name := rfl
@[simp] theorem arrayField_name (xs : List T) (name : Bytes) : (arrayField xs name).name = name := rfl

theorem serializeValue_eq (c : SerializeCodec) (x : T) (name : Bytes) :
    c.serializeValue host x name = c.serialize host (valueField host x name) := rfl

theorem serializeString_eq (c : SerializeCodec) (s name : Bytes) :
    c.serializeString host s name = c.serialize host (stringField s name) := rfl

theorem arrayValue_wire_length (xs : List T) :
    (arrayValue xs).wire.length = 10 + Scalar.width T * xs.length := by
  simp [SerializeArrayValue.wire_length, arrayValue]

/-- Elements that were written as an array take less than `2^32` bytes. -/
theorem serializePointer_fits {c c' : SerializeCodec} {xs : List T} {size : UInt32} {name : Bytes}
    (hmany : 1 < size.toNat) (hsize : size.toNat ≤ xs.length)
    (h : c.serializePointer host xs size name = .ok c') : 10 + Scalar.width T * size.toNat < 2 ^ 32 := by
  have h1 : (1 : UInt32) < size := UInt32.lt_iff_toNat_lt.2 hmany
  unfold serializePointer at h
  rw [if_neg (pointer_notSkipped (by omega) hsize), if_pos h1] at h
  obtain ⟨elementValue, hfill, h⟩ := Checked.bind_eq_ok.1 h
  obtain ⟨value, hvalue, -⟩ := Checked.bind_eq_ok.1 h
  -- the array value was encoded, so it is shorter than 2^32
  have hfit := SerializeArrayValue.toSerializedByteArray_fits (by simp) (by simp) hvalue
  have helements := writeAll_length _ hfill
  rw [SerializeArrayValue.wire_length] at hfit
  rw [List.length_replicate] at helements
  simp only [List.length_singleton, helements] at hfit
  omega

/-- **Elements behind a pointer are serialized** as the fields of the vector of them. -/
theorem serializePointer_eq (c : SerializeCodec) {xs : List T} {size : UInt32} (name : Bytes)
    (hsize : size.toNat ≤ xs.length) (h : 1 < size.toNat → 10 + Scalar.width T * size.toNat < 2 ^ 32) :
    c.serializePointer host xs size name =
      (vectorFields host (xs.take size.toNat) name).foldlM (serialize host) c := by
  have hlength : (xs.take size.toNat).length = size.toNat := List.length_take_of_le hsize
  have hofNat : UInt32.ofNat size.toNat = size := UInt32.toNat_inj.1 (by simp)
  unfold serializePointer
  have hcases : size.toNat = 0 ∨ size.toNat = 1 ∨ 1 < size.toNat := by omega
  rcases hcases with hzero | hone | hmany
  · -- nothing is written
    have hz : size = 0 := UInt32.toNat_inj.1 hzero
    rw [if_pos (Or.inr hz), hzero]
    rfl
  · -- a plain value
    have hne : xs ≠ [] := by rintro rfl; simp at hsize; omega
    have hz := pointer_notSkipped (by omega) hsize
    have h1 : ¬(1 : UInt32) < size := by
      rw [UInt32.lt_iff_toNat_lt, hone]
      decide
    obtain ⟨x, zs, rfl⟩ := List.exists_cons_of_ne_nil hne
    rw [if_neg hz, if_neg h1, hone]
    simp only [List.take_succ_cons, List.take_zero, List.map_cons, List.map_nil,
      List.flatten_cons, List.flatten_nil, List.append_nil, vectorFields, valueField, List.foldlM_cons,
      List.foldlM_nil]
    exact (bind_pure _).symm
  · -- an array value
    have hz := pointer_notSkipped (by omega) hsize
    have h1 : (1 : UInt32) < size := by
      rw [UInt32.lt_iff_toNat_lt]
      exact hmany
    have hfit := h hmany
    -- the loop fills the buffer with the elements in network order
    have hfill : writeAll (List.replicate (Scalar.width T * size.toNat) 0) 0
        ((xs.take size.toNat).map (toNetworkByteOrder host)) = .ok (elementsWire (xs.take size.toNat)) := by
      have hflat : ((xs.take size.toNat).map (toNetworkByteOrder host)).flatten =
          elementsWire (xs.take size.toNat) := by
        rw [funext (toNetworkByteOrder_eq host)]
        rfl
      have hlen : ((xs.take size.toNat).map (toNetworkByteOrder host)).flatten.length =
          (List.replicate (Scalar.width T * size.toNat) (0 : UInt8)).length := by
        rw [hflat, elementsWire_length, hlength, List.length_replicate]
      have hwrite := writeAll_zero hlen (show _ + (([] : Bytes)).length < 2 ^ 32 by simp; omega)
      rwa [List.append_nil, List.append_nil, hflat] at hwrite
    have harray := SerializeArrayValue.toSerializedByteArray_eq host (a := arrayValue (xs.take size.toNat))
      (by simp [arrayValue]) (by rw [arrayValue_wire_length, hlength]; exact hfit) (by simp [arrayValue])
    -- more than one element makes the field of an array
    have hfields : vectorFields host (xs.take size.toNat) name = [arrayField (xs.take size.toNat) name] := by
      rcases htake : xs.take size.toNat with _ | ⟨x, _ | ⟨y, zs⟩⟩
      · rw [htake] at hlength; simp at hlength; omega
      · rw [htake] at hlength; simp at hlength; omega
      · rfl
    rw [if_neg hz, if_pos h1, hfill, Checked.ok_bind, hfields]
    simp only [arrayValue, hlength, hofNat] at harray
    dsimp only
    rw [harray, Checked.ok_bind]
    simp only [arrayField, arrayValue, hlength, hofNat, List.foldlM_cons, List.foldlM_nil]
    exact (bind_pure _).symm

/-! ## Well-formedness -/

theorem stringField_wellFormed {s name : Bytes} (hname : name.length < 2 ^ 16) (hs : s.length < 2 ^ 32) :
    (stringField s name).WellFormed := by
  refine ⟨⟨?_, ?_⟩, Or.inl ?_⟩
  · simp only [stringField, UInt16.toNat_ofNat']; omega
  · simp only [stringField, UInt32.toNat_ofNat']; omega
  · exact SerializeField.carriesLength_of_flag rfl

theorem arrayField_wellFormed {xs : List T} {name : Bytes} (hname : name.length < 2 ^ 16)
    (h : 10 + Scalar.width T * xs.length < 2 ^ 32) : (arrayField xs name).WellFormed := by
  refine ⟨⟨?_, ?_⟩, Or.inl ?_⟩
  · simp only [arrayField, UInt16.toNat_ofNat']; omega
  · simp only [arrayField, UInt32.toNat_ofNat', arrayValue_wire_length]; omega
  · exact SerializeField.carriesLength_of_flag rfl

/-! ## Lengths -/

@[simp] theorem valueField_wire_length (x : T) (name : Bytes) :
    (valueField host x name).wire.length = 4 + name.length + Scalar.width T := by
  rw [SerializeField.wire_length, SerializeField.carriesLength_of_none rfl]
  simp [valueField, toByteArray]

@[simp] theorem stringField_wire_length (s name : Bytes) :
    (stringField s name).wire.length = 8 + name.length + s.length := by
  rw [SerializeField.wire_length, SerializeField.carriesLength_of_flag rfl]
  simp [stringField]
  omega

@[simp] theorem arrayField_wire_length (xs : List T) (name : Bytes) :
    (arrayField xs name).wire.length = 18 + name.length + Scalar.width T * xs.length := by
  rw [SerializeField.wire_length, SerializeField.carriesLength_of_flag rfl]
  simp [arrayField, arrayValue_wire_length]
  omega

end Fields

/-! ## Integers -/

section Integers

variable {T : Type} [IntegerType T]

/-- **A vector is serialized** as its fields, of which there is at most one. -/
theorem serializeVector_eq (c : SerializeCodec) {xs : List T} (name : Bytes)
    (h : 10 + Scalar.width T * xs.length < 2 ^ 32) :
    c.serializeVector host xs name = (vectorFields host xs name).foldlM (serialize host) c := by
  have hxs := Nat.le_mul_of_pos_left xs.length (IntegerType.width_pos T)
  have hsize : (UInt32.ofNat xs.length).toNat = xs.length := by
    rw [UInt32.toNat_ofNat']
    exact Nat.mod_eq_of_lt (by omega)
  unfold serializeVector
  rw [serializePointer_eq host c name hsize.le (fun _ => by rwa [hsize]), hsize, List.take_length]

theorem valueField_wellFormed (x : T) {name : Bytes} (hname : name.length < 2 ^ 16) :
    (valueField host x name).WellFormed := by
  have hw := IntegerType.width_le T
  refine ⟨⟨?_, ?_⟩, Or.inr ?_⟩
  · simp only [valueField, UInt16.toNat_ofNat']; omega
  · simp only [valueField, toByteArray, objectBytes_length, UInt32.toNat_ofNat']; omega
  · apply UInt32.toNat_inj.1
    simp only [valueField, toByteArray, objectBytes_length, UInt32.toNat_ofNat',
      IntegerType.length_eq (T := T)]
    omega

/-! ## Reading back -/

@[simp] theorem stringField_type (s name : Bytes) : (stringField s name).type = .string := rfl
@[simp] theorem stringField_value (s name : Bytes) : (stringField s name).value = s := rfl

@[simp] theorem toValue_valueField (x : T) (name : Bytes) :
    toValue T host (valueField host x name) = some x := by
  simp [toValue, valueField]

/-- The elements of an array are read on every host. -/
theorem toArray_arrayField {xs : List T} (name : Bytes) (h : 10 + Scalar.width T * xs.length < 2 ^ 32) :
    toArray T host (arrayField xs name) = .ok xs := by
  have hw := IntegerType.width_le T
  have hxs := Nat.le_mul_of_pos_left xs.length (IntegerType.width_pos T)
  have hcount : (arrayValue xs).elementCount.toNat = xs.length := by
    simp only [arrayValue, UInt32.toNat_ofNat']; omega
  have hparse := SerializeArrayValue.fromSerializedByteArray_fixed host (a := arrayValue xs)
    (l := UInt32.ofNat (Scalar.width T)) [] (SerializeArrayValue.isVariable_of_none rfl) rfl
    (by
      rw [hcount]
      simp only [arrayValue, elementsWire_length, UInt32.toNat_ofNat']
      rw [Nat.mod_eq_of_lt]
      omega)
    (by rw [arrayValue_wire_length]; exact h)
  have hread := readElements_eq host xs [] (by simp; omega)
  rw [List.append_nil] at hparse
  unfold toArray
  simp only [arrayField]
  rw [hparse, Checked.ok_bind]
  dsimp only
  rw [if_neg (by simp [arrayValue]),
    if_neg (by simp [SerializeArrayValue.isVariable_of_none (a := arrayValue xs) rfl]), hcount]
  simpa [arrayValue] using hread

/-- A single value is too short to be an array. -/
theorem toArray_valueField {host' : Endian} (x : T) (name : Bytes) :
    toArray T host' (valueField host x name) = .ok [] := by
  have hw := IntegerType.width_le T
  have hshort : SerializeArrayValue.fromSerializedByteArray host' (toByteArray host x) = failure := by
    unfold SerializeArrayValue.fromSerializedByteArray SerializeArrayValue.minSerializedByteArraySize
    rw [if_pos (by simp [toByteArray]; omega)]
    rfl
  unfold toArray
  simp only [valueField]
  rw [hshort]
  rfl

end Integers

end SerializeCodec

end ProjectTrans
