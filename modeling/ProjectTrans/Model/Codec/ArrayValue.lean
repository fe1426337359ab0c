import ProjectTrans.Model.Codec.Field

/-!
# Array values (`network/codec/serialize_array_value`)

The value of an `Array` field: an element type, a count, a flag, the element
lengths and the elements. `toArray` reads the elements as values of a type,
`toArrayBytes` as byte vectors; `readElements_eq`: what was written is read back.
-/

namespace ProjectTrans

open Wire

/-- `SerializeArrayFlag`, a byte. -/
structure SerializeArrayFlag where
  bits : UInt8
  deriving DecidableEq, Repr

def SerializeArrayFlag.none : SerializeArrayFlag := ⟨0⟩
def SerializeArrayFlag.isElementLengthVariable : SerializeArrayFlag := ⟨1⟩

/-- `SerializeArrayValue`. -/
structure SerializeArrayValue where
  elementType : DataType
  elementCount : UInt32
  flag : SerializeArrayFlag
  elementValueLength : List UInt32
  elementValue : Bytes
  deriving DecidableEq, Repr

namespace SerializeArrayValue

/-- `min_serialized_byte_array_size`. -/
def minSerializedByteArraySize : ℕ := 1 + 4 + 1 + 4

/-- `serialized_size`. -/
def serializedSize (a : SerializeArrayValue) : ℕ :=
  u32 (1 + 4 + 1 + 4 * a.elementValueLength.length + a.elementValue.length)

/-- The elements have a length each. -/
def isVariable (a : SerializeArrayValue) : Bool :=
  hasFlag a.flag.bits SerializeArrayFlag.isElementLengthVariable.bits

/-- `to_serialized_byte_array`. More than one length makes the array variable; an
array without any leaves the place of the length as it is. -/
def toSerializedByteArray (host : Endian) (a : SerializeArrayValue) : Checked Bytes := do
  let isVariableArray := 1 < a.elementValueLength.length
  if isVariableArray ∧ a.elementCount.toNat ≠ a.elementValueLength.length then
    return []
  let c : Cursor := ⟨List.replicate a.serializedSize 0, 0, 0⟩
  let c ← c.put 1 (toNetworkByteOrder host a.elementType.code)
  let c ← c.put 4 (toNetworkByteOrder host a.elementCount)
  let c ← c.put 1 (toNetworkByteOrder host a.flag.bits)
  let c ←
    if isVariableArray then
      a.elementValueLength.foldlM (fun (c : Cursor) l => c.put 4 (toNetworkByteOrder host l)) c
    else
      match a.elementValueLength with
      | [] => pure (c.skip 4)
      | l :: _ => c.put 4 (toNetworkByteOrder host l)
  let c ← c.put a.elementValue.length a.elementValue
  return c.data

theorem isVariable_of_none {a : SerializeArrayValue} (h : a.flag = .none) : a.isVariable = false := by
  unfold isVariable
  rw [h]
  decide

/-- The loop over the element lengths: `n` more of them, behind those in `ls`,
which add up to `valueLength`. -/
def readElementLengths (host : Endian) (data : Bytes) :
    ℕ → List UInt32 → ℕ → Reader → OptionT Checked (List UInt32 × ℕ × Reader)
  | 0, ls, valueLength, r => pure (ls, valueLength, r)
  | n + 1, ls, valueLength, r => do
    let (p, r) ← r.next data 4
    let l := toLocalByteOrder UInt32 host p
    readElementLengths host data n (ls ++ [l]) (u32 (valueLength + l.toNat)) r

/-- `from_serialized_byte_array`. -/
def fromSerializedByteArray (host : Endian) (data : Bytes) : OptionT Checked SerializeArrayValue := do
  if data.length < minSerializedByteArraySize then
    failure
  let (p, r) ← (Reader.startAt 0).next data 1
  let elementType : DataType := ⟨toLocalByteOrder UInt8 host p⟩
  let (p, r) ← r.next data 4
  let elementCount := toLocalByteOrder UInt32 host p
  let (p, r) ← r.next data 1
  let flag : SerializeArrayFlag := ⟨toLocalByteOrder UInt8 host p⟩
  let (ls, valueLength, r) ←
    if hasFlag flag.bits SerializeArrayFlag.isElementLengthVariable.bits then
      readElementLengths host data elementCount.toNat [] 0 r
    else do
      let (p, r) ← r.next data 4
      let l := toLocalByteOrder UInt32 host p
      pure ([l], u32 (l.toNat * elementCount.toNat), r)
  let (elementValue, _) ← r.next data valueLength
  return ⟨elementType, elementCount, flag, ls, elementValue⟩

/-- The parts of an array value on the wire, in order. -/
def wireParts (a : SerializeArrayValue) : List Bytes :=
  [beBytes 1 a.elementType.code.toNat, beBytes 4 a.elementCount.toNat, beBytes 1 a.flag.bits.toNat] ++
    a.elementValueLength.map (fun l => beBytes 4 l.toNat) ++ [a.elementValue]

/-- An array value as it stands on the wire. -/
def wire (a : SerializeArrayValue) : Bytes := a.wireParts.flatten

theorem wire_length (a : SerializeArrayValue) :
    a.wire.length = 6 + 4 * a.elementValueLength.length + a.elementValue.length := by
  have h : ((a.elementValueLength.map (fun l => beBytes 4 l.toNat)).flatten).length =
      4 * a.elementValueLength.length := by
    rw [List.length_flatten, List.map_map]
    induction a.elementValueLength with
    | nil => rfl
    | cons l ls ih => simp [ih, Nat.mul_add, Nat.add_comm]
  unfold wire wireParts
  simp [h]
  omega

theorem serializedSize_eq {a : SerializeArrayValue} (h : a.wire.length < 2 ^ 32) :
    a.serializedSize = a.wire.length := by
  rw [wire_length] at h ⊢
  unfold serializedSize
  rw [u32_of_lt (by omega)]

/-- **The encoder writes the wire form** when there is a length for every element,
or one for all. -/
theorem toSerializedByteArray_eq (host : Endian) {a : SerializeArrayValue}
    (hl : a.elementValueLength ≠ []) (h : a.wire.length < 2 ^ 32)
    (hv : 1 < a.elementValueLength.length → a.elementCount.toNat = a.elementValueLength.length) :
    a.toSerializedByteArray host = .ok a.wire := by
  have hfill := Cursor.fill_eq a.wireParts rfl h
  unfold toSerializedByteArray
  rw [serializedSize_eq h]
  rcases hls : a.elementValueLength with _ | ⟨l, _ | ⟨l', ls⟩⟩
  · exact absurd hls hl
  · simpa [wire, wireParts, hls, toNetworkByteOrder_eq] using hfill
  · have hcount := hv (by simp [hls])
    simpa [wire, wireParts, hls, hcount, toNetworkByteOrder_eq, List.foldlM_append, List.foldlM_map] using hfill

theorem serializedSize_lt (a : SerializeArrayValue) : a.serializedSize < 2 ^ 32 := u32_lt _

/-- An array value that does not fit 32 bits is not encoded. -/
theorem toSerializedByteArray_fits {host : Endian} {a : SerializeArrayValue} {bs : Bytes}
    (hl : a.elementValueLength ≠ [])
    (hv : 1 < a.elementValueLength.length → a.elementCount.toNat = a.elementValueLength.length)
    (h : a.toSerializedByteArray host = .ok bs) : a.wire.length < 2 ^ 32 := by
  have hfit := @Cursor.fill_fits _ a.wireParts bs a.serializedSize_lt
  apply hfit
  unfold toSerializedByteArray at h
  rcases hls : a.elementValueLength with _ | ⟨l, _ | ⟨l', ls⟩⟩
  · exact absurd hls hl
  · simpa [wireParts, hls, toNetworkByteOrder_eq] using h
  · have hcount := hv (by simp [hls])
    simpa [wireParts, hls, hcount, toNetworkByteOrder_eq, List.foldlM_append, List.foldlM_map] using h

/-- **A fixed-length array is read back**, whatever follows it. -/
theorem fromSerializedByteArray_fixed (host : Endian) {a : SerializeArrayValue} {l : UInt32} (rest : Bytes)
    (hfix : a.isVariable = false) (hl : a.elementValueLength = [l])
    (hv : a.elementValue.length = l.toNat * a.elementCount.toNat)
    (h : a.wire.length < 2 ^ 32) : (fromSerializedByteArray host (a.wire ++ rest)).run = .ok (some a) := by
  have hlies : LiesAt (a.wire ++ rest) 0 a.wire := ⟨[], rest, rfl, rfl⟩
  have hlen : a.wire.length = 10 + a.elementValue.length := by rw [wire_length, hl]; rfl
  set data := a.wire ++ rest with hdata
  simp only [wire, wireParts, hl, List.map_cons, List.map_nil, List.flatten_append, List.flatten_cons,
    List.flatten_nil, List.append_nil, liesAt_append, Endian.encode_length, List.length_append] at hlies
  obtain ⟨⟨⟨htype, hcount, hflag⟩, hlength⟩, hvalue⟩ := hlies
  have e1 := toLocalByteOrder_beBytes host a.elementType.code
  have e2 := toLocalByteOrder_beBytes host a.elementCount
  have e3 := toLocalByteOrder_beBytes host a.flag.bits
  have e4 := toLocalByteOrder_beBytes host l
  simp only [Scalar.width_uInt8, Scalar.width_uInt32, Scalar.bits_uInt8, Scalar.bits_uInt32] at e1 e2 e3 e4
  have hmul : u32 (l.toNat * a.elementCount.toNat) = a.elementValue.length := by
    rw [← hv, u32_of_lt (by omega)]
  have hflag' : hasFlag a.flag.bits SerializeArrayFlag.isElementLengthVariable.bits = false := hfix
  unfold fromSerializedByteArray
  rw [if_neg (by unfold minSerializedByteArraySize; rw [hdata, List.length_append]; omega)]
  simp only [pure_bind]
  rw [Checked.optionBind_eq (Reader.next_startAt htype (by simp) (by simp))]
  dsimp only
  rw [Checked.optionBind_eq (Reader.next_startAt hcount (by simp) (by simp))]
  dsimp only
  rw [Checked.optionBind_eq (Reader.next_startAt hflag (by simp) (by simp))]
  simp only [e1, e2, e3, hflag', Bool.false_eq_true, if_false]
  rw [Checked.optionBind_eq (Reader.next_startAt hlength (by simp) (by simp))]
  simp only [e4, hmul]
  rw [Checked.optionBind_eq (Reader.next_startAt hvalue rfl (by simp; omega)), ← hl]
  rfl

end SerializeArrayValue

/-! ## Typed vectors -/

variable {T : Type} [Scalar T]

/-- The loop of `to_array` over fixed-length elements: `n` of them from `index` on. -/
def readElements (T : Type) [Scalar T] (host : Endian) (value : Bytes) : ℕ → ℕ → Checked (List T)
  | 0, _ => .ok []
  | n + 1, index => do
    let x ← toLocalByteOrderAt T host value index
    let xs ← readElements T host value n (u32 (index + Scalar.width T))
    return x :: xs

/-- `to_array` for a fixed-size type. -/
def toArray (T : Type) [Scalar T] [HasDataType T] (host : Endian) (field : SerializeField) :
    Checked (List T) := do
  match ← (SerializeArrayValue.fromSerializedByteArray host field.value).run with
  | none => return []
  | some a =>
    if a.elementType ≠ getDataType T then
      return []
    else if a.isVariable then
      return []
    else
      readElements T host a.elementValue a.elementCount.toNat 0

/-- The loop of `to_array` over byte vectors: one of each length from `index` on. -/
def readByteElements (value : Bytes) : List UInt32 → ℕ → Checked (List Bytes)
  | [], _ => .ok []
  | l :: ls, index => do
    let x ← readAt value index l.toNat
    let xs ← readByteElements value ls (u32 (index + l.toNat))
    return x :: xs

/-- `to_array` for `std::vector<uint8_t>`. For an array of fixed-length elements the
overload of `to_local_byte_order` that takes any value is left: it copies the address of
an element over the vector object in the result. -/
def toArrayBytes (host : Endian) (field : SerializeField) : Checked (List Bytes) := do
  match ← (SerializeArrayValue.fromSerializedByteArray host field.value).run with
  | none => return []
  | some a =>
    if a.elementType ≠ .byteArray then
      return []
    else if a.isVariable then
      if a.elementCount.toNat ≠ a.elementValueLength.length then
        return []
      else
        readByteElements a.elementValue a.elementValueLength 0
    else if a.elementCount = 0 then
      return []
    else
      .error .brokenObject

/-- The elements as they stand on the wire. -/
def elementsWire (xs : List T) : Bytes :=
  (xs.map fun x => beBytes (Scalar.width T) (Scalar.bits x)).flatten

@[simp] theorem elementsWire_length (xs : List T) :
    (elementsWire xs).length = Scalar.width T * xs.length := by
  simp [elementsWire, List.length_flatten, Function.comp_def, Nat.mul_comm]

/-- As many elements are read as were asked for. -/
theorem readElements_length {host : Endian} {value : Bytes} (n : ℕ) : ∀ {index : ℕ} {xs : List T},
    readElements T host value n index = .ok xs → xs.length = n := by
  induction n with
  | zero => intro index xs h; rw [← Except.ok.inj h]; rfl
  | succ n ih =>
    intro index xs h
    obtain ⟨x, -, h⟩ := Checked.bind_eq_ok.1 h
    obtain ⟨ys, hys, h⟩ := Checked.bind_eq_ok.1 h
    rw [← Except.ok.inj h, List.length_cons, ih hys]

theorem readByteElements_length {value : Bytes} (ls : List UInt32) : ∀ {index : ℕ} {xs : List Bytes},
    readByteElements value ls index = .ok xs → xs.length = ls.length := by
  induction ls with
  | nil => intro index xs h; rw [← Except.ok.inj h]; rfl
  | cons l ls ih =>
    intro index xs h
    obtain ⟨x, -, h⟩ := Checked.bind_eq_ok.1 h
    obtain ⟨ys, hys, h⟩ := Checked.bind_eq_ok.1 h
    rw [← Except.ok.inj h, List.length_cons, List.length_cons, ih hys]

/-- **The elements are read back** from where they were written. -/
theorem readElements_eq (host : Endian) (xs : List T) : ∀ (pre : Bytes),
    (pre ++ elementsWire xs).length < 2 ^ 32 →
    readElements T host (pre ++ elementsWire xs) xs.length pre.length = .ok xs := by
  induction xs with
  | nil => intro pre _; rfl
  | cons x xs ih =>
    intro pre hlt
    set w := beBytes (Scalar.width T) (Scalar.bits x) with hw
    have hsplit : pre ++ elementsWire (x :: xs) = (pre ++ w) ++ elementsWire xs := by
      simp [elementsWire, hw]
    have hx : toLocalByteOrderAt T host (pre ++ elementsWire (x :: xs)) pre.length = .ok x :=
      toLocalByteOrderAt_iff.2 ⟨pre, elementsWire xs, hsplit, rfl⟩
    have hpre : u32 (pre.length + Scalar.width T) = (pre ++ w).length := by
      rw [List.length_append, hw, Endian.encode_length, u32_of_lt]
      rw [List.length_append, elementsWire_length, List.length_cons, Nat.mul_succ] at hlt; omega
    rw [List.length_cons, readElements, hx, Checked.ok_bind, hpre, hsplit, ih _ (by rwa [← hsplit])]
    rfl

end ProjectTrans
