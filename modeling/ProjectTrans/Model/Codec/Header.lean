import ProjectTrans.Model.Common.ByteOrder

/-!
# Message header (`network/codec/serialize_header`)

The sixteen bytes in front of every message. `fromSerializedByteArray_iff`: a
header is read exactly where its wire bytes stand.
-/

namespace ProjectTrans

open Wire

/-- `has_flag`: every bit of `src` is set in `dest`. -/
def hasFlag (dest src : UInt8) : Bool := (src &&& dest) == src

/-- `SerializeFlag`, a byte. -/
structure SerializeFlag where
  bits : UInt8
  deriving DecidableEq, Repr

def SerializeFlag.none : SerializeFlag := ⟨0⟩

/-- `SerializeHeader`. -/
structure SerializeHeader where
  magicNumber : UInt32 := 0x66666666
  version : UInt8 := 1
  messageLength : UInt32
  flag : SerializeFlag
  checksum : UInt32
  fieldCount : UInt16
  deriving DecidableEq, Repr

namespace SerializeHeader

/-- `min_serialized_byte_array_size`: the widths of the six members. -/
def minSerializedByteArraySize : ℕ := 4 + 1 + 4 + 1 + 4 + 2

/-- `from_serialized_byte_array`. -/
def fromSerializedByteArray (host : Endian) (data : Bytes) : Checked (Option SerializeHeader) := do
  if data.length < minSerializedByteArraySize then
    return none
  let magicNumber ← toLocalByteOrderAt UInt32 host data 0
  let version ← toLocalByteOrderAt UInt8 host data 4
  let messageLength ← toLocalByteOrderAt UInt32 host data 5
  let flag ← toLocalByteOrderAt UInt8 host data 9
  let checksum ← toLocalByteOrderAt UInt32 host data 10
  let fieldCount ← toLocalByteOrderAt UInt16 host data 14
  return some ⟨magicNumber, version, messageLength, ⟨flag⟩, checksum, fieldCount⟩

/-- The header as it stands on the wire. -/
def wire (h : SerializeHeader) : Bytes :=
  beBytes 4 h.magicNumber.toNat ++ beBytes 1 h.version.toNat ++ beBytes 4 h.messageLength.toNat ++
    beBytes 1 h.flag.bits.toNat ++ beBytes 4 h.checksum.toNat ++ beBytes 2 h.fieldCount.toNat

@[simp] theorem wire_length (h : SerializeHeader) : h.wire.length = 16 := by simp [wire]

/-- Each member lies behind the ones before it. -/
theorem liesAt_wire {data : Bytes} {h : SerializeHeader} :
    LiesAt data 0 h.wire ↔
      LiesAt data 0 (beBytes 4 h.magicNumber.toNat) ∧ LiesAt data 4 (beBytes 1 h.version.toNat) ∧
      LiesAt data 5 (beBytes 4 h.messageLength.toNat) ∧ LiesAt data 9 (beBytes 1 h.flag.bits.toNat) ∧
      LiesAt data 10 (beBytes 4 h.checksum.toNat) ∧ LiesAt data 14 (beBytes 2 h.fieldCount.toNat) := by
  simp [wire, liesAt_append]

/-- **A header is read** exactly where its wire bytes stand. -/
theorem fromSerializedByteArray_iff {host : Endian} {data : Bytes} {h : SerializeHeader} :
    fromSerializedByteArray host data = .ok (some h) ↔ LiesAt data 0 h.wire := by
  unfold fromSerializedByteArray
  by_cases hl : data.length < minSerializedByteArraySize
  · rw [if_pos hl]
    constructor
    · intro hc; simp at hc
    · intro hw
      have := liesAt_length hw
      rw [wire_length] at this
      unfold minSerializedByteArraySize at hl; omega
  rw [if_neg hl, liesAt_wire]
  simp only [Checked.bind_eq_ok, toLocalByteOrderAt_iff, Checked.pure_eq, Except.ok.injEq, Option.some.injEq]
  constructor
  · rintro ⟨_, h0, _, h1, _, h2, _, h3, _, h4, _, h5, rfl⟩
    exact ⟨h0, h1, h2, h3, h4, h5⟩
  · rintro ⟨h0, h1, h2, h3, h4, h5⟩
    exact ⟨_, h0, _, h1, _, h2, _, h3, _, h4, _, h5, rfl⟩

/-- Reading a header never leaves the vector: too short a vector has none. -/
theorem fromSerializedByteArray_total (host : Endian) (data : Bytes) :
    (data.length < 16 ∧ fromSerializedByteArray host data = .ok none) ∨
      (16 ≤ data.length ∧ ∃ h, fromSerializedByteArray host data = .ok (some h)) := by
  rcases Nat.lt_or_ge data.length 16 with hl | hl
  · exact Or.inl ⟨hl, if_pos hl⟩
  refine Or.inr ⟨hl, ?_⟩
  have read : ∀ (T : Type) [Scalar T] (i : ℕ), i + Scalar.width T ≤ 16 →
      ∃ x : T, toLocalByteOrderAt T host data i = .ok x := by
    intro T _ i hi
    unfold toLocalByteOrderAt
    rw [readAt_ok (by omega)]
    exact ⟨_, rfl⟩
  obtain ⟨a, ha⟩ := read UInt32 0 (by decide)
  obtain ⟨b, hb⟩ := read UInt8 4 (by decide)
  obtain ⟨c, hc⟩ := read UInt32 5 (by decide)
  obtain ⟨d, hd⟩ := read UInt8 9 (by decide)
  obtain ⟨e, he⟩ := read UInt32 10 (by decide)
  obtain ⟨f, hf⟩ := read UInt16 14 (by decide)
  unfold fromSerializedByteArray
  rw [if_neg (by unfold minSerializedByteArraySize; omega), ha, hb, hc, hd, he, hf]
  exact ⟨_, rfl⟩

end SerializeHeader

end ProjectTrans
