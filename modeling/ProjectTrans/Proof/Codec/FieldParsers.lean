import ProjectTrans.Proof.Codec.Build
import ProjectTrans.Proof.Codec.Parsers

/-!
# Two parsers of one field

`deserialize` takes the fields of a message apart in a loop of its own, with an index
into the whole message; `from_serialized_byte_array` takes apart one field from the
front of its input and checks every size first. In a vector shorter than `2^32` both
read the same grammar: a complete field, from the place where it lies
(`deserializeField_iff_encodedAt`, `fromSerializedByteArray_iff`).

`fieldParsers_agree_iff`: **the two parsers agree everywhere**, and a field comes back
from its own encoding **exactly when** that encoding is shorter than `2^32`.
-/

namespace ProjectTrans

open Wire

namespace SerializeField

variable {host : Endian} {data : Bytes} {i j : ℕ} {f : SerializeField}

/-- A complete field lies wholly inside `data`, from index `i` on. -/
structure EncodedAt (data : Bytes) (i : ℕ) (f : SerializeField) : Prop where
  wellFormed : f.WellFormed
  liesAt : LiesAt data i f.wire

/-- A field on the wire is its head and its value. -/
theorem wire_eq (f : SerializeField) : f.wire = f.headParts.flatten ++ f.value := by
  unfold wire wireParts headParts
  rw [List.flatten_append, List.flatten_singleton]

/-- The head of a field lies in front of its value. -/
theorem liesAt_wire : LiesAt data i f.wire ↔ LiesAt data i f.headParts.flatten ∧
    LiesAt data (i + f.valueStart) f.value := by
  rw [wire_eq, liesAt_append, headParts_length]

/-- **One field from the front** is read exactly where a complete one lies. -/
theorem fromSerializedByteArray_iff (hlt : data.length < 2 ^ 32) :
    (fromSerializedByteArray host data).run = .ok (some f) ↔ EncodedAt data 0 f := by
  have hsize : u32 data.length = data.length := u32_of_lt hlt
  unfold fromSerializedByteArray minSerializedByteArraySize
  rw [hsize]
  constructor
  · intro h
    by_cases hshort : data.length < 2 + 1 + 1
    · rw [if_pos hshort] at h
      cases h
    rw [if_neg hshort] at h
    dsimp only at h
    rcases readHead_cases host data with hnone | ⟨g, hg⟩
    · rw [Checked.optionBind_none hnone] at h
      cases h
    -- the head is that of `g`, and the value behind it completes it
    rw [Checked.optionBind_eq (readHead_eq host hg)] at h
    dsimp only at h
    rcases Reader.next_cases data g.valueStart g.valueLength.toNat with
      ⟨-, hnext⟩ | ⟨-, -, value, hvalue, hlies, hnext⟩ | ⟨-, -, e, hnext⟩
    · rw [Checked.optionBind_none hnext] at h
      cases h
    · rw [Checked.optionBind_eq hnext] at h
      have hconverted : (if isCopiedType g.type then value
          else convertByteOrderArray host 1 g.valueLength.toNat value) = value :=
        SerializeCodec.convertValue_eq g.type hvalue
      have hf : SerializeField.mk g.nameLength g.name g.type g.flag g.valueLength value = f := by
        rw [← hconverted]
        exact Option.some.inj (Except.ok.inj h)
      subst hf
      refine ⟨⟨⟨hg.name, hvalue.symm⟩, hg.length⟩, ?_⟩
      rw [liesAt_wire, Nat.zero_add]
      exact ⟨hg.liesAt, hlies⟩
    · rw [Checked.optionBind_error hnext] at h
      cases h
  · rintro ⟨hf, hlies⟩
    have hle := liesAt_length hlies
    rw [wire_length] at hle
    rw [liesAt_wire, Nat.zero_add] at hlies
    have hhead : HeadOf data f := ⟨hf.name, hf.length, hlies.1⟩
    have hend := liesAt_length hlies.2
    rw [if_neg (by omega)]
    dsimp only
    rw [Checked.optionBind_eq (readHead_eq host hhead)]
    dsimp only
    rw [hf.value, Checked.optionBind_eq (Reader.next_startAt hlies.2 rfl (by omega))]
    dsimp only
    rw [SerializeCodec.convertValue_eq f.type rfl]
    rfl

/-- **One round of the loop** reads a field exactly where a complete one lies, and moves
behind it. -/
theorem deserializeField_iff_encodedAt (hlt : data.length < 2 ^ 32) :
    SerializeCodec.deserializeField host data i = .ok (f, j) ↔ EncodedAt data i f ∧ j = i + f.wire.length := by
  rw [SerializeCodec.deserializeField_iff]
  constructor
  · rintro ⟨hf, hlaid, rfl⟩
    have hfirst := (SerializeCodec.laidOut_wireParts.1 hlaid).1
    have hi := liesAt_length hfirst
    rw [laidOut_iff_liesAt_of_short hlt _ _ (by omega)] at hlaid
    have hle := liesAt_length hlaid
    exact ⟨⟨hf, hlaid⟩, u32_of_lt (lt_of_le_of_lt hle hlt)⟩
  · rintro ⟨⟨hf, hlies⟩, rfl⟩
    have hle := liesAt_length hlies
    refine ⟨hf, ?_, (u32_of_lt (by omega)).symm⟩
    rw [laidOut_iff_liesAt_of_short hlt _ _ (by omega)]
    exact hlies

/-- A field that lies in a vector shorter than `2^32` has the size it says. -/
theorem EncodedAt.serializedSize_eq (h : EncodedAt data i f) (hlt : data.length < 2 ^ 32) :
    f.serializedSize = f.wire.length := by
  have hle := liesAt_length h.liesAt
  exact SerializeField.serializedSize_eq (by omega)

/-- A place of the whole vector is the front of the suffix from there on. -/
theorem encodedAt_drop : EncodedAt (data.drop i) 0 f ↔ EncodedAt data i f := by
  rcases Nat.lt_or_ge data.length i with hout | hin
  · -- nothing lies behind the end
    have hno : ∀ {data : Bytes} {i : ℕ}, data.length < i + 4 → ¬EncodedAt data i f := by
      intro data i hshort h
      have hle := liesAt_length h.liesAt
      rw [wire_length] at hle
      omega
    have hempty : (data.drop i).length < 0 + 4 := by
      rw [List.length_drop]
      omega
    exact iff_of_false (hno hempty) (hno (by omega))
  · constructor
    · intro h
      exact ⟨h.wellFormed, (liesAt_drop hin).1 h.liesAt⟩
    · intro h
      exact ⟨h.wellFormed, (liesAt_drop hin).2 h.liesAt⟩

/-- The encoder's bytes are read back as the field. -/
def RoundTrips (host host' : Endian) (f : SerializeField) : Prop :=
  ∃ bytes, f.toSerializedByteArray host = .ok bytes ∧ (fromSerializedByteArray host' bytes).run = .ok (some f)

/-- **A well-formed field comes back** from its encoding exactly when that fits 32 bits. -/
theorem roundTrips_iff (host host' : Endian) (hf : f.WellFormed) :
    RoundTrips host host' f ↔ f.wire.length < 2 ^ 32 := by
  constructor
  · rintro ⟨bytes, hbytes, -⟩
    exact toSerializedByteArray_fits hf.toSized hbytes
  · intro hlt
    refine ⟨f.wire, toSerializedByteArray_eq host hf.toSized hlt, ?_⟩
    rw [fromSerializedByteArray_iff hlt]
    exact ⟨hf, [], [], by simp, rfl⟩

/-- A value of `2^32 - 1` bytes, the longest a value length can tell. -/
def longestField : SerializeField :=
  ⟨0, [], .byteArray, .hasValueLength, 4294967295, List.replicate 4294967295 7⟩

end SerializeField

open SerializeField

/-- **The two parsers of a field.**

In every vector shorter than `2^32`, from every index: the loop of `deserialize` reads a
field exactly when `from_serialized_byte_array` reads the same field from the suffix, and
then it moves on by `serialized_size`; where a complete field lies, both read it. A
well-formed field comes back from its encoding exactly when that is shorter than `2^32`. -/
theorem fieldParsers_agree_iff (host host' : Endian) :
    (∀ (data : Bytes) (i : ℕ), data.length < 2 ^ 32 →
      (∀ (f : SerializeField) (j : ℕ), SerializeCodec.deserializeField host data i = .ok (f, j) ↔
        (fromSerializedByteArray host (data.drop i)).run = .ok (some f) ∧ j = i + f.serializedSize) ∧
      ∀ f : SerializeField, EncodedAt data i f →
        SerializeCodec.deserializeField host data i = .ok (f, i + f.serializedSize)) ∧
    ∀ f : SerializeField, f.WellFormed → (RoundTrips host host' f ↔ f.wire.length < 2 ^ 32) := by
  refine ⟨?_, fun f hf => roundTrips_iff host host' hf⟩
  intro data i hlt
  have hdrop : (data.drop i).length < 2 ^ 32 := by
    rw [List.length_drop]
    omega
  constructor
  · intro f j
    rw [deserializeField_iff_encodedAt hlt, fromSerializedByteArray_iff hdrop, encodedAt_drop]
    refine and_congr_right fun h => ?_
    rw [h.serializedSize_eq hlt]
  · intro f h
    rw [deserializeField_iff_encodedAt hlt]
    exact ⟨h, by rw [h.serializedSize_eq hlt]⟩

/-- With its lengths the longest field has more than `2^32` bytes, which no 32-bit size counts. -/
theorem longestField_notRead : longestField.WellFormed ∧ ¬RoundTrips .little .little longestField := by
  have hvalue : longestField.value.length = 4294967295 := List.length_replicate
  have hlength : longestField.carriesLength = true := carriesLength_of_flag rfl
  have hf : longestField.WellFormed := ⟨⟨rfl, hvalue.symm⟩, Or.inl hlength⟩
  refine ⟨hf, ?_⟩
  rw [roundTrips_iff .little .little hf, wire_length, hvalue]
  omega

end ProjectTrans
