import ProjectTrans.Proof.Codec.Parsers

/-!
# Array values there and back

The encoder takes an array for variable when it has more than one length, the decoder
when its flag says so. For a well-formed value the two part only at the counts 0 and 1
of a variable array, and there the bytes are the same: with no length the encoder leaves
four bytes nobody reads (`toSerializedByteArray_empty`), with one it writes that one.

`arrayValue_roundTrip_iff`: **a well-formed array value comes back exactly when** its
encoding is shorter than `2^32`.
-/

namespace ProjectTrans

open Wire

namespace SerializeArrayValue

variable {host host' : Endian} {data : Bytes} {a : SerializeArrayValue}

/-- One length for all elements, or a length for each, and as many bytes as they say. -/
structure WellFormed (a : SerializeArrayValue) : Prop where
  fixed : a.isVariable = false →
    ∃ l : UInt32, a.elementValueLength = [l] ∧ a.elementValue.length = l.toNat * a.elementCount.toNat
  perElement : a.isVariable = true →
    a.elementValueLength.length = a.elementCount.toNat ∧ total a.elementValueLength = a.elementValue.length

/-- The lengths on the wire. -/
def lengthsWire (ls : List UInt32) : Bytes := (ls.map fun l => beBytes 4 l.toNat).flatten

theorem lengthsWire_length (ls : List UInt32) : (lengthsWire ls).length = 4 * ls.length := by
  induction ls with
  | nil => rfl
  | cons l ls ih =>
    have hcons : lengthsWire (l :: ls) = beBytes 4 l.toNat ++ lengthsWire ls := rfl
    rw [hcons, List.length_append, ih, Endian.encode_length, List.length_cons]
    omega

/-! ## Decoding -/

/-- **The lengths are read** from where they lie, and added up. -/
theorem readElementLengths_eq (host : Endian) (ls : List UInt32) : ∀ {i v : ℕ} (before : List UInt32),
    LiesAt data i (lengthsWire ls) → i + 4 * ls.length < 2 ^ 32 → v < 2 ^ 32 →
    (readElementLengths host data ls.length before v (Reader.startAt i)).run =
      .ok (some (before ++ ls, u32 (v + total ls), Reader.startAt (i + 4 * ls.length))) := by
  induction ls with
  | nil =>
    intro i v before _ _ hv
    have hsum : u32 (v + total []) = v := u32_of_lt hv
    rw [hsum, List.append_nil]
    rfl
  | cons l ls ih =>
    intro i v before hlies hlt _
    rw [List.length_cons] at hlt
    have hcons : lengthsWire (l :: ls) = beBytes 4 l.toNat ++ lengthsWire ls := rfl
    rw [hcons, liesAt_append, Endian.encode_length] at hlies
    obtain ⟨hfirst, hrest⟩ := hlies
    have hvalue := toLocalByteOrder_beBytes host l
    simp only [Scalar.width_uInt32, Scalar.bits_uInt32] at hvalue
    -- the next length is read, and added to the sum
    have hnext := Reader.next_startAt hfirst (by simp) (by omega : i + 4 < 2 ^ 32)
    rw [List.length_cons, readElementLengths, Checked.optionBind_eq hnext]
    dsimp only
    rw [hvalue, ih _ hrest (by omega) (u32_lt _), total_cons, u32_add, List.append_assoc]
    have hplace : i + 4 + 4 * ls.length = i + 4 * (ls.length + 1) := by omega
    rw [hplace, Nat.add_assoc]
    rfl

/-- A variable array is its head, its lengths and its elements. -/
theorem wire_eq (a : SerializeArrayValue) :
    a.wire = beBytes 1 a.elementType.code.toNat ++ (beBytes 4 a.elementCount.toNat ++
      (beBytes 1 a.flag.bits.toNat ++ (lengthsWire a.elementValueLength ++ a.elementValue))) := by
  unfold wire wireParts lengthsWire
  simp

/-- **A variable array is read back**, whatever follows it, once there are ten bytes. -/
theorem fromSerializedByteArray_variable (rest : Bytes) (hvariable : a.isVariable = true)
    (hcount : a.elementValueLength.length = a.elementCount.toNat)
    (hsum : total a.elementValueLength = a.elementValue.length) (hlt : a.wire.length < 2 ^ 32)
    (hmin : 10 ≤ (a.wire ++ rest).length) :
    (fromSerializedByteArray host (a.wire ++ rest)).run = .ok (some a) := by
  have hlies : LiesAt (a.wire ++ rest) 0 a.wire := ⟨[], rest, rfl, rfl⟩
  rw [wire_length] at hlt
  generalize a.wire ++ rest = data at hlies hmin ⊢
  rw [wire_eq] at hlies
  simp only [liesAt_append, Endian.encode_length, lengthsWire_length] at hlies
  obtain ⟨htype, hcountAt, hflag, hlengths, helements⟩ := hlies
  have hhead : HeadOf data a.elementType a.elementCount a.flag := ⟨htype, hcountAt, hflag⟩
  have hread := readElementLengths_eq host a.elementValueLength [] hlengths (by omega) (by norm_num : 0 < 2 ^ 32)
  rw [List.nil_append, hsum, u32_of_lt (by omega), Nat.zero_add a.elementValue.length] at hread
  have hnext := Reader.next_startAt helements rfl (by omega)
  rw [fromSerializedByteArray_eq host hhead hmin]
  unfold isVariable at hvariable
  rw [if_pos hvariable, ← hcount, Checked.optionBind_eq hread]
  unfold readElementValue
  dsimp only
  rw [Checked.optionBind_eq hnext]
  rfl

/-- **A well-formed value is read back** from its wire form, whatever follows it. -/
theorem WellFormed.read (h : a.WellFormed) (rest : Bytes) (hlt : a.wire.length < 2 ^ 32)
    (hmin : 10 ≤ (a.wire ++ rest).length) :
    (fromSerializedByteArray host (a.wire ++ rest)).run = .ok (some a) := by
  cases hvariable : a.isVariable with
  | false =>
    obtain ⟨l, hl, hsize⟩ := h.fixed hvariable
    exact fromSerializedByteArray_fixed host rest hvariable hl hsize hlt
  | true =>
    obtain ⟨hcount, hsum⟩ := h.perElement hvariable
    exact fromSerializedByteArray_variable rest hvariable hcount hsum hlt hmin

/-! ## Encoding -/

/-- The encoder's test passes: with more than one length there is one for each element. -/
theorem WellFormed.count_eq (h : a.WellFormed) :
    1 < a.elementValueLength.length → a.elementCount.toNat = a.elementValueLength.length := by
  intro hmany
  cases hvariable : a.isVariable with
  | false =>
    obtain ⟨l, hl, -⟩ := h.fixed hvariable
    rw [hl, List.length_singleton] at hmany
    omega
  | true => exact (h.perElement hvariable).1.symm

/-- Without lengths there is no element. -/
theorem WellFormed.elementValue_eq_nil (h : a.WellFormed) (hl : a.elementValueLength = []) :
    a.elementValue = [] := by
  cases hvariable : a.isVariable with
  | false =>
    obtain ⟨l, hl', -⟩ := h.fixed hvariable
    rw [hl'] at hl
    cases hl
  | true =>
    have hsum := (h.perElement hvariable).2
    rw [hl] at hsum
    exact List.eq_nil_of_length_eq_zero hsum.symm

/-- **An array of no lengths and no elements** is encoded as its head and four zeros. -/
theorem toSerializedByteArray_empty (hl : a.elementValueLength = []) (he : a.elementValue = []) :
    a.toSerializedByteArray host = .ok (a.wire ++ List.replicate 4 0) := by
  have hsize : a.serializedSize = 6 := by
    unfold serializedSize
    rw [hl, he]
    rfl
  have hwire : a.wire = [beBytes 1 a.elementType.code.toNat, beBytes 4 a.elementCount.toNat,
      beBytes 1 a.flag.bits.toNat].flatten := by
    simp [wire, wireParts, hl, he]
  have hlength : a.wire.length = 6 := by
    rw [wire_length, hl, he]
    rfl
  -- the three parts of the head fill the six bytes, and the place of the length grows them to ten
  have hstart : Cursor.Wrote ⟨List.replicate 6 0, 0, 0⟩ [] 6 := ⟨⟨_, rfl⟩, by simp, rfl, rfl⟩
  obtain ⟨c, hputs, hc⟩ := Cursor.puts_wrote (by norm_num) [beBytes 1 a.elementType.code.toNat,
    beBytes 4 a.elementCount.toNat, beBytes 1 a.flag.bits.toNat] hstart (by simp)
  rw [← hwire, List.nil_append] at hc
  have hskip : (c.skip 4).Wrote (a.wire ++ List.replicate 4 0) 10 := Cursor.skip_wrote hc hlength (by norm_num)
  have hten : (a.wire ++ List.replicate 4 0).length = 10 := by
    rw [List.length_append, hlength]
    rfl
  obtain ⟨c', hput, hc'⟩ := Cursor.put_wrote (p := []) hskip (by simpa using hten.le) (by norm_num)
  rw [List.append_nil] at hc'
  have hdata := hc'.data_eq hten
  rw [List.length_nil] at hput
  -- the empty value is put last
  have hend :
      ([beBytes 1 a.elementType.code.toNat, beBytes 4 a.elementCount.toNat, beBytes 1 a.flag.bits.toNat].foldlM
      (fun (c : Cursor) p => c.put p.length p) ⟨List.replicate 6 0, 0, 0⟩ >>= fun c =>
        (c.skip 4).put 0 [] >>= fun c => pure c.data) = .ok (a.wire ++ List.replicate 4 0) := by
    rw [hputs, Checked.ok_bind, hput, Checked.ok_bind, hdata]
    rfl
  unfold toSerializedByteArray
  rw [hsize, hl, he]
  simpa [toNetworkByteOrder_eq] using hend

/-! ## There and back -/

/-- The encoder's bytes are read back as the array value. -/
def RoundTrips (host host' : Endian) (a : SerializeArrayValue) : Prop :=
  ∃ bytes, a.toSerializedByteArray host = .ok bytes ∧ (fromSerializedByteArray host' bytes).run = .ok (some a)

/-- **A well-formed array value comes back exactly when** its encoding is shorter than `2^32`. -/
theorem arrayValue_roundTrip_iff (host host' : Endian) (h : a.WellFormed) :
    RoundTrips host host' a ↔ a.wire.length < 2 ^ 32 := by
  by_cases hl : a.elementValueLength = []
  · -- the boundary count 0 of a variable array
    have he := h.elementValue_eq_nil hl
    have hlength : a.wire.length = 6 := by
      rw [wire_length, hl, he]
      rfl
    refine iff_of_true ⟨_, toSerializedByteArray_empty hl he, h.read _ ?_ ?_⟩ ?_
    · omega
    · rw [List.length_append, hlength, List.length_replicate]
    · omega
  · constructor
    · rintro ⟨bytes, hbytes, -⟩
      exact toSerializedByteArray_fits hl h.count_eq hbytes
    · intro hlt
      have hpos := List.length_pos_of_ne_nil hl
      have hread : (fromSerializedByteArray host' (a.wire ++ [])).run = .ok (some a) :=
        h.read [] hlt (by rw [List.append_nil, wire_length]; omega)
      rw [List.append_nil] at hread
      exact ⟨a.wire, toSerializedByteArray_eq host hl hlt h.count_eq, hread⟩

/-- Three byte vectors of one, no and two bytes. -/
theorem arrayValue_roundTrip_iff_three :
    RoundTrips .little .big ⟨.byteArray, 3, .isElementLengthVariable, [1, 0, 2], [7, 8, 9]⟩ ↔
      (wire ⟨.byteArray, 3, .isElementLengthVariable, [1, 0, 2], [7, 8, 9]⟩).length < 2 ^ 32 :=
  arrayValue_roundTrip_iff .little .big ⟨fun hfixed => absurd hfixed (by decide), fun _ => by decide⟩

/-- `2^32 - 1` elements of one byte. -/
def longestArray : SerializeArrayValue :=
  ⟨.uInt8, 4294967295, .none, [1], List.replicate 4294967295 7⟩

/-- With its head the longest array has more than `2^32` bytes, which no 32-bit size counts. -/
theorem longestArray_notRead :
    longestArray.WellFormed ∧ longestArray.elementValue.length < 2 ^ 32 ∧
      ¬RoundTrips .little .little longestArray := by
  have hsize : longestArray.elementValue.length = 4294967295 := List.length_replicate
  have hfixed : longestArray.isVariable = false := isVariable_of_none rfl
  have hwellFormed : longestArray.WellFormed := by
    refine ⟨fun _ => ⟨1, rfl, hsize.trans ?_⟩, fun hvariable => ?_⟩
    · rfl
    · rw [hfixed] at hvariable
      cases hvariable
  have hlong : ¬longestArray.wire.length < 2 ^ 32 := by
    rw [wire_length, hsize]
    omega
  have hne : longestArray.elementValueLength ≠ [] := by
    unfold longestArray
    exact List.cons_ne_nil _ _
  refine ⟨hwellFormed, by rw [hsize]; norm_num, ?_⟩
  rintro ⟨bytes, hbytes, -⟩
  exact hlong (toSerializedByteArray_fits hne hwellFormed.count_eq hbytes)

end SerializeArrayValue

end ProjectTrans
