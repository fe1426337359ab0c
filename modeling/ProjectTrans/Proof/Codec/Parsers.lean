import ProjectTrans.Proof.Codec.Deserialize

/-!
# The parsers of one field and of one array value

`from_serialized_byte_array` counts the bytes it needs in 32 bits and compares the
count with the size of the input. In front of the value the count cannot wrap; with the
declared value length added it can, and then the test passes and the value is read from
outside. `parsers_inside_iff`: **nothing is read from outside, and what comes out has the
sizes it declares, exactly when** wherever the wrapped count passes the test, the real
sizes do.
-/

namespace ProjectTrans

open Wire

variable (host : Endian) {data : Bytes}

/-- A scalar is read where it lies, or there is none. -/
theorem next_scalar (T : Type) [Scalar T] (data : Bytes) {i n : ℕ} (hlt : i + n < 2 ^ 32)
    (hn : Scalar.width T = n := by rfl) :
    ((Reader.startAt i).next data n).run = .ok none ∨
    ∃ x : T, LiesAt data i (beBytes n (Scalar.bits x)) ∧
      ((Reader.startAt i).next data n).run = .ok (some (beBytes n (Scalar.bits x), Reader.startAt (i + n))) ∧
      toLocalByteOrder T host (beBytes n (Scalar.bits x)) = x := by
  rcases Reader.next_inside data hlt with h | ⟨p, hp, hlies, h⟩
  · exact Or.inl h
  have hx : beBytes n (Scalar.bits (toLocalByteOrder T host p)) = p := by
    rw [← hn]
    exact beBytes_toLocalByteOrder host (hp.trans hn.symm)
  refine Or.inr ⟨toLocalByteOrder T host p, ?_, ?_, ?_⟩
  · rwa [hx]
  · rwa [hx]
  · rw [hx]

namespace SerializeField

/-! ## Fields -/

/-- The parts of a field in front of its value, on the wire. -/
def headParts (f : SerializeField) : List Bytes :=
  [beBytes 2 f.nameLength.toNat, f.name, beBytes 1 f.type.code.toNat, beBytes 1 f.flag.bits.toNat] ++
    if f.carriesLength then [beBytes 4 f.valueLength.toNat] else []

/-- Where the value of a field starts. -/
def valueStart (f : SerializeField) : ℕ := 4 + f.name.length + if f.carriesLength then 4 else 0

/-- The input starts with the field's head: everything in front of its value. -/
structure HeadOf (data : Bytes) (f : SerializeField) : Prop where
  name : f.nameLength.toNat = f.name.length
  length : f.carriesLength = true ∨ getDataTypeLength f.type = f.valueLength
  liesAt : LiesAt data 0 f.headParts.flatten

theorem headParts_length (f : SerializeField) : f.headParts.flatten.length = f.valueStart := by
  unfold headParts valueStart
  split <;> simp <;> omega

/-- A name has less than `2^16` bytes, so the head ends far below `2^32`. -/
theorem HeadOf.valueStart_lt {f : SerializeField} (h : HeadOf data f) : f.valueStart < 2 ^ 17 := by
  have hname := f.nameLength.toNat_lt
  have hlength := h.name
  unfold valueStart
  split <;> omega

/-- **The head of a field** is read where it lies. -/
theorem readHead_eq {f : SerializeField} (h : HeadOf data f) :
    (readHead host data).run =
      .ok (some (f.nameLength, f.name, f.type, f.flag, f.valueLength, Reader.startAt f.valueStart)) := by
  have hstart := h.valueStart_lt
  obtain ⟨hname, hlength, hlies⟩ := h
  have e1 := toLocalByteOrder_beBytes host f.nameLength
  have e2 := toLocalByteOrder_beBytes host f.type.code
  have e3 := toLocalByteOrder_beBytes host f.flag.bits
  have e4 := toLocalByteOrder_beBytes host f.valueLength
  simp only [Scalar.width_uInt8, Scalar.width_uInt16, Scalar.width_uInt32, Scalar.bits_uInt8, Scalar.bits_uInt16,
    Scalar.bits_uInt32] at e1 e2 e3 e4
  unfold valueStart at hstart ⊢
  unfold headParts at hlies
  -- the parts that are always there, and the length that may be
  rw [List.flatten_append, liesAt_append] at hlies
  obtain ⟨hfront, hback⟩ := hlies
  simp only [List.flatten_cons, List.flatten_nil, List.append_nil, liesAt_append, Endian.encode_length,
    Nat.zero_add] at hfront
  obtain ⟨hnl, hnameAt, htype, hflag⟩ := hfront
  have hfrontLength : (List.flatten [beBytes 2 f.nameLength.toNat, f.name, beBytes 1 f.type.code.toNat,
      beBytes 1 f.flag.bits.toNat]).length = 4 + f.name.length := by
    simp
    omega
  unfold readHead
  rw [Checked.optionBind_eq (Reader.next_startAt hnl (by simp) (by simp))]
  simp only [e1]
  rw [Checked.optionBind_eq (Reader.next_startAt hnameAt hname.symm (by omega))]
  simp only [hname]
  rw [Checked.optionBind_eq (Reader.next_startAt htype (by simp) (by omega))]
  simp only [e2]
  rw [Checked.optionBind_eq (Reader.next_startAt hflag (by simp) (by omega))]
  simp only [e3]
  rw [hfrontLength, Nat.zero_add] at hback
  have hplace : 2 + f.name.length + 1 + 1 = 4 + f.name.length := by omega
  by_cases hc : f.carriesLength = true
  · rw [if_pos hc, List.flatten_singleton] at hback
    rw [if_pos hc] at hstart ⊢
    unfold carriesLength at hc
    rw [if_pos hc, hplace, Checked.optionBind_eq (Reader.next_startAt hback (by simp) (by omega))]
    simp only [e4]
    rfl
  · rw [if_neg hc]
    have htable := hlength.resolve_left hc
    unfold carriesLength at hc
    rw [if_neg hc, hplace, htable]
    rfl

/-- There is the head of a field, or nothing is read. -/
theorem readHead_cases (data : Bytes) :
    (readHead host data).run = .ok none ∨ ∃ f : SerializeField, HeadOf data f := by
  unfold readHead
  -- each read gives up, or finds a part of the head
  rcases next_scalar host UInt16 data (by norm_num : 0 + 2 < 2 ^ 32) with h | ⟨nl, hnl, h, e⟩
  · exact Or.inl (Checked.optionBind_none h)
  have hlt := nl.toNat_lt
  rw [Checked.optionBind_eq h]
  simp only [e]
  rcases Reader.next_inside data (by omega : 0 + 2 + nl.toNat < 2 ^ 32) with h | ⟨name, hname, hnameAt, h⟩
  · exact Or.inl (Checked.optionBind_none h)
  rw [Checked.optionBind_eq h]
  dsimp only
  rcases next_scalar host UInt8 data (by omega : 0 + 2 + nl.toNat + 1 < 2 ^ 32) with h | ⟨type, htype, h, e⟩
  · exact Or.inl (Checked.optionBind_none h)
  rw [Checked.optionBind_eq h]
  simp only [e]
  rcases next_scalar host UInt8 data (by omega : 0 + 2 + nl.toNat + 1 + 1 < 2 ^ 32) with h | ⟨flag, hflag, h, e⟩
  · exact Or.inl (Checked.optionBind_none h)
  rw [Checked.optionBind_eq h]
  simp only [e]
  have hfront : LiesAt data 0
      (beBytes 2 nl.toNat ++ (name ++ (beBytes 1 type.toNat ++ beBytes 1 flag.toNat))) := by
    simp only [liesAt_append, Endian.encode_length, hname]
    exact ⟨hnl, hnameAt, htype, hflag⟩
  split
  · -- the flag asks for a length, or the table gives it
    rename_i hc
    rcases next_scalar host UInt32 data (by omega : 0 + 2 + nl.toNat + 1 + 1 + 4 < 2 ^ 32) with
      h | ⟨vl, hvl, h, -⟩
    · exact Or.inl (Checked.optionBind_none h)
    let f : SerializeField := ⟨nl, name, ⟨type⟩, ⟨flag⟩, vl, []⟩
    have hf : f.carriesLength = true := hc
    refine Or.inr ⟨f, hname.symm, Or.inl hf, ?_⟩
    rw [headParts, if_pos hf, List.flatten_append, liesAt_append]
    refine ⟨by simpa using hfront, ?_⟩
    have hplace :
        0 + (List.flatten [beBytes 2 nl.toNat, name, beBytes 1 type.toNat, beBytes 1 flag.toNat]).length =
          0 + 2 + nl.toNat + 1 + 1 := by
      simp [hname]
      omega
    rw [hplace]
    simpa using hvl
  · rename_i hc
    let f : SerializeField := ⟨nl, name, ⟨type⟩, ⟨flag⟩, getDataTypeLength ⟨type⟩, []⟩
    have hf : ¬f.carriesLength = true := hc
    refine Or.inr ⟨f, hname.symm, Or.inr rfl, ?_⟩
    rw [headParts, if_neg hf, List.append_nil]
    simpa using hfront

/-- Nothing is read from outside, and a field that comes out has a value of the length it says. -/
def ParsesInside (data : Bytes) : Prop :=
  ∃ parsed, (fromSerializedByteArray host data).run = .ok parsed ∧
    ∀ f ∈ parsed, f.value.length = f.valueLength.toNat

/-- Where the end of the value, counted in 32 bits, passes the test, the real end does. -/
def ValueFits (data : Bytes) : Prop :=
  4 ≤ u32 data.length → ∀ f : SerializeField, HeadOf data f →
    u32 (f.valueStart + f.valueLength.toNat) ≤ data.length → f.valueStart + f.valueLength.toNat ≤ data.length

/-- An input has one head at most. -/
theorem HeadOf.unique {f g : SerializeField} (hf : HeadOf data f) (hg : HeadOf data g) :
    f.valueStart = g.valueStart ∧ f.valueLength = g.valueLength := by
  have h := (readHead_eq .little hf).symm.trans (readHead_eq .little hg)
  simp only [Except.ok.injEq, Option.some.injEq, Prod.mk.injEq] at h
  obtain ⟨-, -, -, -, hlength, hstart⟩ := h
  exact ⟨congrArg Reader.index hstart, hlength⟩

/-- Any conversion leaves the length of a value. -/
theorem convertedValue_length (type : DataType) {n : ℕ} {value : Bytes} (h : value.length = n) :
    (if isCopiedType type then value else convertByteOrderArray host 1 n value).length = n := by
  rw [SerializeCodec.convertValue_eq type h, h]

/-- **A field is parsed inside** exactly when its value fits wherever the test passes. -/
theorem parsesInside_iff : ParsesInside host data ↔ ValueFits data := by
  unfold ParsesInside ValueFits fromSerializedByteArray minSerializedByteArraySize
  by_cases hshort : u32 data.length < 2 + 1 + 1
  · rw [if_pos hshort]
    exact iff_of_true ⟨none, rfl, by simp⟩ (by omega)
  rw [if_neg hshort]
  dsimp only
  have hsize : 4 ≤ u32 data.length := by omega
  rcases readHead_cases host data with hnone | ⟨f, hf⟩
  · -- no head, so nothing is parsed
    refine iff_of_true ⟨none, Checked.optionBind_none hnone, by simp⟩ ?_
    intro _ f hf
    rw [readHead_eq host hf] at hnone
    cases hnone
  rw [Checked.optionBind_eq (readHead_eq host hf)]
  -- there is one head, so the condition is about its value
  have hall : (4 ≤ u32 data.length → ∀ g : SerializeField, HeadOf data g →
        u32 (g.valueStart + g.valueLength.toNat) ≤ data.length →
          g.valueStart + g.valueLength.toNat ≤ data.length) ↔
      (u32 (f.valueStart + f.valueLength.toNat) ≤ data.length →
        f.valueStart + f.valueLength.toNat ≤ data.length) := by
    constructor
    · intro h
      exact h hsize f hf
    · intro h _ g hg
      obtain ⟨hstart, hlength⟩ := hg.unique hf
      rw [hstart, hlength]
      exact h
  rw [hall]
  dsimp only
  rcases Reader.next_cases data f.valueStart f.valueLength.toNat with
    ⟨hneed, h⟩ | ⟨-, hfit, value, hvalue, -, h⟩ | ⟨hneed, hout, e, h⟩
  · exact iff_of_true ⟨none, Checked.optionBind_none h, by simp⟩ (by omega)
  · rw [Checked.optionBind_eq h]
    refine iff_of_true ⟨_, rfl, ?_⟩ fun _ => hfit
    intro g hg
    obtain rfl := Option.some.inj hg
    exact convertedValue_length host f.type hvalue
  · -- the wrapped count passes, the real one does not
    rw [Checked.optionBind_error h]
    refine iff_of_false ?_ (by omega)
    rintro ⟨parsed, hparsed, -⟩
    cases hparsed

end SerializeField

namespace SerializeArrayValue

/-! ## Array values -/

/-- The input starts with a type, a count and a flag. -/
structure HeadOf (data : Bytes) (type : DataType) (count : UInt32) (flag : SerializeArrayFlag) : Prop where
  type : LiesAt data 0 (beBytes 1 type.code.toNat)
  count : LiesAt data 1 (beBytes 4 count.toNat)
  flag : LiesAt data 5 (beBytes 1 flag.bits.toNat)

/-- The reading behind the lengths. -/
def readElementValue (data : Bytes) (type : DataType) (count : UInt32) (flag : SerializeArrayFlag)
    (ls : List UInt32) (valueLength : ℕ) (r : Reader) : OptionT Checked SerializeArrayValue := do
  let (elementValue, _) ← r.next data valueLength
  return ⟨type, count, flag, ls, elementValue⟩

variable {type : DataType} {count : UInt32} {flag : SerializeArrayFlag}

/-- Too short an input has no array value. -/
theorem fromSerializedByteArray_short (h : data.length < 10) :
    (fromSerializedByteArray host data).run = .ok none := by
  unfold fromSerializedByteArray minSerializedByteArraySize
  rw [if_pos h]
  rfl

/-- Ten bytes have a head. -/
theorem exists_headOf (h : 10 ≤ data.length) : ∃ type count flag, HeadOf data type count flag := by
  have scalar : ∀ (T : Type) [Scalar T] (i : ℕ), i + Scalar.width T ≤ 10 →
      ∃ x : T, LiesAt data i (beBytes (Scalar.width T) (Scalar.bits x)) := by
    intro T _ i hi
    obtain ⟨hp, hlies⟩ := readAt_iff.1 (readAt_ok (by omega : i + Scalar.width T ≤ data.length))
    exact ⟨toLocalByteOrder T .big _, by rwa [beBytes_toLocalByteOrder .big hp]⟩
  obtain ⟨type, htype⟩ := scalar UInt8 0 (by decide)
  obtain ⟨count, hcount⟩ := scalar UInt32 1 (by decide)
  obtain ⟨flag, hflag⟩ := scalar UInt8 5 (by decide)
  exact ⟨⟨type⟩, count, ⟨flag⟩, htype, hcount, hflag⟩

/-- **Behind the head** come the lengths, or the one length, and the elements. -/
theorem fromSerializedByteArray_eq (h : HeadOf data type count flag) (hlen : 10 ≤ data.length) :
    (fromSerializedByteArray host data).run =
      (if hasFlag flag.bits SerializeArrayFlag.isElementLengthVariable.bits then do
        let (ls, valueLength, r) ← readElementLengths host data count.toNat [] 0 (Reader.startAt 6)
        readElementValue data type count flag ls valueLength r
      else do
        let (p, r) ← (Reader.startAt 6).next data 4
        let l := toLocalByteOrder UInt32 host p
        readElementValue data type count flag [l] (u32 (l.toNat * count.toNat)) r).run := by
  obtain ⟨htype, hcount, hflag⟩ := h
  have e1 := toLocalByteOrder_beBytes host type.code
  have e2 := toLocalByteOrder_beBytes host count
  have e3 := toLocalByteOrder_beBytes host flag.bits
  simp only [Scalar.width_uInt8, Scalar.width_uInt32, Scalar.bits_uInt8, Scalar.bits_uInt32] at e1 e2 e3
  unfold fromSerializedByteArray minSerializedByteArraySize
  rw [if_neg (by omega)]
  simp only [pure_bind]
  rw [Checked.optionBind_eq (Reader.next_startAt htype (by simp) (by simp))]
  dsimp only
  rw [Checked.optionBind_eq (Reader.next_startAt hcount (by simp) (by simp))]
  dsimp only
  rw [Checked.optionBind_eq (Reader.next_startAt hflag (by simp) (by simp))]
  simp only [e1, e2, e3]
  split
  · rfl
  · rfl

/-! ## Element lengths -/

/-- Where the element length of number `k` is read: the index has 32 bits. -/
def lengthPlace (k : ℕ) : ℕ := u32 (6 + 4 * k)

/-- The element length that is read there. -/
def lengthAt (data : Bytes) (k : ℕ) : UInt32 := UInt32.ofNat (beVal ((data.drop (lengthPlace k)).take 4))

/-- The `n` element lengths from number `k` on. -/
def lengthsFrom (data : Bytes) (k n : ℕ) : List UInt32 := (List.range' k n).map (lengthAt data)

/-- The element length of number `k` lies in the input. -/
def LengthInside (data : Bytes) (k : ℕ) : Prop := lengthPlace k + 4 ≤ data.length

/-- The sum of element lengths. -/
def total (ls : List UInt32) : ℕ := (ls.map UInt32.toNat).sum

theorem lengthPlace_succ (k : ℕ) : u32 (lengthPlace k + 4) = lengthPlace (k + 1) := by
  unfold lengthPlace
  rw [u32_add]
  rfl

theorem lengthsFrom_succ (data : Bytes) (k n : ℕ) :
    lengthsFrom data k (n + 1) = lengthAt data k :: lengthsFrom data (k + 1) n := by
  simp [lengthsFrom, List.range'_succ]

theorem total_cons (l : UInt32) (ls : List UInt32) : total (l :: ls) = l.toNat + total ls := by
  simp [total]

/-- A length that lies in the input is read. -/
theorem next_length {k : ℕ} (h : LengthInside data k) :
    ∃ p, ((Reader.startAt (lengthPlace k)).next data 4).run =
        .ok (some (p, Reader.startAt (lengthPlace (k + 1)))) ∧
      toLocalByteOrder UInt32 host p = lengthAt data k := by
  have hle : u32 (lengthPlace k + 4) ≤ lengthPlace k + 4 := Nat.mod_le _ _
  unfold LengthInside at h
  rcases Reader.next_cases data (lengthPlace k) 4 with ⟨hneed, -⟩ | ⟨-, hfit, p, hp, hlies, hnext⟩ | ⟨-, hout, -⟩
  · omega
  · rw [lengthPlace_succ] at hnext
    have hread := (readAt_iff.2 ⟨hp, hlies⟩).symm.trans (readAt_ok hfit)
    refine ⟨p, hnext, ?_⟩
    rw [toLocalByteOrder_eq, Except.ok.inj hread]
    rfl
  · omega

/-- **The loop over the lengths** when they all lie in the input. -/
theorem readElementLengths_inside (n : ℕ) : ∀ (k v : ℕ) (ls : List UInt32), v < 2 ^ 32 →
    (∀ j, k ≤ j → j < k + n → LengthInside data j) →
    (readElementLengths host data n ls v (Reader.startAt (lengthPlace k))).run =
      .ok (some (ls ++ lengthsFrom data k n, u32 (v + total (lengthsFrom data k n)),
        Reader.startAt (lengthPlace (k + n)))) := by
  induction n with
  | zero =>
    intro k v ls hv _
    have hsum : u32 (v + total (lengthsFrom data k 0)) = v := u32_of_lt hv
    rw [hsum, lengthsFrom, List.range'_zero, List.map_nil, List.append_nil]
    rfl
  | succ n ih =>
    intro k v ls _ hin
    obtain ⟨p, hnext, hp⟩ := next_length host (hin k le_rfl (by omega))
    have hrest : ∀ j, k + 1 ≤ j → j < k + 1 + n → LengthInside data j :=
      fun j hj hj' => hin j (by omega) (by omega)
    rw [readElementLengths, Checked.optionBind_eq hnext]
    dsimp only
    rw [hp, ih _ _ _ (u32_lt _) hrest, lengthsFrom_succ, total_cons, u32_add, List.append_assoc, Nat.add_assoc,
      Nat.add_right_comm k 1 n]
    rfl

/-- **The loop over the lengths** stops at the first one that does not lie in the input. -/
theorem readElementLengths_outside (n : ℕ) : ∀ (k j v : ℕ) (ls : List UInt32), k ≤ j → j < k + n →
    ¬LengthInside data j → (∀ i, k ≤ i → i < j → LengthInside data i) →
    (data.length < lengthPlace (j + 1) →
      (readElementLengths host data n ls v (Reader.startAt (lengthPlace k))).run = .ok none) ∧
    (lengthPlace (j + 1) ≤ data.length →
      ∃ e, (readElementLengths host data n ls v (Reader.startAt (lengthPlace k))).run = .error e) := by
  induction n with
  | zero => intro k j v ls hk hj; omega
  | succ n ih =>
    intro k j v ls hk hj hout hin
    rw [readElementLengths]
    rcases Nat.eq_or_lt_of_le hk with rfl | hlt
    · -- this is the one
      unfold LengthInside at hout
      have hcases := Reader.next_cases data (lengthPlace k) 4
      rw [lengthPlace_succ] at hcases
      rcases hcases with ⟨hneed, h⟩ | ⟨-, hfit, -⟩ | ⟨hneed, -, e, h⟩
      · exact ⟨fun _ => Checked.optionBind_none h, fun hle => by omega⟩
      · omega
      · exact ⟨fun hle => by omega, fun _ => ⟨e, Checked.optionBind_error h⟩⟩
    · obtain ⟨p, hnext, hp⟩ := next_length host (hin k le_rfl hlt)
      rw [Checked.optionBind_eq hnext]
      exact ih _ _ _ _ hlt (by omega) hout fun i hi hi' => hin i (by omega) hi'

/-! ## The whole value -/

/-- The size an array value declares for its elements. -/
def declaredSize (a : SerializeArrayValue) : ℕ :=
  if a.isVariable then total a.elementValueLength else total a.elementValueLength * a.elementCount.toNat

/-- Nothing is read from outside, and an array value that comes out has the size it declares. -/
def ParsesInside (data : Bytes) : Prop :=
  ∃ parsed, (fromSerializedByteArray host data).run = .ok parsed ∧
    ∀ a ∈ parsed, a.elementValue.length = a.declaredSize

/-- Elements of `size` bytes behind the place `i`: where their end, counted in 32 bits,
passes the test, the real end does. -/
def SizeFits (data : Bytes) (i size : ℕ) : Prop :=
  u32 (i + size) ≤ data.length → size < 2 ^ 32 ∧ i + size ≤ data.length

/-- The same of a variable array: of the place of each length, and of the elements. -/
structure LengthsFit (data : Bytes) (n : ℕ) : Prop where
  lengths : ∀ k < n, (∀ j < k, LengthInside data j) → lengthPlace (k + 1) ≤ data.length → LengthInside data k
  elements : (∀ k < n, LengthInside data k) → SizeFits data (lengthPlace n) (total (lengthsFrom data 0 n))

/-- The same of any array. -/
def ElementsFit (data : Bytes) : Prop :=
  10 ≤ data.length → ∀ type count flag, HeadOf data type count flag →
    if hasFlag flag.bits SerializeArrayFlag.isElementLengthVariable.bits then LengthsFit data count.toNat
    else ∀ l : UInt32, LiesAt data 6 (beBytes 4 l.toNat) → SizeFits data 10 (l.toNat * count.toNat)

/-- One value lies at a place. -/
theorem scalar_unique {T : Type} [Scalar T] {i : ℕ} {x y : T}
    (hx : LiesAt data i (beBytes (Scalar.width T) (Scalar.bits x)))
    (hy : LiesAt data i (beBytes (Scalar.width T) (Scalar.bits y))) : x = y := by
  have hx' : toLocalByteOrderAt T .big data i = .ok x := toLocalByteOrderAt_iff.2 hx
  have hy' : toLocalByteOrderAt T .big data i = .ok y := toLocalByteOrderAt_iff.2 hy
  exact Except.ok.inj (hx'.symm.trans hy')

/-- An input has one head. -/
theorem HeadOf.unique {type' : DataType} {count' : UInt32} {flag' : SerializeArrayFlag}
    (h : HeadOf data type count flag) (h' : HeadOf data type' count' flag') :
    type = type' ∧ count = count' ∧ flag = flag' := by
  have htype : type.code = type'.code := scalar_unique h.type h'.type
  have hcount : count = count' := scalar_unique h.count h'.count
  have hflag : flag.bits = flag'.bits := scalar_unique h.flag h'.flag
  obtain ⟨c⟩ := type
  obtain ⟨b⟩ := flag
  obtain ⟨c'⟩ := type'
  obtain ⟨b'⟩ := flag'
  exact ⟨congrArg DataType.mk htype, hcount, congrArg SerializeArrayFlag.mk hflag⟩

/-- **The elements** are read inside and have their size exactly when it fits. -/
theorem readElementValue_iff {ls : List UInt32} {i size : ℕ}
    (hsize : ∀ elements, declaredSize ⟨type, count, flag, ls, elements⟩ = size) :
    (∃ parsed, (readElementValue data type count flag ls (u32 size) (Reader.startAt i)).run = .ok parsed ∧
      ∀ a ∈ parsed, a.elementValue.length = a.declaredSize) ↔ SizeFits data i size := by
  unfold readElementValue SizeFits
  -- the sum of the narrowed size is that of the real one, narrowed
  have hwrap : u32 (i + u32 size) = u32 (i + size) := by
    unfold u32
    omega
  have hlow : u32 size = size ↔ size < 2 ^ 32 := by
    unfold u32
    omega
  have hcases := Reader.next_cases data i (u32 size)
  rw [hwrap] at hcases
  rcases hcases with ⟨hneed, h⟩ | ⟨hneed, hfit, p, hp, -, h⟩ | ⟨hneed, hout, e, h⟩
  · exact iff_of_true ⟨none, Checked.optionBind_none h, by simp⟩ (by omega)
  · rw [Checked.optionBind_eq h]
    constructor
    · rintro ⟨parsed, hparsed, hlength⟩ _
      obtain rfl := Except.ok.inj hparsed
      -- the input has the narrowed size, so both are one
      have hvalue := hlength _ rfl
      rw [hsize] at hvalue
      have heq : u32 size = size := hp.symm.trans hvalue
      rw [heq] at hfit
      exact ⟨hlow.1 heq, hfit⟩
    · intro hcond
      have heq := hlow.2 (hcond hneed).1
      refine ⟨_, rfl, ?_⟩
      intro a ha
      obtain rfl := Option.some.inj ha
      rw [hsize]
      exact hp.trans heq
  · -- the wrapped count passes, the real one does not
    rw [Checked.optionBind_error h]
    refine iff_of_false ?_ ?_
    · rintro ⟨parsed, hparsed, -⟩
      cases hparsed
    · intro hcond
      obtain ⟨hlt, hfit⟩ := hcond hneed
      have heq := hlow.2 hlt
      omega

/-- **A variable array** behind its head. -/
theorem readElementLengths_iff (hflag : hasFlag flag.bits SerializeArrayFlag.isElementLengthVariable.bits = true)
    (n : ℕ) :
    (∃ parsed, (do
        let (ls, valueLength, r) ← readElementLengths host data n [] 0 (Reader.startAt 6)
        readElementValue data type count flag ls valueLength r).run = .ok parsed ∧
      ∀ a ∈ parsed, a.elementValue.length = a.declaredSize) ↔ LengthsFit data n := by
  have hplace : Reader.startAt 6 = Reader.startAt (lengthPlace 0) := rfl
  rw [hplace]
  by_cases hall : ∀ k < n, LengthInside data k
  · -- every length is read, and the elements decide
    have hread := readElementLengths_inside host n 0 0 [] (by norm_num) (fun j _ hj => hall j (by omega))
    rw [Nat.zero_add, Nat.zero_add, List.nil_append] at hread
    have hsize : ∀ elements, declaredSize ⟨type, count, flag, lengthsFrom data 0 n, elements⟩ =
        total (lengthsFrom data 0 n) := fun elements => if_pos hflag
    rw [Checked.optionBind_eq hread]
    dsimp only
    rw [readElementValue_iff hsize]
    constructor
    · intro h
      exact ⟨fun k hk _ _ => hall k hk, fun _ => h⟩
    · intro h
      exact h.elements hall
  · -- the first length that does not lie in the input decides
    have hex : ∃ k, k < n ∧ ¬LengthInside data k := by simpa using hall
    classical
    obtain ⟨hk, hout⟩ := Nat.find_spec hex
    have hbefore : ∀ j < Nat.find hex, LengthInside data j := by
      intro j hj
      by_contra hj'
      exact Nat.find_min hex hj ⟨by omega, hj'⟩
    obtain ⟨hnone, herror⟩ := readElementLengths_outside host n 0 (Nat.find hex) 0 [] (Nat.zero_le _) (by omega)
      hout (fun i _ hi => hbefore i hi)
    -- it is refused when even the wrapped count does not pass, else it is read outside
    rcases Nat.lt_or_ge data.length (lengthPlace (Nat.find hex + 1)) with hshort | hpass
    · refine iff_of_true ⟨none, Checked.optionBind_none (hnone hshort), by simp⟩ ?_
      refine ⟨fun k hkn hbefore' hpass => ?_, fun h => absurd h hall⟩
      by_contra hout'
      have hle : Nat.find hex ≤ k := Nat.find_min' hex ⟨hkn, hout'⟩
      rcases Nat.eq_or_lt_of_le hle with rfl | hlt
      · omega
      · exact hout (hbefore' _ hlt)
    · obtain ⟨e, he⟩ := herror hpass
      rw [Checked.optionBind_error he]
      refine iff_of_false ?_ ?_
      · rintro ⟨parsed, hparsed, -⟩
        cases hparsed
      · intro h
        exact hout (h.lengths _ hk hbefore hpass)

/-- **An array value is parsed inside** exactly when its elements fit. -/
theorem parsesInside_iff : ParsesInside host data ↔ ElementsFit data := by
  unfold ParsesInside ElementsFit
  rcases Nat.lt_or_ge data.length 10 with hshort | hlen
  · exact iff_of_true ⟨none, fromSerializedByteArray_short host hshort, by simp⟩ (by omega)
  obtain ⟨type, count, flag, hhead⟩ := exists_headOf hlen
  rw [fromSerializedByteArray_eq host hhead hlen]
  -- the head is the only one, so the condition is about it
  have hall : ∀ P : DataType → UInt32 → SerializeArrayFlag → Prop,
      (10 ≤ data.length → ∀ type count flag, HeadOf data type count flag → P type count flag) ↔
        P type count flag := by
    intro P
    constructor
    · intro h
      exact h hlen type count flag hhead
    · intro h _ type' count' flag' hhead'
      obtain ⟨rfl, rfl, rfl⟩ := hhead.unique hhead'
      exact h
  rw [hall]
  by_cases hflag : hasFlag flag.bits SerializeArrayFlag.isElementLengthVariable.bits = true
  · rw [if_pos hflag, if_pos hflag, readElementLengths_iff host hflag]
  · rw [if_neg hflag, if_neg hflag]
    rcases next_scalar host UInt32 data (by norm_num : 6 + 4 < 2 ^ 32) with h | ⟨l, hl, h, e⟩
    · -- there are ten bytes, so the length is there
      exfalso
      have hcases := Reader.next_cases data 6 4
      rw [h] at hcases
      have hten : u32 (6 + 4) = 10 := rfl
      rw [hten] at hcases
      rcases hcases with ⟨hneed, -⟩ | ⟨-, -, p, -, -, h'⟩ | ⟨-, hout, -⟩
      · omega
      · cases h'
      · omega
    · have hsize : ∀ elements, declaredSize ⟨type, count, flag, [l], elements⟩ = l.toNat * count.toNat := by
        intro elements
        unfold declaredSize isVariable
        rw [if_neg hflag]
        simp [total]
      rw [Checked.optionBind_eq h]
      simp only [e]
      rw [readElementValue_iff hsize]
      constructor
      · intro hfit l' hl'
        obtain rfl : l = l' := scalar_unique hl hl'
        exact hfit
      · intro hfit
        exact hfit l hl

end SerializeArrayValue

/-- **The two parsers** read nothing from outside, and return what has the sizes it
declares, exactly when no sum or product of lengths wraps to one that passes the test. -/
theorem parsers_inside_iff (data : Bytes) :
    (SerializeField.ParsesInside host data ↔ SerializeField.ValueFits data) ∧
      (SerializeArrayValue.ParsesInside host data ↔ SerializeArrayValue.ElementsFit data) :=
  ⟨SerializeField.parsesInside_iff host, SerializeArrayValue.parsesInside_iff host⟩

/-- A string field that declares `2^32 - 1` bytes, and `2^16` elements of `2^16` bytes. -/
theorem oversize_passes :
    ¬SerializeField.ParsesInside .little [0, 0, 12, 1, 255, 255, 255, 255] ∧
      ¬SerializeArrayValue.ParsesInside .little [1, 0, 1, 0, 0, 0, 0, 1, 0, 0] := by
  constructor
  · rintro ⟨parsed, hparsed, -⟩
    have hrun : (SerializeField.fromSerializedByteArray .little [0, 0, 12, 1, 255, 255, 255, 255]).run =
        .error (.outOfRange 8 4294967295 8) := by decide +kernel
    rw [hrun] at hparsed
    cases hparsed
  · rintro ⟨parsed, hparsed, hsize⟩
    have hrun : (SerializeArrayValue.fromSerializedByteArray .little [1, 0, 1, 0, 0, 0, 0, 1, 0, 0]).run =
        .ok (some ⟨.uInt8, 65536, .none, [65536], []⟩) := by decide +kernel
    rw [hrun] at hparsed
    obtain rfl := Except.ok.inj hparsed
    have h := hsize _ rfl
    revert h
    decide +kernel

end ProjectTrans
