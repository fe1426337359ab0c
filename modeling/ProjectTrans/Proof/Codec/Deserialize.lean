import ProjectTrans.Model.Codec.SerializeCodec

/-!
# What `deserialize` reads

One round of the field loop succeeds exactly where a complete field lies, and
returns it (`deserializeField_iff`); so the loop succeeds exactly where that many
fields lie one behind another (`deserializeLoop_iff`).
-/

namespace ProjectTrans

open Wire

namespace SerializeCodec

variable {host : Endian} {data : Bytes} {i j : ℕ} {f : SerializeField}

theorem deserializeValueLength_iff {type : DataType} {flag : SerializeFieldFlag} {n : UInt32} :
    deserializeValueLength host data type flag i = .ok (n, j) ↔
      if hasFlag flag.bits SerializeFieldFlag.hasValueLength.bits then
        LiesAt data i (beBytes 4 n.toNat) ∧ j = u32 (i + 4)
      else getDataTypeLength type = n ∧ j = i := by
  unfold deserializeValueLength
  split
  · simp only [Checked.bind_eq_ok, toLocalByteOrderAt_iff, Checked.pure_eq, Except.ok.injEq, Prod.mk.injEq,
      Scalar.width_uInt32, Scalar.bits_uInt32]
    constructor
    · rintro ⟨n, h, rfl, rfl⟩
      exact ⟨h, rfl⟩
    · rintro ⟨h, rfl⟩
      exact ⟨n, h, rfl, rfl⟩
  · simp only [Except.ok.injEq, Prod.mk.injEq]
    exact and_congr_right fun _ => eq_comm

/-- A value of the stated length comes out as it lies there, whatever its type. -/
theorem convertValue_eq (type : DataType) {n : ℕ} {value : Bytes} (h : value.length = n) :
    (if isCopiedType type then value else convertByteOrderArray host 1 n value) = value := by
  split
  · rfl
  · rw [convertByteOrderArray_one host h.ge, ← h, List.take_length]

/-- The parts of a field, one behind another. -/
theorem laidOut_wireParts :
    LaidOut data i f.wireParts ↔
      LiesAt data i (beBytes 2 f.nameLength.toNat) ∧ LiesAt data (u32 (i + 2)) f.name ∧
      LiesAt data (u32 (u32 (i + 2) + f.name.length)) (beBytes 1 f.type.code.toNat) ∧
      LiesAt data (u32 (u32 (u32 (i + 2) + f.name.length) + 1)) (beBytes 1 f.flag.bits.toNat) ∧
      (if f.carriesLength then
        LiesAt data (u32 (u32 (u32 (u32 (i + 2) + f.name.length) + 1) + 1)) (beBytes 4 f.valueLength.toNat) ∧
        LiesAt data (u32 (u32 (u32 (u32 (u32 (i + 2) + f.name.length) + 1) + 1) + 4)) f.value
      else LiesAt data (u32 (u32 (u32 (u32 (i + 2) + f.name.length) + 1) + 1)) f.value) := by
  unfold SerializeField.wireParts
  split <;> simp [LaidOut]

/-- **A field is read** exactly where a complete one lies. -/
theorem deserializeField_iff :
    deserializeField host data i = .ok (f, j) ↔
      f.WellFormed ∧ LaidOut data i f.wireParts ∧ j = u32 (i + f.wire.length) := by
  unfold deserializeField
  rw [laidOut_wireParts, SerializeField.wire_length]
  simp only [Checked.bind_eq_ok, toLocalByteOrderAt_iff, readAt_iff, Prod.exists,
    deserializeValueLength_iff, Checked.pure_eq, Except.ok.injEq, Prod.mk.injEq,
    Scalar.width_uInt8, Scalar.width_uInt16, Scalar.bits_uInt8, Scalar.bits_uInt16]
  constructor
  · rintro ⟨nl, hnl, name, ⟨hname, hnameAt⟩, type, htype, flag, hflag, vl, k, hlen, value, ⟨hvl, hvalue⟩, hf, rfl⟩
    rw [convertValue_eq _ hvl] at hf
    subst hf
    unfold SerializeField.carriesLength
    have hsized : SerializeField.Sized ⟨nl, name, ⟨type⟩, ⟨flag⟩, vl, value⟩ := ⟨hname.symm, hvl.symm⟩
    simp only [hname]
    -- with a length of its own, or with that of its type
    by_cases hc : hasFlag flag SerializeFieldFlag.hasValueLength.bits = true
    · simp only [hc, if_true] at hlen ⊢
      obtain ⟨hlenAt, rfl⟩ := hlen
      refine ⟨⟨hsized, Or.inl hc⟩, ⟨hnl, hnameAt, htype, hflag, hlenAt, hvalue⟩, ?_⟩
      simp only [u32_add]
      congr 1
      omega
    · simp only [hc] at hlen ⊢
      obtain ⟨hlen, rfl⟩ := hlen
      refine ⟨⟨hsized, Or.inr hlen⟩, ⟨hnl, hnameAt, htype, hflag, hvalue⟩, ?_⟩
      simp only [u32_add]
      congr 1
      simp; omega
  · rintro ⟨⟨⟨hname, hvalue⟩, hlen⟩, ⟨hnl, hnameAt, htype, hflag, hrest⟩, rfl⟩
    rw [← hname] at htype hflag hrest
    rw [← hname]
    refine ⟨f.nameLength, hnl, f.name, ⟨hname.symm, hnameAt⟩, f.type.code, htype, f.flag.bits,
      hflag, f.valueLength, ?_⟩
    unfold SerializeField.carriesLength at *
    by_cases hc : hasFlag f.flag.bits SerializeFieldFlag.hasValueLength.bits = true
    · simp only [hc, if_true] at hrest ⊢
      refine ⟨_, ⟨hrest.1, rfl⟩, f.value, ⟨hvalue.symm, hrest.2⟩, ?_, ?_⟩
      · rw [convertValue_eq _ hvalue.symm]
      · simp only [u32_add]
        congr 1
        omega
    · simp only [hc] at hrest hlen ⊢
      refine ⟨_, ⟨hlen.resolve_left (by simp), rfl⟩, f.value, ⟨hvalue.symm, hrest⟩, ?_, ?_⟩
      · rw [convertValue_eq _ hvalue.symm]
      · simp only [u32_add]
        congr 1
        simp; omega

/-- The entry of a field in the parsed map. -/
def entry (f : SerializeField) : Bytes × SerializeField := (f.name, f)

/-- `fs` are complete fields that lie in `data` one behind another from `i` on. -/
structure HoldsFields (data : Bytes) (i : ℕ) (fs : List SerializeField) : Prop where
  wellFormed : ∀ f ∈ fs, f.WellFormed
  laidOut : LaidOut data i (fs.flatMap SerializeField.wireParts)

theorem holdsFields_cons (hi : i < 2 ^ 32) {fs : List SerializeField} :
    HoldsFields data i (f :: fs) ↔
      (f.WellFormed ∧ LaidOut data i f.wireParts) ∧ HoldsFields data (u32 (i + f.wire.length)) fs := by
  constructor
  · rintro ⟨hw, hl⟩
    rw [List.flatMap_cons, laidOut_append data _ _ _ hi] at hl
    exact ⟨⟨hw f List.mem_cons_self, hl.1⟩, fun g hg => hw g (List.mem_cons_of_mem _ hg), hl.2⟩
  · rintro ⟨⟨hf, hl⟩, hw, hls⟩
    refine ⟨fun g hg => ?_, ?_⟩
    · rcases List.mem_cons.1 hg with rfl | hg
      · exact hf
      · exact hw g hg
    · rw [List.flatMap_cons, laidOut_append data _ _ _ hi]
      exact ⟨hl, hls⟩

/-- **The loop succeeds** exactly where the fields lie, and collects them. -/
theorem deserializeLoop_iff (n : ℕ) : ∀ {i : ℕ} (_ : i < 2 ^ 32) {map map' : List (Bytes × SerializeField)},
    deserializeLoop host data n i map = .ok map' ↔
      ∃ fs, fs.length = n ∧ HoldsFields data i fs ∧ map' = map ++ fs.map entry := by
  induction n with
  | zero =>
    intro i _ map map'
    simp only [deserializeLoop, Except.ok.injEq, List.length_eq_zero_iff]
    constructor
    · rintro rfl
      exact ⟨[], rfl, ⟨by simp, trivial⟩, by simp⟩
    · rintro ⟨fs, rfl, -, rfl⟩
      simp
  | succ n ih =>
    intro i hi map map'
    simp only [deserializeLoop, Checked.bind_eq_ok, Prod.exists, deserializeField_iff]
    constructor
    · rintro ⟨f, j, ⟨hf, hl, rfl⟩, h⟩
      -- the loop goes on at the wrapped index, wherever that is
      obtain ⟨fs, hn, hfs, rfl⟩ := (ih (u32_lt _)).1 h
      exact ⟨f :: fs, by simp [hn], (holdsFields_cons hi).2 ⟨⟨hf, hl⟩, hfs⟩, by simp [entry]⟩
    · rintro ⟨fs, hn, hfs, rfl⟩
      obtain ⟨f, fs, rfl⟩ := List.exists_cons_of_length_eq_add_one hn
      obtain ⟨⟨hf, hl⟩, hfs⟩ := (holdsFields_cons hi).1 hfs
      exact ⟨f, _, ⟨hf, hl, rfl⟩, (ih (u32_lt _)).2 ⟨fs, by simpa using hn, hfs, by simp [entry]⟩⟩

theorem getMessageHeader_iff {h : SerializeHeader} :
    getMessageHeader host data = .ok (some h) ↔ LiesAt data 0 h.wire := by
  unfold getMessageHeader headerSize
  split
  · rename_i hl
    constructor
    · intro hc; simp at hc
    · intro hw
      have := liesAt_length hw
      rw [SerializeHeader.wire_length] at this
      omega
  · rw [SerializeHeader.fromSerializedByteArray_iff]
    constructor
    · rintro ⟨pre, post, hd, hp⟩
      exact ⟨pre, post ++ data.drop 16, by rw [← List.append_assoc, ← hd, List.take_append_drop], hp⟩
    · rintro ⟨pre, post, rfl, hp⟩
      have hpre : pre = [] := List.eq_nil_of_length_eq_zero hp
      subst hpre
      refine ⟨[], [], ?_, rfl⟩
      rw [List.nil_append, List.append_nil, List.take_left' (by simp)]

/-- A header, or none, is always read. -/
theorem getMessageHeader_total (host : Endian) (data : Bytes) :
    getMessageHeader host data = .ok none ∨ ∃ h, getMessageHeader host data = .ok (some h) := by
  unfold getMessageHeader
  split
  · exact Or.inl rfl
  · rcases SerializeHeader.fromSerializedByteArray_total host (data.take headerSize) with ⟨_, h⟩ | ⟨_, h⟩
    · exact Or.inl h
    · exact Or.inr h

/-- The header in front of `data` is `h` and passes the length test. -/
def Accepts (data : Bytes) (h : SerializeHeader) : Prop :=
  LiesAt data 0 h.wire ∧ u32 (h.messageLength.toNat + headerSize) ≤ data.length

/-- A message without an accepted header leaves the codec as it is. -/
theorem deserialize_rejected (c : SerializeCodec) (h : ∀ header, ¬Accepts data header) :
    c.deserialize host data = .ok c := by
  unfold deserialize
  rcases getMessageHeader_total host data with hn | ⟨header, hs⟩
  · rw [hn]; rfl
  · rw [hs, Checked.ok_bind]
    have := h header
    simp only [Accepts, getMessageHeader_iff.1 hs, true_and, not_le] at this
    dsimp only
    rw [if_pos this]
    rfl

/-- **An accepted message** is read exactly when the fields its header counts lie
behind the header; they all end up in the map. -/
theorem deserialize_accepted (c : SerializeCodec) {header : SerializeHeader} (h : Accepts data header)
    {c' : SerializeCodec} :
    c.deserialize host data = .ok c' ↔
      ∃ fs, fs.length = header.fieldCount.toNat ∧ HoldsFields data headerSize fs ∧
        c' = { c with byteArrayParsed := data, dataMapParsed := c.dataMapParsed ++ fs.map entry } := by
  unfold deserialize
  rw [getMessageHeader_iff.2 h.1, Checked.ok_bind]
  dsimp only
  rw [if_neg (by have := h.2; omega)]
  simp only [Checked.bind_eq_ok, deserializeLoop_iff _ (by decide : headerSize < 2 ^ 32), Checked.pure_eq,
    Except.ok.injEq]
  constructor
  · rintro ⟨_, ⟨fs, hn, hfs, rfl⟩, rfl⟩
    exact ⟨fs, hn, hfs, rfl⟩
  · rintro ⟨fs, hn, hfs, rfl⟩
    exact ⟨_, ⟨fs, hn, hfs, rfl⟩, rfl⟩

/-- Every read of `deserialize` stays inside the message. -/
def ReadsInside (host : Endian) (c : SerializeCodec) (data : Bytes) : Prop :=
  ∃ c', c.deserialize host data = .ok c'

/-- **The reads stay inside** exactly when the message has no accepted header, or as
many complete fields behind it as it counts. -/
theorem deserialize_readsInside_iff (host : Endian) (c : SerializeCodec) (data : Bytes) :
    ReadsInside host c data ↔
      ∀ header, Accepts data header →
        ∃ fs, fs.length = header.fieldCount.toNat ∧ HoldsFields data headerSize fs := by
  constructor
  · rintro ⟨c', hc'⟩ header h
    obtain ⟨fs, hn, hfs, -⟩ := (deserialize_accepted c h).1 hc'
    exact ⟨fs, hn, hfs⟩
  · intro h
    by_cases ha : ∃ header, Accepts data header
    · obtain ⟨header, ha⟩ := ha
      obtain ⟨fs, hn, hfs⟩ := h header ha
      exact ⟨_, (deserialize_accepted c ha).2 ⟨fs, hn, hfs, rfl⟩⟩
    · exact ⟨c, deserialize_rejected c (not_exists.1 ha)⟩

/-- A header that counts one field, with no body behind it. -/
def lyingFrame : Bytes := SerializeHeader.wire ⟨0x66666666, 1, 0, .none, 0, 1⟩

/-- The first read of the loop leaves that message. -/
theorem deserialize_lyingFrame : ¬ReadsInside .little (new .default) lyingFrame := by
  have h : (new .default).deserialize .little lyingFrame = .error (.outOfRange 16 2 16) := by decide
  rintro ⟨c', hc'⟩
  rw [h] at hc'
  cases hc'

end SerializeCodec

end ProjectTrans
