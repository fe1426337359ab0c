import ProjectTrans.Proof.Codec.Typed

/-!
# The lengths a field declares

`serialize` of a string or a value writes the sizes of name and value into 16 and 32
bits, and compares what is left of them with the limits. So a size beyond those widths
passes any limit above its remainder, while all of its bytes are copied.

`lengths_exact_iff`: the call leaves the codec alone because a limit is exceeded, or
appends a field whose declared lengths are the real ones, **exactly when** a narrowed
size exceeds its limit, or both sizes fit their widths and the build stays below `2^32`.
-/

namespace ProjectTrans

open Wire

namespace SerializeCodec

variable {host : Endian} {c c' : SerializeCodec} {f : SerializeField} {name value : Bytes}

/-- The field was appended: its bytes stand behind what was built before, and the codec
has it on its list. -/
structure Appended (c c' : SerializeCodec) (f : SerializeField) : Prop where
  kept : c.byteArrayBuild.take c.currentIndex <+: c'.byteArrayBuild
  bytes : LiesAt c'.byteArrayBuild c.currentIndex f.wire
  currentIndex : c'.currentIndex = c.currentIndex + f.wire.length
  map : c'.dataMapBuild = c.dataMapBuild ++ [entry f]

/-- A size exceeds its configured limit. -/
def ExceedsLimit (config : SerializeConfig) (name value : Bytes) : Prop :=
  config.maxFieldNameLength.toNat < name.length ∨ config.maxFieldValueLength.toNat < value.length

/-- A call leaves the codec as it is because a limit is exceeded, or appends a field of
this name and value whose two declared lengths are theirs. -/
def LengthsExact (c : SerializeCodec) (name value : Bytes) (result : Checked SerializeCodec) : Prop :=
  ∃ c', result = .ok c' ∧
    (c' = c ∧ ExceedsLimit c.config name value ∨
      ∃ f : SerializeField, f.name = name ∧ f.value = value ∧ f.nameLength.toNat = name.length ∧
        f.valueLength.toNat = value.length ∧ Appended c c' f)

/-- What is left of a size in 16 or 32 bits exceeds its limit. -/
def NarrowedExceeds (config : SerializeConfig) (name value : Bytes) : Prop :=
  config.maxFieldNameLength.toNat < name.length % 2 ^ 16 ∨
    config.maxFieldValueLength.toNat < value.length % 2 ^ 32

/-- The sizes fit their widths, and the field, `overhead` bytes longer than its name and
its value, ends below `2^32`. -/
structure FitsWidths (c : SerializeCodec) (name value : Bytes) (overhead : ℕ) : Prop where
  nameLength : name.length < 2 ^ 16
  valueLength : value.length < 2 ^ 32
  build : c.currentIndex + (overhead + name.length + value.length) < 2 ^ 32

/-- The limits are compared with the declared lengths. -/
theorem exceedsLimit_iff {config : SerializeConfig} :
    exceedsLimit config f = true ↔ config.maxFieldNameLength.toNat < f.nameLength.toNat ∨
      config.maxFieldValueLength.toNat < f.valueLength.toNat := by
  simp [exceedsLimit]

/-- **A sized field within the limits is appended** while the build stays below `2^32`. -/
theorem serialize_appended (hf : f.Sized) (hlim : exceedsLimit c.config f = false)
    (hlt : c.currentIndex + f.wire.length < 2 ^ 32) : ∃ c', c.serialize host f = .ok c' ∧ Appended c c' f := by
  -- the build grows to the index plus the field, and the field is written at the index
  have hsize := SerializeField.serializedSize_eq (f := f) (by omega)
  obtain ⟨rest, hgrow⟩ := growTo_eq c.byteArrayBuild (c.currentIndex + f.wire.length)
  have hroom := growTo_length c.byteArrayBuild (c.currentIndex + f.wire.length)
  set grown := growTo c.byteArrayBuild (c.currentIndex + f.wire.length) with hgrown
  have htake : (grown.take c.currentIndex).length = c.currentIndex := by
    rw [List.length_take]
    omega
  have hfit : f.wire.length ≤ (grown.drop c.currentIndex).length := by
    rw [List.length_drop]
    omega
  have hwrite : writeAt (grown.take c.currentIndex ++ grown.drop c.currentIndex)
    (grown.take c.currentIndex).length
      f.wire = .ok (grown.take c.currentIndex ++ f.wire ++ (grown.drop c.currentIndex).drop f.wire.length) :=
    writeAt_append hfit
  rw [List.take_append_drop, htake] at hwrite
  unfold serialize
  rw [hlim]
  simp only [Bool.false_eq_true, if_false, hsize, ensureEnoughCapacityRestToBuild, u32_of_lt hlt, ← hgrown]
  rw [SerializeField.toSerializedByteArray_eq host hf (by omega), Checked.ok_bind, hwrite, Checked.ok_bind]
  refine ⟨_, rfl, ⟨?_, ?_, rfl, rfl⟩⟩
  · -- growing and writing behind the index leave what is in front of it
    have hprefix : c.byteArrayBuild.take c.currentIndex <+: grown.take c.currentIndex := by
      rw [hgrow, List.take_append]
      exact List.prefix_append _ _
    rw [List.append_assoc]
    exact hprefix.trans (List.prefix_append _ _)
  · exact ⟨grown.take c.currentIndex, _, rfl, htake⟩

/-- A call within the limits puts the field on the list, and its index stays below `2^32`. -/
theorem serialize_within (hlim : exceedsLimit c.config f = false) (h : c.serialize host f = .ok c') :
    c'.dataMapBuild = c.dataMapBuild ++ [entry f] ∧ c'.currentIndex < 2 ^ 32 := by
  unfold serialize at h
  rw [hlim] at h
  obtain ⟨bytes, -, h⟩ := Checked.bind_eq_ok.1 h
  obtain ⟨build, -, h⟩ := Checked.bind_eq_ok.1 h
  obtain rfl := Except.ok.inj h
  exact ⟨rfl, u32_lt _⟩

/-- **The law of one field**, of any declared lengths. -/
theorem lengthsExact_iff (host : Endian) (c : SerializeCodec) (f : SerializeField)
    (hname : f.nameLength = UInt16.ofNat f.name.length) (hvalue : f.valueLength = UInt32.ofNat f.value.length) :
    LengthsExact c f.name f.value (c.serialize host f) ↔ NarrowedExceeds c.config f.name f.value ∨
      FitsWidths c f.name f.value (4 + if f.carriesLength then 4 else 0) := by
  have hname' : f.nameLength.toNat = f.name.length % 2 ^ 16 := by rw [hname, UInt16.toNat_ofNat']
  have hvalue' : f.valueLength.toNat = f.value.length % 2 ^ 32 := by rw [hvalue, UInt32.toNat_ofNat']
  have hlimit : exceedsLimit c.config f = true ↔ NarrowedExceeds c.config f.name f.value := by
    rw [exceedsLimit_iff, hname', hvalue']
    rfl
  have hlength := f.wire_length
  by_cases hlim : exceedsLimit c.config f = true
  · -- a remainder beyond its limit: the size itself is beyond it, too
    have hnarrowed := hlimit.1 hlim
    refine iff_of_true ⟨c, serialize_exceeds host hlim, Or.inl ⟨rfl, ?_⟩⟩ (Or.inl hnarrowed)
    have hle := Nat.mod_le f.name.length (2 ^ 16)
    have hle' := Nat.mod_le f.value.length (2 ^ 32)
    unfold NarrowedExceeds at hnarrowed
    unfold ExceedsLimit
    omega
  rw [or_iff_right fun hnarrowed => hlim (hlimit.2 hnarrowed)]
  rw [Bool.not_eq_true] at hlim
  constructor
  · rintro ⟨c', e, h⟩
    obtain ⟨hmap, hindex⟩ := serialize_within hlim e
    rcases h with ⟨rfl, -⟩ | ⟨g, -, -, hgname, hgvalue, happ⟩
    · -- the codec cannot be as it was: its list has grown
      have hlist := congrArg List.length hmap
      rw [List.length_append, List.length_singleton] at hlist
      omega
    · -- the field that was put on the list is the one of the call
      have hg : g = f := by
        have hlast := List.append_cancel_left (happ.map.symm.trans hmap)
        exact congrArg Prod.snd (List.singleton_inj.1 hlast)
      subst hg
      have hend := happ.currentIndex
      exact ⟨by omega, by omega, by omega⟩
  · rintro ⟨hn, hv, hb⟩
    -- nothing is narrowed, so the declared lengths are the real ones
    have hf : f.Sized := ⟨by omega, by omega⟩
    have hlt : c.currentIndex + f.wire.length < 2 ^ 32 := by omega
    obtain ⟨c', e, happ⟩ := serialize_appended hf hlim hlt
    exact ⟨c', e, Or.inr ⟨f, rfl, rfl, hf.name, hf.value, happ⟩⟩

/-- **Length limits.** For a string and for a value of any type, on any codec. -/
theorem lengths_exact_iff (host : Endian) (c : SerializeCodec) (name : Bytes) :
    (∀ s : Bytes, LengthsExact c name s (c.serializeString host s name) ↔
      NarrowedExceeds c.config name s ∨ FitsWidths c name s 8) ∧
    ∀ (T : Type) [Scalar T] [HasDataType T] (x : T),
      LengthsExact c name (toByteArray host x) (c.serializeValue host x name) ↔
        NarrowedExceeds c.config name (toByteArray host x) ∨ FitsWidths c name (toByteArray host x) 4 := by
  constructor
  · intro s
    have hcarries : (stringField s name).carriesLength = true := SerializeField.carriesLength_of_flag rfl
    have h := lengthsExact_iff host c (stringField s name) rfl rfl
    rw [if_pos hcarries] at h
    exact h
  · intro T _ _ x
    have hcarries : (valueField host x name).carriesLength = false := SerializeField.carriesLength_of_none rfl
    have h := lengthsExact_iff host c (valueField host x name) rfl rfl
    rw [hcarries] at h
    exact h

/-- A name of `2^16` bytes declares none and passes the limit of 128. -/
theorem longName_declaresNone :
    ¬LengthsExact (new .default) (List.replicate 65536 97) (toByteArray .little (7 : UInt8))
      ((new .default).serializeValue .little (7 : UInt8) (List.replicate 65536 97)) := by
  have hlength : (List.replicate 65536 (97 : UInt8)).length = 65536 := List.length_replicate
  have hvalue : (toByteArray .little (7 : UInt8)).length = 1 := rfl
  have h := lengthsExact_iff .little (new .default)
    (valueField .little (7 : UInt8) (List.replicate 65536 97)) rfl rfl
  intro hexact
  rcases h.1 hexact with hnarrowed | hfits
  · unfold NarrowedExceeds valueField at hnarrowed
    simp only [hlength, hvalue] at hnarrowed
    revert hnarrowed
    decide
  · have hn := hfits.nameLength
    unfold valueField at hn
    simp only [hlength] at hn
    omega

end SerializeCodec

end ProjectTrans
