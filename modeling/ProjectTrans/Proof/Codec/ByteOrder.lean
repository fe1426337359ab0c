import ProjectTrans.Proof.Codec.RoundTrip
import ProjectTrans.Proof.Codec.Typed

/-!
# From one host to another

A message with one typed field is built on a host and read on another, of the same
byte order or not. A vector of two elements or more goes out element by element in
network byte order and is read anywhere (`readsVector_iff`); an empty one is not
written, and one of a single element is written as a plain value, which `to_array` does
not take. A plain value goes out as it lies in memory, byte by byte, and comes in the
same way, so the hosts have to agree on its bytes (`byteOrder_iff`).
-/

namespace ProjectTrans

open Wire

namespace SerializeCodec

variable (writer reader : Endian) (config config' : SerializeConfig)

/-! ## One field -/

/-- The other host finds a field of that name in the message, and `p` holds of it. -/
def Finds (message : Checked Bytes) (name : Bytes) (p : SerializeField → Prop) : Prop :=
  ∃ bytes c field, message = .ok bytes ∧ (new config').deserialize reader bytes = .ok c ∧
    c.getParsedField name = some field ∧ p field

/-- The name can be written: its length has 16 bits and is within the limit. -/
def NameFits (config : SerializeConfig) (name : Bytes) : Prop :=
  name.length < 2 ^ 16 ∧ name.length ≤ config.maxFieldNameLength.toNat

instance (config : SerializeConfig) (name : Bytes) : Decidable (NameFits config name) :=
  inferInstanceAs (Decidable (_ ∧ _))

variable {name : Bytes} {f : SerializeField} {p : SerializeField → Prop}

/-- What is read of a message whose fields come back. -/
theorem RoundTrips.finds_iff {fs : List SerializeField} (h : RoundTrips writer reader config config' fs []) :
    Finds reader config' (buildMessage writer config fs) name p ↔
      ∃ f, (kept config fs).find? (fun f => f.name == name) = some f ∧ p f := by
  obtain ⟨bytes, c, hbuild, hparse, hmap⟩ := h
  rw [List.append_nil] at hparse
  have hfind := getParsedField_eq name hmap
  constructor
  · rintro ⟨bytes', c', f, hbuild', hparse', hfield, hp⟩
    obtain rfl : bytes = bytes' := Except.ok.inj (hbuild.symm.trans hbuild')
    obtain rfl : c = c' := Except.ok.inj (hparse.symm.trans hparse')
    exact ⟨f, hfind.symm.trans hfield, hp⟩
  · rintro ⟨f, hfield, hp⟩
    exact ⟨bytes, c, f, hbuild, hparse, hfind.trans hfield, hp⟩

/-- In a message without fields nothing is found. -/
theorem not_finds_nil : ¬Finds reader config' (buildMessage writer config []) name p := by
  have hnil : RoundTrips writer reader config config' [] [] :=
    (roundTrips_iff writer reader).2 ⟨by simp [kept], by simp [kept], by simp [kept, frame_length]⟩
  rw [hnil.finds_iff]
  rintro ⟨f, hf, -⟩
  cases hf

/-- **A field alone in its message** is found with all its parts, if it can be written. -/
theorem finds_iff (hname : f.nameLength = UInt16.ofNat f.name.length)
    (hvalue : f.valueLength.toNat = f.value.length)
    (hlength : f.carriesLength = true ∨ getDataTypeLength f.type = f.valueLength) :
    Finds reader config' (buildMessage writer config [f]) f.name p ↔
      NameFits config f.name ∧ f.value.length ≤ config.maxFieldValueLength.toNat ∧
        (frame [f]).length < 2 ^ 32 ∧ p f := by
  have hnat : f.name.length < 2 ^ 16 → f.nameLength.toNat = f.name.length := by
    intro hn
    rw [hname, UInt16.toNat_ofNat']
    exact Nat.mod_eq_of_lt hn
  by_cases hlim : exceedsLimit config f = true
  · -- the field is skipped, and the message is empty
    have hskip : buildMessage writer config [f] = buildMessage writer config [] := by
      unfold buildMessage
      rw [List.foldlM_cons, serialize_exceeds writer hlim]
      rfl
    rw [hskip]
    refine iff_of_false (not_finds_nil writer reader config config') ?_
    rintro ⟨⟨hn, hmax⟩, hvmax, -⟩
    have hwithin : exceedsLimit config f = false :=
      exceedsLimit_eq_false.2 ⟨by rwa [hnat hn], by rwa [hvalue]⟩
    rw [hlim] at hwithin
    cases hwithin
  rw [Bool.not_eq_true] at hlim
  have hkept : kept config [f] = [f] := by rw [kept_cons_within hlim]; rfl
  have hone : ∀ P : SerializeField → Prop, (∀ g ∈ kept config [f], P g) ↔ P f := by
    intro P
    rw [hkept]
    simp
  have hwell : f.name.length < 2 ^ 16 → f.WellFormed := fun hn => ⟨⟨hnat hn, hvalue⟩, hlength⟩
  have hback : f.name.length < 2 ^ 16 → (frame [f]).length < 2 ^ 32 →
      RoundTrips writer reader config config' [f] [] := fun hn hlt =>
    (roundTrips_iff writer reader).2 ⟨(hone _).2 (hwell hn), by rw [hkept]; simp, by rwa [hkept]⟩
  have hfind : (kept config [f]).find? (fun g => g.name == f.name) = some f := by rw [hkept]; simp
  constructor
  · rintro ⟨bytes, c, g, hbuild, hparse, hfield, hp⟩
    -- every parsed name can be counted in 16 bits, and this one is the field's
    have hn : f.name.length < 2 ^ 16 := by
      obtain ⟨gs, hgs, hw, -⟩ := deserialize_new_wellFormed reader hparse
      rw [getParsedField_eq f.name hgs] at hfield
      have hgname : g.name = f.name := by simpa using List.find?_some hfield
      have hglength := (hw g (List.mem_of_find?_eq_some hfield)).name
      rw [hgname] at hglength
      rw [← hglength]
      exact g.nameLength.toNat_lt
    have hlt : (frame [f]).length < 2 ^ 32 := by
      have hfit := buildMessage_fits writer ((hone _).2 (hwell hn).toSized) hbuild
      rwa [hkept] at hfit
    obtain ⟨h, hh, hph⟩ := (hback hn hlt).finds_iff.1 ⟨bytes, c, g, hbuild, hparse, hfield, hp⟩
    obtain rfl : f = h := Option.some.inj (hfind.symm.trans hh)
    obtain ⟨hmax, hvmax⟩ := exceedsLimit_eq_false.1 hlim
    exact ⟨⟨hn, by rwa [hnat hn] at hmax⟩, by rwa [hvalue] at hvmax, hlt, hph⟩
  · rintro ⟨⟨hn, -⟩, -, hlt, hp⟩
    exact (hback hn hlt).finds_iff.2 ⟨f, hfind, hp⟩

/-! ## Values -/

section Values

variable {T : Type} [IntegerType T]

/-- A value that is written on one host is read as the same value on the other. -/
def ReadsValue (x : T) (name : Bytes) : Prop :=
  Finds reader config' (do
    let c ← (new config).serializeValue writer x name
    let (message, _) ← c.getSerializedDataVectorBuild writer
    return message) name fun field => toValue T reader field = some x

/-- The two hosts have the value's bytes in the same order. -/
theorem objectBytes_eq_iff (x : T) :
    objectBytes writer x = objectBytes reader x ↔
      writer = reader ∨ objectBytes .little x = objectBytes .big x := by
  cases writer <;> cases reader <;> simp [eq_comm]

/-- The bytes of a value are read as they lie. -/
theorem toValue_valueField_iff (x : T) (name : Bytes) :
    toValue T reader (valueField writer x name) = some x ↔
      writer = reader ∨ objectBytes .little x = objectBytes .big x := by
  have htake : (objectBytes writer x).take (Scalar.width T) = objectBytes writer x :=
    List.take_of_length_le (by simp)
  have hread : toValue T reader (valueField writer x name) =
      some (ofObject T reader (objectBytes writer x)) := by
    simp [toValue, tryCast, valueField, htake, toByteArray]
  rw [hread, Option.some.injEq, ofObject_objectBytes_iff, objectBytes_eq_iff]

/-- A value alone in its message is found when its name and its bytes are within the limits. -/
theorem finds_valueField_iff (x : T) :
    Finds reader config' (buildMessage writer config [valueField writer x name]) name p ↔
      NameFits config name ∧ Scalar.width T ≤ config.maxFieldValueLength.toNat ∧ p
        (valueField writer x name) := by
  have hw := IntegerType.width_le T
  have hlength : (valueField writer x name).value.length = Scalar.width T := by simp [valueField, toByteArray]
  have hvalue : (valueField writer x name).valueLength.toNat = Scalar.width T := by
    rw [← hlength, valueField, UInt32.toNat_ofNat']
    simp only [valueField] at hlength
    exact Nat.mod_eq_of_lt (by omega)
  -- the declared width of the type is that of its value
  have htype : getDataTypeLength (getDataType T) = (valueField writer x name).valueLength :=
    UInt32.toNat_inj.1 (IntegerType.length_eq.trans hvalue.symm)
  have hframe : (frame [valueField writer x name]).length = 20 + name.length + Scalar.width T := by
    rw [frame_length, List.flatMap_singleton, valueField_wire_length]
    omega
  have hfinds := finds_iff writer reader config config' (f := valueField writer x name) (p := p) rfl
    (hvalue.trans hlength.symm) (Or.inr htype)
  rw [valueField_name, hlength, hframe] at hfinds
  rw [hfinds]
  constructor
  · rintro ⟨hn, hv, -, hp⟩
    exact ⟨hn, hv, hp⟩
  · rintro ⟨hn, hv, hp⟩
    have hn16 := hn.1
    exact ⟨hn, hv, by omega, hp⟩

/-- **A value arrives** exactly when it can be written and the hosts agree on its bytes. -/
theorem readsValue_iff (x : T) (name : Bytes) :
    ReadsValue writer reader config config' x name ↔
      NameFits config name ∧ Scalar.width T ≤ config.maxFieldValueLength.toNat ∧
        (writer = reader ∨ objectBytes .little x = objectBytes .big x) := by
  have hmessage : ReadsValue writer reader config config' x name ↔
      Finds reader config' (buildMessage writer config [valueField writer x name]) name
        fun field => toValue T reader field = some x := by
    unfold ReadsValue buildMessage
    rw [List.foldlM_cons, serializeValue_eq]
    simp
  rw [hmessage, finds_valueField_iff, toValue_valueField_iff]

end Values

/-! ## Vectors -/

section Vectors

variable {T : Type} [IntegerType T]

/-- The message with one vector. -/
def vectorMessage (config : SerializeConfig) (xs : List T) (name : Bytes) : Checked Bytes := do
  let c ← (new config).serializeVector writer xs name
  let (message, _) ← c.getSerializedDataVectorBuild writer
  return message

/-- A vector that is written on one host is read as the same vector on the other. -/
def ReadsVector (xs : List T) (name : Bytes) : Prop :=
  Finds reader config' (vectorMessage writer config xs name) name fun field => toArray T reader field = .ok xs

/-- A vector that can be encoded is written as its fields. -/
theorem vectorMessage_eq {xs : List T} (h : 10 + Scalar.width T * xs.length < 2 ^ 32) (name : Bytes) :
    vectorMessage writer config xs name = buildMessage writer config (vectorFields writer xs name) := by
  unfold vectorMessage
  rw [serializeVector_eq writer _ name h]
  rfl

/-- The elements of a vector that was written take less than `2^32` bytes. -/
theorem vectorMessage_fits {xs : List T} {message : Bytes} (htwo : 2 ≤ xs.length) (hlt : xs.length < 2 ^ 32)
    (h : vectorMessage writer config xs name = .ok message) : 10 + Scalar.width T * xs.length < 2 ^ 32 := by
  have hsize : (UInt32.ofNat xs.length).toNat = xs.length := by
    rw [UInt32.toNat_ofNat']
    exact Nat.mod_eq_of_lt hlt
  obtain ⟨c, hserialize, -⟩ := Checked.bind_eq_ok.1 h
  have hfit := serializePointer_fits writer (by omega) hsize.le hserialize
  rwa [hsize] at hfit

/-- A vector that was read can be counted in 32 bits. -/
theorem toArray_length_lt {host : Endian} {field : SerializeField} {xs : List T}
    (h : toArray T host field = .ok xs) : xs.length < 2 ^ 32 := by
  unfold toArray at h
  obtain ⟨parsed, -, h⟩ := Checked.bind_eq_ok.1 h
  cases parsed with
  | none => rw [← Except.ok.inj h]; norm_num
  | some a =>
    dsimp only at h
    split at h
    · rw [← Except.ok.inj h]; norm_num
    · split at h
      · rw [← Except.ok.inj h]; norm_num
      · rw [readElements_length _ h]
        exact a.elementCount.toNat_lt

/-- An array alone in its message is found when it can be written. -/
theorem finds_arrayField_iff {xs : List T} (hfit : 10 + Scalar.width T * xs.length < 2 ^ 32) :
    Finds reader config' (buildMessage writer config [arrayField xs name]) name p ↔
      NameFits config name ∧ 10 + Scalar.width T * xs.length ≤ config.maxFieldValueLength.toNat ∧
        34 + name.length + Scalar.width T * xs.length < 2 ^ 32 ∧ p (arrayField xs name) := by
  have hlength : (arrayField xs name).value.length = 10 + Scalar.width T * xs.length :=
    arrayValue_wire_length xs
  have hvalue : (arrayField xs name).valueLength.toNat = (arrayField xs name).value.length := by
    rw [hlength, arrayField, UInt32.toNat_ofNat', arrayValue_wire_length]
    exact Nat.mod_eq_of_lt hfit
  have hflag : (arrayField xs name).carriesLength = true := SerializeField.carriesLength_of_flag rfl
  have hframe : (frame [arrayField xs name]).length = 34 + name.length + Scalar.width T * xs.length := by
    rw [frame_length, List.flatMap_singleton, arrayField_wire_length]
    omega
  have hfinds := finds_iff writer reader config config' (f := arrayField xs name)
    (p := p) rfl hvalue (Or.inl hflag)
  rw [arrayField_name, hlength, hframe] at hfinds
  exact hfinds

/-- **A vector arrives**, on a host of either byte order, exactly when it has two
elements at least and can be written. -/
theorem readsVector_iff (xs : List T) (name : Bytes) :
    ReadsVector writer reader config config' xs name ↔
      2 ≤ xs.length ∧ NameFits config name ∧
        10 + Scalar.width T * xs.length ≤ config.maxFieldValueLength.toNat ∧
        34 + name.length + Scalar.width T * xs.length < 2 ^ 32 := by
  by_cases hfit : 10 + Scalar.width T * xs.length < 2 ^ 32
  · unfold ReadsVector
    rw [vectorMessage_eq writer config hfit]
    rcases xs with _ | ⟨x, _ | ⟨y, zs⟩⟩
    · -- no field at all
      refine iff_of_false (not_finds_nil writer reader config config') ?_
      rintro ⟨htwo, -⟩
      simp at htwo
    · -- a plain value, which is no array
      rw [vectorFields, finds_valueField_iff, toArray_valueField]
      simp
    · -- an array
      rw [vectorFields, finds_arrayField_iff writer reader config config' hfit,
        toArray_arrayField reader name hfit]
      simp
  · -- too long for any message that could be written or read
    refine iff_of_false ?_ (by omega)
    rintro ⟨bytes, c, field, hbuild, -, -, harray⟩
    have hw := IntegerType.width_le T
    have hle := Nat.mul_le_mul_right xs.length hw
    exact hfit (vectorMessage_fits writer config (by omega) (toArray_length_lt harray) hbuild)

end Vectors

/-! ## Both -/

section Both

variable {T : Type} [IntegerType T]

/-- **Byte order.** A value is the same number on the other host exactly when the hosts
have one byte order or its bytes read the same both ways. A vector of two elements or
more is the same on any host. -/
theorem byteOrder_iff :
    (∀ (x : T) (name : Bytes), ReadsValue writer reader config config' x name ↔
      NameFits config name ∧ Scalar.width T ≤ config.maxFieldValueLength.toNat ∧
        (writer = reader ∨ objectBytes .little x = objectBytes .big x)) ∧
    ∀ (xs : List T) (name : Bytes), ReadsVector writer reader config config' xs name ↔
      2 ≤ xs.length ∧ NameFits config name ∧
        10 + Scalar.width T * xs.length ≤ config.maxFieldValueLength.toNat ∧
        34 + name.length + Scalar.width T * xs.length < 2 ^ 32 :=
  ⟨readsValue_iff writer reader config config', readsVector_iff writer reader config config'⟩

/-- The number one of a little-endian host is not read on a big-endian one. -/
theorem one_notRead : ¬ReadsValue .little .big .default .default (1 : UInt16) (ascii "n") := by
  rw [readsValue_iff]
  decide

/-- **Vectors there and back**: of the vectors whose message can be written, those of two
elements or more, and only those, are found under their name and read by `to_array`. -/
theorem vector_roundTrip_iff (xs : List T) {name : Bytes} (hname : NameFits config name)
    (hvalue : 10 + Scalar.width T * xs.length ≤ config.maxFieldValueLength.toNat)
    (hlt : 34 + name.length + Scalar.width T * xs.length < 2 ^ 32) :
    ReadsVector writer reader config config' xs name ↔ 2 ≤ xs.length := by
  rw [readsVector_iff]
  exact and_iff_left ⟨hname, hvalue, hlt⟩

/-- Three numbers, sent to a host of the other byte order. -/
theorem vector_roundTrip_three :
    ReadsVector .little .big .default .default ([1, 2, 3] : List UInt32) (ascii "v") ↔ 2 ≤ 3 :=
  vector_roundTrip_iff .little .big .default .default [1, 2, 3] (by decide) (by decide) (by decide)

/-- Neither the empty vector nor a single element comes back. -/
theorem shortVectors_notRead :
    ¬ReadsVector .little .little .default .default ([] : List UInt8) (ascii "v") ∧
      ¬ReadsVector .little .little .default .default ([7] : List UInt8) (ascii "v") := by
  rw [readsVector_iff, readsVector_iff]
  decide

end Both

end SerializeCodec

end ProjectTrans
