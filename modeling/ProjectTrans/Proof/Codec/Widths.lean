import ProjectTrans.Model.Codec.TypedCall
import ProjectTrans.Proof.Codec.RoundTrip
import ProjectTrans.Proof.Codec.Typed

/-!
# What is written and what is consumed

The encoder writes a value with all its bytes and sends no length for a plain one; the
decoder takes the length of a plain value from the table of type lengths. Where the two
differ, every later field is parsed from the wrong place. `widthsAgree_iff`: **each
field of a message is consumed as it was written, and comes out under its own name,
exactly when** each call that wrote one is of a type the two agree on, and lengths and
counts fit their widths.
-/

namespace ProjectTrans

open Wire SerializeCodec

variable (host : Endian)

namespace TypedCall

/-- How many elements of a vector are written: its size is passed on in 32 bits. -/
def written (n : ℕ) : ℕ := (UInt32.ofNat n).toNat

theorem written_le (n : ℕ) : written n ≤ n := by
  rw [written, UInt32.toNat_ofNat']
  exact Nat.mod_le _ _

theorem written_lt (n : ℕ) : written n < 2 ^ 32 := (UInt32.ofNat n).toNat_lt

/-- The field of a `const char*`. -/
def cStringField (data name : Bytes) : SerializeField :=
  ⟨UInt16.ofNat name.length, name, .string, .none, 1, [data.headD 0]⟩

/-- The fields of a vector of `char`. -/
def charFields (data name : Bytes) : List SerializeField :=
  match data with
  | [] => []
  | [b] => [⟨UInt16.ofNat name.length, name, .unknown, .none, 1, [b]⟩]
  | s => [stringField s name]

/-- The fields a call hands on, of which there is at most one. -/
def fields : TypedCall × Bytes → List SerializeField
  | (value _ data, name) => [valueField host data name]
  | (string data, name) => [stringField data name]
  | (cString data, name) => [cStringField data name]
  | (vector _ data, name) => vectorFields host (data.take (written data.length)) name
  | (chars data, name) => charFields (data.take (written data.length)) name

/-- The array value of a vector is shorter than `2^32`. -/
def Encodable : TypedCall → Prop
  | vector t data => 1 < written data.length → 10 + t.size * written data.length < 2 ^ 32
  | _ => True

/-- **The two sides agree** on the length of what the call writes: a value whose type is in
the table of lengths, or what is written with its length. -/
def Agrees : TypedCall → Prop
  | value t _ => t.HasLength
  | string data => data.length < 2 ^ 32
  | cString _ => False
  | vector t data => written data.length = 1 → t.HasLength
  | chars data => written data.length ≠ 1

/-- A vector of `char` is serialized as its fields. -/
theorem serializeChars_eq (c : SerializeCodec) (data name : Bytes) :
    c.serializeChars host data name =
      (charFields (data.take (written data.length)) name).foldlM (serialize host) c := by
  have hsize : (UInt32.ofNat data.length).toNat ≤ data.length := written_le _
  unfold serializeChars written
  generalize UInt32.ofNat data.length = size at hsize ⊢
  have hlength : (data.take size.toNat).length = size.toNat := List.length_take_of_le hsize
  have hcases : size.toNat = 0 ∨ size.toNat = 1 ∨ 1 < size.toNat := by omega
  rcases hcases with hzero | hone | hmany
  · -- an empty text writes nothing, also where its length has wrapped to zero
    have hz : size = 0 := UInt32.toNat_inj.1 hzero
    rw [if_pos (Or.inr hz), hzero]
    rfl
  · have h1 : ¬(1 : UInt32) < size := by
      rw [UInt32.lt_iff_toNat_lt, hone]
      decide
    rw [if_neg (pointer_notSkipped (by omega) hsize), if_neg h1]
    rw [hone] at hlength ⊢
    obtain ⟨b, hb⟩ := List.length_eq_one_iff.1 hlength
    rw [hb]
    exact (bind_pure _).symm
  · have h1 : (1 : UInt32) < size := UInt32.lt_iff_toNat_lt.2 hmany
    rw [if_neg (pointer_notSkipped (by omega) hsize), if_pos h1]
    rcases htake : data.take size.toNat with _ | ⟨x, _ | ⟨y, zs⟩⟩
    · rw [htake, List.length_nil] at hlength
      omega
    · rw [htake, List.length_singleton] at hlength
      omega
    · exact (bind_pure _).symm

/-- **A typed call** serializes its fields. -/
theorem serializeTyped_eq {call : TypedCall × Bytes} (h : call.1.Encodable) (c : SerializeCodec) :
    c.serializeTyped host call = (fields host call).foldlM (serialize host) c := by
  obtain ⟨call, name⟩ := call
  cases call with
  | value t data => exact (bind_pure _).symm
  | string data => exact (bind_pure _).symm
  | cString data => exact (bind_pure _).symm
  | vector t data => exact serializePointer_eq host c name (written_le _) h
  | chars data => exact serializeChars_eq host c data name

/-- A call that wrote its fields had an array value that can be encoded. -/
theorem encodable_of_ok {call : TypedCall × Bytes} {c c' : SerializeCodec}
    (h : c.serializeTyped host call = .ok c') : call.1.Encodable := by
  obtain ⟨call, name⟩ := call
  cases call with
  | vector t data =>
    intro hmany
    exact serializePointer_fits host hmany (written_le _) h
  | _ => trivial

/-- One call after another serializes all the fields. -/
theorem foldlM_serializeTyped_iff (calls : List (TypedCall × Bytes)) : ∀ {c c' : SerializeCodec},
    calls.foldlM (serializeTyped host) c = .ok c' ↔
      (∀ call ∈ calls, call.1.Encodable) ∧ (calls.flatMap (fields host)).foldlM (serialize host) c = .ok c' := by
  induction calls with
  | nil => intro c c'; simp
  | cons call calls ih =>
    intro c c'
    rw [List.foldlM_cons, Checked.bind_eq_ok, List.flatMap_cons, List.foldlM_append, Checked.bind_eq_ok]
    constructor
    · rintro ⟨c₁, h₁, h⟩
      have hcall := encodable_of_ok host h₁
      obtain ⟨hcalls, hrest⟩ := ih.1 h
      rw [serializeTyped_eq host hcall] at h₁
      exact ⟨List.forall_mem_cons.2 ⟨hcall, hcalls⟩, c₁, h₁, hrest⟩
    · rintro ⟨hall, c₁, h₁, h⟩
      obtain ⟨hcall, hcalls⟩ := List.forall_mem_cons.1 hall
      rw [← serializeTyped_eq host hcall] at h₁
      exact ⟨c₁, h₁, ih.2 ⟨hcalls, h⟩⟩

/-! ## Which fields are well formed -/

/-- The name of a typed field is sized when its length has 16 bits. -/
theorem nameLength_iff (name : Bytes) :
    (UInt16.ofNat name.length).toNat = name.length ↔ name.length < 2 ^ 16 := by
  rw [UInt16.toNat_ofNat']
  omega

theorem valueField_wellFormed_iff (t : CopyableType) (data : Object t) (name : Bytes) :
    (valueField host data name).WellFormed ↔ name.length < 2 ^ 16 ∧ t.HasLength := by
  have hwidth : (toByteArray host data).length = t.size := by simp [toByteArray, Scalar.width]
  have hflag : (valueField host data name).carriesLength = false := SerializeField.carriesLength_of_none rfl
  constructor
  · intro h
    have hvalue : (valueField host data name).valueLength.toNat = t.size := h.value.trans hwidth
    have hlength := h.length.resolve_left (by rw [hflag]; decide)
    refine ⟨(nameLength_iff name).1 h.name, ?_⟩
    exact (congrArg UInt32.toNat hlength).trans hvalue
  · rintro ⟨hname, ht⟩
    have hlt := (getDataTypeLength t.dataType).toNat_lt
    have hvalue : (valueField host data name).valueLength.toNat = t.size := by
      simp only [valueField, hwidth, UInt32.toNat_ofNat']
      rw [← ht]
      exact Nat.mod_eq_of_lt hlt
    refine ⟨⟨(nameLength_iff name).2 hname, hvalue.trans hwidth.symm⟩, Or.inr ?_⟩
    exact UInt32.toNat_inj.1 (ht.trans hvalue.symm)

theorem stringField_wellFormed_iff (data name : Bytes) :
    (stringField data name).WellFormed ↔ name.length < 2 ^ 16 ∧ data.length < 2 ^ 32 := by
  constructor
  · intro h
    have hvalue : (UInt32.ofNat data.length).toNat = data.length := h.value
    rw [UInt32.toNat_ofNat'] at hvalue
    exact ⟨(nameLength_iff name).1 h.name, by omega⟩
  · rintro ⟨hname, hdata⟩
    exact stringField_wellFormed hname hdata

theorem arrayField_wellFormed_iff {t : CopyableType} {data : List (Object t)} (name : Bytes)
    (hfit : 10 + t.size * data.length < 2 ^ 32) :
    (arrayField data name).WellFormed ↔ name.length < 2 ^ 16 :=
  ⟨fun h => (nameLength_iff name).1 h.name, fun h => arrayField_wellFormed h hfit⟩

/-- A plain field of one byte whose type has no length in the table. -/
theorem not_wellFormed_one {name : Bytes} {type : DataType} {b : UInt8} (h : getDataTypeLength type = 0) :
    ¬SerializeField.WellFormed ⟨UInt16.ofNat name.length, name, type, .none, 1, [b]⟩ := by
  rintro ⟨-, hlength⟩
  rcases hlength with hflag | htable
  · rw [SerializeField.carriesLength_of_none rfl] at hflag
    cases hflag
  · have hzero : (0 : UInt32) = 1 := h.symm.trans htable
    exact absurd hzero (by decide)

/-- **The field of a call** is well formed when its name fits and the two sides agree. -/
theorem fields_wellFormed_iff {call : TypedCall × Bytes} (h : call.1.Encodable) {f : SerializeField}
    (hf : f ∈ fields host call) : f.WellFormed ↔ call.2.length < 2 ^ 16 ∧ call.1.Agrees := by
  obtain ⟨call, name⟩ := call
  cases call with
  | value t data =>
    obtain rfl := List.mem_singleton.1 hf
    exact valueField_wellFormed_iff host t data name
  | string data =>
    obtain rfl := List.mem_singleton.1 hf
    exact stringField_wellFormed_iff data name
  | cString data =>
    obtain rfl := List.mem_singleton.1 hf
    exact iff_of_false (not_wellFormed_one rfl) fun h => h.2
  | vector t data =>
    have hlength : (data.take (written data.length)).length = written data.length :=
      List.length_take_of_le (written_le _)
    simp only [fields] at hf
    simp only [Encodable, Agrees] at h ⊢
    -- what counts is how many elements are written: none, one or more
    generalize data.take (written data.length) = ys at hf hlength
    rw [← hlength] at h ⊢
    rcases ys with _ | ⟨x, _ | ⟨y, zs⟩⟩
    · cases hf
    · obtain rfl := List.mem_singleton.1 hf
      rw [valueField_wellFormed_iff]
      simp
    · obtain rfl := List.mem_singleton.1 hf
      rw [arrayField_wellFormed_iff name (h (by simp))]
      simp
  | chars data =>
    have hlength : (data.take (written data.length)).length = written data.length :=
      List.length_take_of_le (written_le _)
    have hlt := written_lt data.length
    simp only [fields] at hf
    simp only [Agrees]
    generalize data.take (written data.length) = ys at hf hlength
    rw [← hlength] at hlt ⊢
    rcases ys with _ | ⟨x, _ | ⟨y, zs⟩⟩
    · cases hf
    · obtain rfl := List.mem_singleton.1 hf
      exact iff_of_false (not_wellFormed_one rfl) fun h => h.2 rfl
    · obtain rfl := List.mem_singleton.1 hf
      rw [stringField_wellFormed_iff]
      simp only [List.length_cons] at hlt ⊢
      exact and_congr_right fun _ => iff_of_true hlt (by omega)

/-! ## Messages of typed calls -/

/-- The message a fresh codec makes of typed calls. -/
def buildTyped (config : SerializeConfig) (calls : List (TypedCall × Bytes)) : Checked Bytes := do
  let c ← calls.foldlM (serializeTyped host) (new config)
  let (message, _) ← c.getSerializedDataVectorBuild host
  return message

/-- The fields of the calls that are within the limits. -/
def writtenFields (config : SerializeConfig) (calls : List (TypedCall × Bytes)) : List SerializeField :=
  kept config (calls.flatMap (fields host))

variable (host' : Endian) (config config' : SerializeConfig) (calls : List (TypedCall × Bytes))

/-- The decoder's round for each field that was written starts and ends where the field
does, and the fields come out, each under its own name. -/
def WidthsAgree : Prop :=
  ∃ message c, buildTyped host config calls = .ok message ∧ (new config').deserialize host' message = .ok c ∧
    c.getParsedDataMap = (writtenFields host config calls).map entry ∧
    ∀ before f after, writtenFields host config calls = before ++ f :: after →
      deserializeField host' message (frame before).length = .ok (f, (frame (before ++ [f])).length)

/-- A message of typed calls is one of their fields. -/
theorem buildTyped_iff {message : Bytes} :
    buildTyped host config calls = .ok message ↔
      (∀ call ∈ calls, call.1.Encodable) ∧
        buildMessage host config (calls.flatMap (fields host)) = .ok message := by
  unfold buildTyped buildMessage
  rw [Checked.bind_eq_ok, Checked.bind_eq_ok]
  simp only [foldlM_serializeTyped_iff]
  constructor
  · rintro ⟨c, ⟨hall, hbuild⟩, hget⟩
    exact ⟨hall, c, hbuild, hget⟩
  · rintro ⟨hall, c, hbuild, hget⟩
    exact ⟨c, ⟨hall, hbuild⟩, hget⟩

/-- In a frame a round of the decoder consumes one field. -/
theorem deserializeField_frame {fs before after : List SerializeField} {f : SerializeField}
    (hfs : fs = before ++ f :: after) (hf : f.WellFormed) (hlt : (frame fs).length < 2 ^ 32) :
    deserializeField host (frame fs) (frame before).length = .ok (f, (frame (before ++ [f])).length) := by
  have hframe : (frame (before ++ [f])).length = (frame before).length + f.wire.length := by
    simp [frame_length, Nat.add_assoc]
  have hsplit : frame fs = (frameHeader fs).wire ++ before.flatMap SerializeField.wire ++ f.wire ++
      after.flatMap SerializeField.wire := by
    rw [frame, hfs]
    simp
  have hfront : ((frameHeader fs).wire ++ before.flatMap SerializeField.wire).length = (frame before).length := by
    rw [frame_length, List.length_append, SerializeHeader.wire_length]
  have hfits : (frame before).length + f.wire.length ≤ (frame fs).length := by
    rw [hsplit, List.length_append, List.length_append, hfront]
    omega
  refine deserializeField_iff.2 ⟨hf, ?_, ?_⟩
  · refine (laidOut_iff_liesAt _ _ (by omega) ?_).2 ⟨_, _, hsplit, hfront⟩
    show (frame before).length + f.wire.length < 2 ^ 32
    omega
  · rw [hframe, u32_of_lt (by omega)]

/-- **The widths agree** exactly when every call can be encoded, every field that is within
the limits has a name that fits and is of a call the two sides agree on, and the message
is no longer than its header can tell. -/
theorem widthsAgree_iff :
    WidthsAgree host host' config config' calls ↔
      (∀ call ∈ calls, call.1.Encodable) ∧
      (∀ call ∈ calls, ∀ f ∈ fields host call, exceedsLimit config f = false →
        call.2.length < 2 ^ 16 ∧ call.1.Agrees) ∧
      (writtenFields host config calls).length < 2 ^ 16 ∧
      (frame (writtenFields host config calls)).length < 2 ^ 32 := by
  have hcond : (∀ call ∈ calls, call.1.Encodable) →
      ((∀ f ∈ writtenFields host config calls, f.WellFormed) ↔
        ∀ call ∈ calls, ∀ f ∈ fields host call, exceedsLimit config f = false →
          call.2.length < 2 ^ 16 ∧ call.1.Agrees) := by
    intro hall
    constructor
    · intro h call hcall f hf hlim
      rw [← fields_wellFormed_iff host (hall call hcall) hf]
      refine h f (List.mem_filter.2 ⟨List.mem_flatMap.2 ⟨call, hcall, hf⟩, ?_⟩)
      rw [hlim]
      rfl
    · intro h f hf
      obtain ⟨hf, hlim⟩ := List.mem_filter.1 hf
      obtain ⟨call, hcall, hf⟩ := List.mem_flatMap.1 hf
      exact (fields_wellFormed_iff host (hall call hcall) hf).2 (h call hcall f hf (by simpa using hlim))
  -- the list of calls is parsed back exactly when the list of its fields is
  have hback : RoundTrips host host' config config' (calls.flatMap (fields host)) [] ↔
      (∀ f ∈ writtenFields host config calls, f.WellFormed) ∧
        (writtenFields host config calls).length < 2 ^ 16 ∧
        (frame (writtenFields host config calls)).length < 2 ^ 32 :=
    roundTrips_iff host host'
  constructor
  · rintro ⟨message, c, hbuild, hparse, hmap, -⟩
    obtain ⟨hall, hbuild⟩ := (buildTyped_iff host config calls).1 hbuild
    obtain ⟨hw, hcount, hlt⟩ := hback.1 ⟨message, c, hbuild, by rwa [List.append_nil], hmap⟩
    exact ⟨hall, (hcond hall).1 hw, hcount, hlt⟩
  · rintro ⟨hall, hagree, hcount, hlt⟩
    have hw := (hcond hall).2 hagree
    obtain ⟨message, c, hbuild, hparse, hmap⟩ := hback.2 ⟨hw, hcount, hlt⟩
    rw [List.append_nil] at hparse
    have hframe : message = frame (writtenFields host config calls) := by
      have hbuilt := build_eq host config (fun f hf => (hw f hf).toSized) hlt
      exact Except.ok.inj (hbuild.symm.trans hbuilt)
    refine ⟨message, c, (buildTyped_iff host config calls).2 ⟨hall, hbuild⟩, hparse, hmap, ?_⟩
    intro before f after hsplit
    have hf : f ∈ writtenFields host config calls := by
      rw [hsplit]
      simp
    rw [hframe]
    exact deserializeField_frame host' hsplit (hw f hf) hlt

/-- A boolean and the number after it: the boolean is taken to have no byte at all, so its
byte is read as the next field's name length. -/
theorem bool_widthsDiffer :
    ¬WidthsAgree .little .little .default .default
      [(value .bool ⟨1, by decide⟩, ascii "b"), (value .uInt8 ⟨7, by decide⟩, ascii "n")] := by
  rintro ⟨message, c, hbuild, hparse, -⟩
  have hmessage : buildTyped .little .default
      [(value .bool ⟨1, by decide⟩, ascii "b"), (value .uInt8 ⟨7, by decide⟩, ascii "n")] =
        .ok [102, 102, 102, 102, 1, 0, 0, 0, 12, 0, 0, 0, 0, 0, 0, 2,
          0, 1, 98, 11, 0, 1, 0, 1, 110, 1, 0, 7] := by
    decide +kernel
  have hfail : (new .default).deserialize .little
      [102, 102, 102, 102, 1, 0, 0, 0, 12, 0, 0, 0, 0, 0, 0, 2,
        0, 1, 98, 11, 0, 1, 0, 1, 110, 1, 0, 7] = .error (.outOfRange 23 256 28) := by
    decide +kernel
  obtain rfl := Except.ok.inj (hbuild.symm.trans hmessage)
  cases hfail.symm.trans hparse

end TypedCall

end ProjectTrans
