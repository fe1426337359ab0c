import ProjectTrans.Proof.Codec.Deserialize

/-!
# What the codec builds

The build state holds a list of fields; `serialize` adds one to it or leaves it out,
and `get_serialized_data_vector_build` returns their frame. `deserialize_frame`:
a frame is taken apart into the fields it was made of.
-/

namespace ProjectTrans

open Wire

/-- The header of a frame of these fields. -/
def frameHeader (fs : List SerializeField) : SerializeHeader where
  messageLength := UInt32.ofNat (fs.flatMap SerializeField.wire).length
  flag := .none
  checksum := 0
  fieldCount := UInt16.ofNat fs.length

/-- The frame of a list of fields. -/
def frame (fs : List SerializeField) : Bytes :=
  (frameHeader fs).wire ++ fs.flatMap SerializeField.wire

theorem frame_length (fs : List SerializeField) :
    (frame fs).length = 16 + (fs.flatMap SerializeField.wire).length := by
  simp [frame]

namespace SerializeCodec

variable (host : Endian) {c c' : SerializeCodec} {fs : List SerializeField} {f : SerializeField}

/-- The fields being built are `fs`. -/
structure Holds (c : SerializeCodec) (fs : List SerializeField) : Prop where
  currentIndex : c.currentIndex = (frame fs).length
  body : fs.flatMap SerializeField.wire <+: c.byteArrayBuild.drop headerSize
  map : c.dataMapBuild = fs.map entry

theorem holds_new (config : SerializeConfig) : Holds (new config) [] :=
  ⟨by simp [frame_length, new, headerSize], by simp, rfl⟩

/-- With room for `n` more bytes the vector is the header's place, the body and a rest. -/
theorem Holds.split (h : Holds c fs) {n : ℕ} (hlt : (frame fs).length + n < 2 ^ 32) :
    ∃ front rest, growTo c.byteArrayBuild (u32 (c.currentIndex + n)) =
        front ++ fs.flatMap SerializeField.wire ++ rest ∧ front.length = 16 ∧ n ≤ rest.length := by
  obtain ⟨hi, ⟨rest, hrest⟩, -⟩ := h
  rw [frame_length] at hi hlt
  rw [hi, u32_of_lt hlt]
  set body := fs.flatMap SerializeField.wire
  obtain ⟨z, hz⟩ := growTo_eq c.byteArrayBuild (16 + body.length + n)
  have hlen := growTo_length c.byteArrayBuild (16 + body.length + n)
  have hdrop : (c.byteArrayBuild ++ z).drop 16 = body ++ (rest ++ z.drop (16 - c.byteArrayBuild.length)) := by
    rw [List.drop_append, ← List.append_assoc, hrest]
    rfl
  have htake : ((c.byteArrayBuild ++ z).take 16).length = 16 := by
    rw [← hz, List.length_take]; omega
  refine ⟨(c.byteArrayBuild ++ z).take 16, rest ++ z.drop (16 - c.byteArrayBuild.length), ?_, htake, ?_⟩
  · rw [hz, List.append_assoc, ← hdrop, List.take_append_drop]
  · have := congrArg List.length hdrop
    rw [hz] at hlen
    simp only [List.length_drop, List.length_append] at this hlen ⊢
    omega

theorem exceedsLimit_eq_false {config : SerializeConfig} :
    exceedsLimit config f = false ↔
      f.nameLength.toNat ≤ config.maxFieldNameLength.toNat ∧
        f.valueLength.toNat ≤ config.maxFieldValueLength.toNat := by
  simp [exceedsLimit]

/-- A field beyond the limits is left out. -/
theorem serialize_exceeds (h : exceedsLimit c.config f = true) : c.serialize host f = .ok c := by
  unfold serialize
  rw [if_pos h]
  rfl

/-- **A field within the limits** is appended to those being built. -/
theorem serialize_holds (h : Holds c fs) (hf : f.Sized) (hlim : exceedsLimit c.config f = false)
    (hlt : (frame (fs ++ [f])).length < 2 ^ 32) :
    ∃ c', c.serialize host f = .ok c' ∧ Holds c' (fs ++ [f]) ∧
      c' = { c with
        byteArrayBuild := c'.byteArrayBuild
        currentIndex := c'.currentIndex
        dataMapBuild := c'.dataMapBuild } := by
  have hframe : (frame (fs ++ [f])).length = (frame fs).length + f.wire.length := by
    simp [frame_length, Nat.add_assoc]
  rw [hframe] at hlt
  obtain ⟨front, rest, hgrow, hfront, hrest⟩ := h.split hlt
  have hidx : c.currentIndex = (front ++ fs.flatMap SerializeField.wire).length := by
    rw [h.currentIndex, frame_length, List.length_append, hfront]
  have hsize := SerializeField.serializedSize_eq (f := f) (by omega)
  unfold serialize
  rw [hlim]
  simp only [Bool.false_eq_true, if_false, hsize, ensureEnoughCapacityRestToBuild, hgrow]
  rw [SerializeField.toSerializedByteArray_eq host hf (by omega), Checked.ok_bind]
  rw [hidx, writeAt_append hrest, Checked.ok_bind]
  refine ⟨_, rfl, ⟨?_, ?_, ?_⟩, rfl⟩
  · simp only
    rw [← hidx, h.currentIndex, hframe, u32_of_lt hlt]
  · refine ⟨rest.drop f.wire.length, ?_⟩
    simp only [List.flatMap_append, List.flatMap_singleton, List.append_assoc]
    rw [headerSize, List.drop_left' hfront]
  · simp [h.map, entry]

/-- **The finished message** is the frame of the fields, and the build goes on from it. -/
theorem getSerializedDataVectorBuild_holds (h : Holds c fs) (hlt : (frame fs).length < 2 ^ 32) :
    ∃ c', c.getSerializedDataVectorBuild host = .ok (frame fs, c') ∧ Holds c' fs ∧
      c' = { c with byteArrayBuild := frame fs } := by
  obtain ⟨front, rest, hgrow, hfront, -⟩ := h.split (n := 0) (by simpa using hlt)
  have hidx : c.currentIndex = (front ++ fs.flatMap SerializeField.wire).length := by
    rw [h.currentIndex, frame_length, List.length_append, hfront]
  -- the index less the header, as the code computes it in 32 bits
  have hlength : UInt32.ofNat (c.currentIndex + (2 ^ 32 - headerSize)) =
      UInt32.ofNat (fs.flatMap SerializeField.wire).length := by
    apply UInt32.toNat_inj.1
    rw [UInt32.toNat_ofNat', UInt32.toNat_ofNat', h.currentIndex, frame_length, headerSize]
    omega
  have hheader : c.buildHeader = frameHeader fs := by
    unfold buildHeader frameHeader
    rw [hlength, h.map, List.length_map]
  have hresize : resize c.byteArrayBuild c.currentIndex = front ++ fs.flatMap SerializeField.wire := by
    rw [Nat.add_zero, u32_of_lt (by rw [h.currentIndex]; exact hlt)] at hgrow
    rw [resize_eq_take, hgrow, List.take_left' hidx.symm]
  have hparts : [toNetworkByteOrder host (frameHeader fs).magicNumber,
      toNetworkByteOrder host (frameHeader fs).version, toNetworkByteOrder host (frameHeader fs).messageLength,
      toNetworkByteOrder host (frameHeader fs).flag.bits, toNetworkByteOrder host (frameHeader fs).checksum,
      toNetworkByteOrder host (frameHeader fs).fieldCount].flatten = (frameHeader fs).wire := by
    simp [toNetworkByteOrder_eq, SerializeHeader.wire]
  unfold getSerializedDataVectorBuild finalizeMessageHeader
  rw [hheader, hresize]
  dsimp only
  rw [writeAll_zero (by rw [hparts, hfront, SerializeHeader.wire_length])
    (by rw [frame_length] at hlt; omega), hparts]
  refine ⟨{ c with byteArrayBuild := frame fs }, rfl, ⟨h.currentIndex, ?_, h.map⟩, rfl⟩
  refine ⟨[], ?_⟩
  simp only [frame, headerSize, List.append_nil]
  rw [List.drop_left' (SerializeHeader.wire_length _)]

/-- The fields a configuration lets through. -/
def kept (config : SerializeConfig) (fs : List SerializeField) : List SerializeField :=
  fs.filter fun f => !exceedsLimit config f

theorem kept_eq_self {config : SerializeConfig} (h : ∀ f ∈ fs, exceedsLimit config f = false) :
    kept config fs = fs := by
  unfold kept
  rw [List.filter_eq_self]
  intro f hf
  simp [h f hf]

theorem mem_kept {config : SerializeConfig} (h : f ∈ kept config fs) : f ∈ fs := (List.mem_filter.1 h).1

theorem kept_cons_exceeds {config : SerializeConfig} (h : exceedsLimit config f = true) :
    kept config (f :: fs) = kept config fs := by
  simp [kept, h]

theorem kept_cons_within {config : SerializeConfig} (h : exceedsLimit config f = false) :
    kept config (f :: fs) = f :: kept config fs := by
  simp [kept, h]

/-- Serializing one field after another adds those within the limits. -/
theorem serializeAll_holds (fs : List SerializeField) : ∀ {c : SerializeCodec} {gs : List SerializeField},
    Holds c gs → (∀ f ∈ kept c.config fs, f.Sized) → (frame (gs ++ kept c.config fs)).length < 2 ^ 32 →
    ∃ c', fs.foldlM (serialize host) c = .ok c' ∧ Holds c' (gs ++ kept c.config fs) := by
  induction fs with
  | nil => intro c gs h _ _; exact ⟨c, rfl, by simpa [kept] using h⟩
  | cons f fs ih =>
    intro c gs h hs hlt
    rw [List.foldlM_cons]
    by_cases hlim : exceedsLimit c.config f = true
    · rw [kept_cons_exceeds hlim] at hs hlt ⊢
      rw [serialize_exceeds host hlim, Checked.ok_bind]
      exact ih h hs hlt
    · rw [Bool.not_eq_true] at hlim
      rw [kept_cons_within hlim] at hs hlt ⊢
      rw [List.append_cons] at hlt ⊢
      have hfs : ∀ g ∈ kept c.config fs, g.Sized := fun g hg => hs g (List.mem_cons_of_mem _ hg)
      have hlt' : (frame (gs ++ [f])).length < 2 ^ 32 := by
        simp only [frame_length, List.flatMap_append, List.length_append] at hlt ⊢
        omega
      obtain ⟨c', e, h', hc'⟩ := serialize_holds host h (hs f List.mem_cons_self) hlim hlt'
      have hconfig : c'.config = c.config := by rw [hc']
      rw [e, Checked.ok_bind, ← hconfig]
      exact ih h' (by rwa [hconfig]) (by rwa [hconfig])

/-- The message a fresh codec makes of the fields. -/
def buildMessage (host : Endian) (config : SerializeConfig) (fs : List SerializeField) : Checked Bytes := do
  let c ← fs.foldlM (serialize host) (new config)
  let (message, _) ← c.getSerializedDataVectorBuild host
  return message

/-- **A message built from scratch** is the frame of the fields within the limits. -/
theorem build_eq (config : SerializeConfig) (hs : ∀ f ∈ kept config fs, f.Sized)
    (hlt : (frame (kept config fs)).length < 2 ^ 32) :
    buildMessage host config fs = .ok (frame (kept config fs)) := by
  obtain ⟨c, e, h⟩ := serializeAll_holds host fs (holds_new config) hs (by simpa [new] using hlt)
  obtain ⟨c', e', -⟩ := getSerializedDataVectorBuild_holds host h (by simpa [new] using hlt)
  rw [buildMessage, e, Checked.ok_bind, e']
  simp [new]

/-! ## Taking a frame apart -/

theorem flatten_wireParts (fs : List SerializeField) :
    (fs.flatMap SerializeField.wireParts).flatten = fs.flatMap SerializeField.wire := by
  induction fs with
  | nil => rfl
  | cons f fs ih => simp [ih, SerializeField.wire]

/-- **A frame is taken apart** into the fields it was made of, whatever follows it. -/
theorem deserialize_frame (c : SerializeCodec) {fs : List SerializeField} (rest : Bytes)
    (hw : ∀ f ∈ fs, f.WellFormed) (hcount : fs.length < 2 ^ 16) (hlt : (frame fs).length < 2 ^ 32) :
    c.deserialize host (frame fs ++ rest) =
      .ok { c with
        byteArrayParsed := frame fs ++ rest
        dataMapParsed := c.dataMapParsed ++ fs.map entry } := by
  have hlen := frame_length fs
  have hmessage : (frameHeader fs).messageLength.toNat = (fs.flatMap SerializeField.wire).length := by
    simp only [frameHeader, UInt32.toNat_ofNat']; omega
  have hfields : (frameHeader fs).fieldCount.toNat = fs.length := by
    simp only [frameHeader, UInt16.toNat_ofNat']; omega
  have haccept : Accepts (frame fs ++ rest) (frameHeader fs) := by
    refine ⟨⟨[], fs.flatMap SerializeField.wire ++ rest, by simp [frame], rfl⟩, ?_⟩
    rw [hmessage, headerSize, List.length_append, hlen, u32_of_lt (by omega)]
    omega
  refine (deserialize_accepted c haccept).2 ⟨fs, hfields.symm, ⟨hw, ?_⟩, rfl⟩
  rw [laidOut_iff_liesAt _ _ (by rw [List.length_append, headerSize]; omega)
    (by rw [flatten_wireParts, headerSize]; omega), flatten_wireParts]
  exact ⟨(frameHeader fs).wire, rest, by simp [frame], SerializeHeader.wire_length _⟩

/-- A field is looked up among those that were parsed. -/
theorem getParsedField_eq (key : Bytes) (hmap : c.getParsedDataMap = fs.map entry) :
    c.getParsedField key = fs.find? fun f => f.name == key := by
  unfold getParsedDataMap at hmap
  unfold getParsedField
  rw [hmap, List.find?_map, Option.map_map]
  exact congrFun Option.map_id _

end SerializeCodec

end ProjectTrans
