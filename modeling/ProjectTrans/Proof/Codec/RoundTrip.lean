import ProjectTrans.Proof.Codec.Build

/-!
# From one codec to another

A message built of fields on one host is taken apart on another. `roundTrip`: within
the limits of the format, the parsed multimap holds exactly the fields. The converse
also holds (`roundTrips_iff`): what is parsed is what was built **only** when every
field has its real lengths and a value length the parser can tell, and the counts fit
the widths of the header. Nothing longer than `2^32` is ever built (`serializeAll_fits`).
-/

namespace ProjectTrans

open Wire

theorem entry_injective : Function.Injective SerializeCodec.entry := fun _ _ h => congrArg Prod.snd h

namespace SerializeCodec

variable (host host' : Endian) {c c' : SerializeCodec} {fs gs : List SerializeField} {f : SerializeField}

/-! ## What can be built -/

/-- A field that was appended ends before the place `2^32`. -/
theorem serialize_fits (h : Holds c gs) (hf : f.Sized) (hlim : exceedsLimit c.config f = false)
    (hl : c.byteArrayBuild.length < 2 ^ 32) (e : c.serialize host f = .ok c') :
    (frame (gs ++ [f])).length < 2 ^ 32 ∧ c'.byteArrayBuild.length < 2 ^ 32 := by
  unfold serialize at e
  rw [hlim] at e
  obtain ⟨data, hdata, e⟩ := Checked.bind_eq_ok.1 e
  obtain ⟨build, hwrite, e⟩ := Checked.bind_eq_ok.1 e
  -- the encoding is the wire form, so its length is known
  have hwire := SerializeField.toSerializedByteArray_fits hf hdata
  have hdata' : f.wire = data := by
    rw [SerializeField.toSerializedByteArray_eq host hf hwire] at hdata
    exact Except.ok.inj hdata
  obtain ⟨hfit, hlength⟩ := writeAt_fits hwrite
  simp only [ensureEnoughCapacityRestToBuild] at hfit hlength
  have hroom := growTo_length c.byteArrayBuild (u32 (c.currentIndex + f.serializedSize))
  have hneed := u32_lt (c.currentIndex + f.serializedSize)
  have hindex := h.currentIndex
  have hframe : (frame (gs ++ [f])).length = (frame gs).length + f.wire.length := by
    simp [frame_length, Nat.add_assoc]
  rw [← hdata'] at hfit
  obtain rfl := Except.ok.inj e
  exact ⟨by omega, by dsimp only; omega⟩

/-- Fields that were all serialized are a frame shorter than `2^32`. -/
theorem serializeAll_fits (fs : List SerializeField) : ∀ {c c' : SerializeCodec} {gs : List SerializeField},
    Holds c gs → (∀ f ∈ kept c.config fs, f.Sized) → c.byteArrayBuild.length < 2 ^ 32 →
    (frame gs).length < 2 ^ 32 → fs.foldlM (serialize host) c = .ok c' →
    (frame (gs ++ kept c.config fs)).length < 2 ^ 32 := by
  induction fs with
  | nil => intro c c' gs _ _ _ hlt _; simpa [kept] using hlt
  | cons f fs ih =>
    intro c c' gs h hs hl hlt e
    rw [List.foldlM_cons] at e
    obtain ⟨c₁, e₁, e⟩ := Checked.bind_eq_ok.1 e
    by_cases hlim : exceedsLimit c.config f = true
    · rw [kept_cons_exceeds hlim] at hs ⊢
      rw [serialize_exceeds host hlim] at e₁
      obtain rfl := Except.ok.inj e₁
      exact ih h hs hl hlt e
    · rw [Bool.not_eq_true] at hlim
      rw [kept_cons_within hlim] at hs ⊢
      rw [List.append_cons]
      -- the call has returned, so the vector it grew to fits in 32 bits
      have hf : f.Sized := hs f List.mem_cons_self
      obtain ⟨hlt₁, hl₁⟩ := serialize_fits host h hf hlim hl e₁
      obtain ⟨c₂, e₂, h₂, hc₂⟩ := serialize_holds host h hf hlim hlt₁
      obtain rfl : c₂ = c₁ := Except.ok.inj (e₂.symm.trans e₁)
      have hconfig : c₂.config = c.config := by rw [hc₂]
      rw [← hconfig] at hs ⊢
      exact ih h₂ (fun g hg => hs g (List.mem_cons_of_mem _ hg)) hl₁ hlt₁ e

/-- A message that was built of sized fields is shorter than `2^32`. -/
theorem buildMessage_fits {config : SerializeConfig} {message : Bytes} (hs : ∀ f ∈ kept config fs, f.Sized)
    (h : buildMessage host config fs = .ok message) : (frame (kept config fs)).length < 2 ^ 32 := by
  unfold buildMessage at h
  obtain ⟨c, hbuild, -⟩ := Checked.bind_eq_ok.1 h
  have hnew : (new config).byteArrayBuild.length < 2 ^ 32 := by
    rw [new, List.length_replicate]
    exact config.preAllocatedSize.toNat_lt
  have hempty : (frame []).length < 2 ^ 32 := by
    rw [frame_length]
    simp
  have hfit := serializeAll_fits host fs (holds_new config) hs hnew hempty hbuild
  rwa [List.nil_append] at hfit

/-! ## There and back -/

/-- **A list of fields within the limits** comes out of the message built of it, each
field with all its parts and as often as it went in, whatever follows the message. -/
theorem roundTrip (config config' : SerializeConfig) (rest : Bytes) (hw : ∀ f ∈ fs, f.WellFormed)
    (hlim : ∀ f ∈ fs, exceedsLimit config f = false) (hcount : fs.length < 2 ^ 16)
    (hlt : (frame fs).length < 2 ^ 32) :
    ∃ message c, buildMessage host config fs = .ok message ∧
      (new config').deserialize host' (message ++ rest) = .ok c ∧
      (c.getParsedDataMap : Multiset (Bytes × SerializeField)) = (fs : Multiset SerializeField).map entry := by
  have hkept := kept_eq_self hlim
  have hsized : ∀ f ∈ kept config fs, f.Sized := fun f hf => (hw f (mem_kept hf)).toSized
  have hbuild := build_eq host config hsized (by rwa [hkept])
  rw [hkept] at hbuild
  have hparse := deserialize_frame host' (new config') rest hw hcount hlt
  refine ⟨frame fs, _, hbuild, hparse, ?_⟩
  simp [getParsedDataMap, new]

/-- A string and a number, with a byte behind the message. -/
theorem roundTrip_two :
    ∃ message c, buildMessage .little .default
        [⟨1, [97], .string, .hasValueLength, 2, [104, 105]⟩, ⟨1, [97], .uInt16, .none, 2, [1, 2]⟩] = .ok message ∧
      (new .default).deserialize .big (message ++ [0]) = .ok c ∧
      (c.getParsedDataMap : Multiset (Bytes × SerializeField)) =
        (([⟨1, [97], .string, .hasValueLength, 2, [104, 105]⟩, ⟨1, [97], .uInt16, .none, 2, [1, 2]⟩] :
          List SerializeField) : Multiset SerializeField).map entry := by
  refine roundTrip .little .big .default .default [0] ?_ (by decide) (by decide) (by decide)
  intro f hf
  rcases List.mem_pair.1 hf with rfl | rfl
  · exact ⟨⟨rfl, rfl⟩, Or.inl rfl⟩
  · exact ⟨⟨rfl, rfl⟩, Or.inr rfl⟩

/-- What a fresh codec parses from the message, with `rest` behind it, is the fields
that were within the limits. -/
def RoundTrips (config config' : SerializeConfig) (fs : List SerializeField) (rest : Bytes) : Prop :=
  ∃ message c, buildMessage host config fs = .ok message ∧
    (new config').deserialize host' (message ++ rest) = .ok c ∧
    c.getParsedDataMap = (kept config fs).map entry

/-- What a fresh codec parses is well formed, and can be counted in 16 bits. -/
theorem deserialize_new_wellFormed {config : SerializeConfig} {data : Bytes}
    (h : (new config).deserialize host data = .ok c) :
    ∃ fs : List SerializeField, c.getParsedDataMap = fs.map entry ∧ (∀ f ∈ fs, f.WellFormed) ∧
      fs.length < 2 ^ 16 := by
  by_cases ha : ∃ header, Accepts data header
  · obtain ⟨header, ha⟩ := ha
    obtain ⟨fs, hn, hfs, rfl⟩ := (deserialize_accepted _ ha).1 h
    have hcount := header.fieldCount.toNat_lt
    exact ⟨fs, by simp [getParsedDataMap, new], hfs.wellFormed, by omega⟩
  · rw [deserialize_rejected _ (not_exists.1 ha)] at h
    obtain rfl := Except.ok.inj h
    exact ⟨[], rfl, by simp, by simp⟩

/-- **The fields come back exactly when** each of them has its real lengths and a value
length that can be told, and there are not too many of them. -/
theorem roundTrips_iff {config config' : SerializeConfig} {rest : Bytes} :
    RoundTrips host host' config config' fs rest ↔
      (∀ f ∈ kept config fs, f.WellFormed) ∧ (kept config fs).length < 2 ^ 16 ∧
        (frame (kept config fs)).length < 2 ^ 32 := by
  constructor
  · rintro ⟨message, c, hbuild, hparse, hmap⟩
    obtain ⟨gs, hgs, hw, hcount⟩ := deserialize_new_wellFormed host' hparse
    obtain rfl : gs = kept config fs := List.map_injective_iff.2 entry_injective (hgs.symm.trans hmap)
    exact ⟨hw, hcount, buildMessage_fits host (fun f hf => (hw f hf).toSized) hbuild⟩
  · rintro ⟨hw, hcount, hlt⟩
    have hbuild := build_eq host config (fun f hf => (hw f hf).toSized) hlt
    have hparse := deserialize_frame host' (new config') rest hw hcount hlt
    exact ⟨_, _, hbuild, hparse, by simp [getParsedDataMap, new]⟩

end SerializeCodec

end ProjectTrans
