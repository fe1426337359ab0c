import ProjectTrans.Lib.Run
import ProjectTrans.Proof.Codec.Build

/-!
# One codec over many calls

The build side of a codec is used call after call: fields go in, messages come out,
the build is reset, the limits change. To the caller it is a `Draft`: the limits in
force and the fields accepted since the last reset. The codec's vector, write index
and field map represent the draft after every call (`Builds`).

`history_built`: **over any sequence of calls, every get returns the message of the
draft it finds**, whatever was got, reset or configured before.
-/

namespace ProjectTrans

open Wire SerializeCodec

/-- A call on the build side of a codec. -/
inductive BuildCall
  | serialize (field : SerializeField)
  | resetBuild
  | setConfig (config : SerializeConfig)
  | getSerializedDataVectorBuild
  deriving DecidableEq, Repr

namespace BuildCall

/-- One call; a get returns a message. -/
def run (host : Endian) (c : SerializeCodec) : BuildCall → Checked (Option Bytes × SerializeCodec)
  | serialize field => do
    let c ← c.serialize host field
    return (none, c)
  | resetBuild => return (none, c.resetBuild)
  | setConfig config => return (none, c.setConfig config)
  | getSerializedDataVectorBuild => do
    let (message, c) ← c.getSerializedDataVectorBuild host
    return (some message, c)

/-- One call after another, and the messages that were got. -/
def runAll (host : Endian) (c : SerializeCodec) : List BuildCall → Checked (List Bytes × SerializeCodec)
  | [] => return ([], c)
  | call :: calls => do
    let (message, c) ← call.run host c
    let (messages, c) ← runAll host c calls
    return (message.toList ++ messages, c)

end BuildCall

/-- What a caller has built: the limits in force and the fields accepted since the last reset. -/
structure Draft where
  config : SerializeConfig
  fields : List SerializeField
  deriving DecidableEq, Repr

namespace Draft

/-- The draft after a call. -/
def next (d : Draft) : BuildCall → Draft
  | .serialize field => if exceedsLimit d.config field then d else { d with fields := d.fields ++ [field] }
  | .resetBuild => { d with fields := [] }
  | .setConfig config => { d with config := config }
  | .getSerializedDataVectorBuild => d

/-- The fields of the draft at every get. -/
def gets (d : Draft) : List BuildCall → List (List SerializeField)
  | [] => []
  | call :: calls =>
    (if call = .getSerializedDataVectorBuild then [d.fields] else []) ++ (d.next call).gets calls

/-- The draft is one message: its fields can be counted in 16 bits, its bytes in 32. -/
def Fits (d : Draft) : Prop := d.fields.length < 2 ^ 16 ∧ (frame d.fields).length < 2 ^ 32

instance (d : Draft) : Decidable d.Fits := inferInstanceAs (Decidable (_ ∧ _))

end Draft

/-- `message` is the message of the fields: the header, and what
`to_serialized_byte_array` makes of each field. -/
def IsMessage (host : Endian) (fields : List SerializeField) (message : Bytes) : Prop :=
  ∃ (header : SerializeHeader) (parts : List Bytes),
    message = header.wire ++ parts.flatten ∧
    fields.mapM (SerializeField.toSerializedByteArray host) = .ok parts ∧
    header.magicNumber = 0x66666666 ∧ header.version = 1 ∧
    header.messageLength.toNat = parts.flatten.length ∧
    header.flag = .none ∧ header.checksum = 0 ∧ header.fieldCount.toNat = fields.length

variable (host : Endian)

/-- The encodings of sized fields are their wire forms. -/
theorem mapM_toSerializedByteArray {fs : List SerializeField} (hs : ∀ f ∈ fs, f.Sized)
    (hlt : ∀ f ∈ fs, f.wire.length < 2 ^ 32) :
    fs.mapM (SerializeField.toSerializedByteArray host) = .ok (fs.map SerializeField.wire) := by
  induction fs with
  | nil => rfl
  | cons f fs ih =>
    have hf := SerializeField.toSerializedByteArray_eq host (hs f List.mem_cons_self) (hlt f List.mem_cons_self)
    have hfs := ih (fun g hg => hs g (List.mem_cons_of_mem _ hg)) (fun g hg => hlt g (List.mem_cons_of_mem _ hg))
    rw [List.mapM_cons, hf, Checked.ok_bind, hfs]
    rfl

/-- A field is no longer than the frame it is in. -/
theorem wire_length_le_frame {fs : List SerializeField} {f : SerializeField} (hf : f ∈ fs) :
    f.wire.length ≤ (frame fs).length := by
  have hmem : f.wire ∈ fs.map SerializeField.wire := List.mem_map_of_mem hf
  have hle := (List.sublist_flatten_of_mem hmem).length_le
  rw [frame_length, List.flatMap_def]
  omega

/-- **A frame is a message** of its fields. -/
theorem frame_isMessage {fs : List SerializeField} (hs : ∀ f ∈ fs, f.Sized) (hcount : fs.length < 2 ^ 16)
    (hlt : (frame fs).length < 2 ^ 32) : IsMessage host fs (frame fs) := by
  have hparts := mapM_toSerializedByteArray host hs fun f hf =>
    lt_of_le_of_lt (wire_length_le_frame hf) hlt
  rw [frame_length, List.flatMap_def] at hlt
  refine ⟨frameHeader fs, fs.map SerializeField.wire, rfl, hparts, rfl, rfl, ?_, rfl, rfl, ?_⟩
  · simp only [frameHeader, UInt32.toNat_ofNat', List.flatMap_def]
    omega
  · simp only [frameHeader, UInt16.toNat_ofNat']
    omega

namespace BuildCall

/-- The codec represents the draft. -/
structure Builds (c : SerializeCodec) (d : Draft) : Prop where
  config : c.config = d.config
  holds : Holds c d.fields

/-- A fresh codec represents the empty draft. -/
theorem builds_new (config : SerializeConfig) : Builds (new config) ⟨config, []⟩ := ⟨rfl, holds_new config⟩

variable {c : SerializeCodec} {d : Draft}

/-- A reset leaves nothing in the vector, and the next write grows it again. -/
theorem builds_resetBuild (h : Builds c d) : Builds c.resetBuild { d with fields := [] } :=
  ⟨h.config, by rw [frame_length]; rfl, by simp, rfl⟩

/-- New limits only ever grow the vector, behind what is in it. -/
theorem builds_setConfig (h : Builds c d) (config : SerializeConfig) :
    Builds (c.setConfig config) { d with config := config } := by
  refine ⟨rfl, h.holds.currentIndex, ?_, h.holds.map⟩
  obtain ⟨rest, hgrow⟩ := growTo_eq c.byteArrayBuild config.preAllocatedSize.toNat
  have hdrop : (growTo c.byteArrayBuild config.preAllocatedSize.toNat).drop headerSize =
      c.byteArrayBuild.drop headerSize ++ rest.drop (headerSize - c.byteArrayBuild.length) := by
    rw [hgrow, List.drop_append]
  show _ <+: (growTo c.byteArrayBuild config.preAllocatedSize.toNat).drop headerSize
  rw [hdrop]
  exact h.holds.body.trans (List.prefix_append _ _)

/-- **One call**: the codec still represents the draft, and a get returns its frame. -/
theorem run_builds (h : Builds c d) (call : BuildCall) (hs : ∀ f, call = .serialize f → f.Sized)
    (hd : d.Fits) (hnext : (d.next call).Fits) :
    ∃ c', call.run host c =
        .ok (if call = .getSerializedDataVectorBuild then some (frame d.fields) else none, c') ∧
      Builds c' (d.next call) := by
  cases call with
  | serialize f =>
    simp only [Draft.next] at hnext ⊢
    by_cases hlim : exceedsLimit d.config f = true
    · -- the field is left out, on both sides
      rw [if_pos hlim]
      have hskip := serialize_exceeds host (h.config ▸ hlim)
      exact ⟨c, by simp [run, hskip], h⟩
    · rw [if_neg hlim] at hnext ⊢
      have hkeep : exceedsLimit c.config f = false := by simpa [h.config] using hlim
      obtain ⟨c', e, hholds, hc'⟩ := serialize_holds host h.holds (hs f rfl) hkeep hnext.2
      have hconfig : c'.config = d.config := by rw [hc']; exact h.config
      exact ⟨c', by simp [run, e], hconfig, hholds⟩
  | resetBuild => exact ⟨_, rfl, builds_resetBuild h⟩
  | setConfig config => exact ⟨_, rfl, builds_setConfig h config⟩
  | getSerializedDataVectorBuild =>
    obtain ⟨c', e, hholds, hc'⟩ := SerializeCodec.getSerializedDataVectorBuild_holds host h.holds hd.2
    have hconfig : c'.config = d.config := by rw [hc']; exact h.config
    exact ⟨c', by simp [run, e], hconfig, hholds⟩

/-- The fields of a draft are the sized fields that were serialized. -/
theorem next_sized (hd : ∀ f ∈ d.fields, f.Sized) {call : BuildCall}
    (hs : ∀ f, call = .serialize f → f.Sized) : ∀ f ∈ (d.next call).fields, f.Sized := by
  cases call with
  | serialize g =>
    intro f hf
    unfold Draft.next at hf
    dsimp only at hf
    split at hf
    · exact hd f hf
    · rcases List.mem_append.1 hf with hf | hf
      · exact hd f hf
      · rw [List.mem_singleton.1 hf]
        exact hs g rfl
  | resetBuild => intro f hf; exact absurd hf (List.not_mem_nil)
  | setConfig config => exact hd
  | getSerializedDataVectorBuild => exact hd

/-- The calls from any codec that represents a draft. -/
theorem runAll_built (calls : List BuildCall) : ∀ {c : SerializeCodec} {d : Draft}, Builds c d → d.Fits →
    (∀ f ∈ d.fields, f.Sized) → (∀ f, .serialize f ∈ calls → f.Sized) →
    Run.Meets (fun d call => (d.next call).Fits) Draft.next d calls →
    ∃ messages c', runAll host c calls = .ok (messages, c') ∧
      List.Forall₂ (IsMessage host) (d.gets calls) messages := by
  induction calls with
  | nil => intro c d _ _ _ _ _; exact ⟨[], c, rfl, List.Forall₂.nil⟩
  | cons call calls ih =>
    intro c d h hd hsized hs hm
    have hcall : ∀ f, call = .serialize f → f.Sized := fun f hf => hs f (hf ▸ List.mem_cons_self)
    obtain ⟨c₁, e₁, h₁⟩ := run_builds host h call hcall hd hm.1
    obtain ⟨messages, c₂, e₂, hmessages⟩ := ih h₁ hm.1 (next_sized hsized hcall)
      (fun f hf => hs f (List.mem_cons_of_mem _ hf)) hm.2
    -- a finished message is put out, any other call only builds
    by_cases hget : call = .getSerializedDataVectorBuild
    · have hmessage : IsMessage host d.fields (frame d.fields) := frame_isMessage host hsized hd.1 hd.2
      refine ⟨frame d.fields :: messages, c₂, ?_, ?_⟩
      · rw [if_pos hget] at e₁
        rw [runAll, e₁, Checked.ok_bind]
        dsimp only
        rw [e₂]
        rfl
      · rw [Draft.gets, if_pos hget]
        exact List.Forall₂.cons hmessage hmessages
    · refine ⟨messages, c₂, ?_, ?_⟩
      · rw [if_neg hget] at e₁
        rw [runAll, e₁, Checked.ok_bind]
        dsimp only
        rw [e₂]
        rfl
      · rw [Draft.gets, if_neg hget]
        exact hmessages

/-- **Over any sequence of calls** on a fresh codec, every get returns the message of
the fields accepted since the last reset, in order. -/
theorem history_built (config : SerializeConfig) (calls : List BuildCall)
    (hs : ∀ f, .serialize f ∈ calls → f.Sized)
    (hm : Run.Meets (fun d call => (d.next call).Fits) Draft.next ⟨config, []⟩ calls) :
    ∃ messages c, runAll host (new config) calls = .ok (messages, c) ∧
      List.Forall₂ (IsMessage host) (Draft.gets ⟨config, []⟩ calls) messages := by
  have hempty : Draft.Fits ⟨config, []⟩ := ⟨by simp, by simp [frame_length]⟩
  exact runAll_built host calls (builds_new config) hempty (fun f hf => absurd hf (List.not_mem_nil)) hs hm

/-- A get between two fields, another one, a reset with new limits, and a last get. -/
theorem history_built_resetBuild :
    ∃ messages c, runAll .little (new .default)
        [.serialize ⟨1, [97], .uInt8, .none, 1, [7]⟩, .getSerializedDataVectorBuild,
          .serialize ⟨1, [98], .string, .hasValueLength, 2, [8, 9]⟩, .getSerializedDataVectorBuild,
          .resetBuild, .setConfig { maxFieldNameLength := 1 }, .serialize ⟨2, [97, 98], .uInt8, .none, 1, [7]⟩,
          .getSerializedDataVectorBuild] = .ok (messages, c) ∧
      List.Forall₂ (IsMessage .little)
        [[⟨1, [97], .uInt8, .none, 1, [7]⟩],
          [⟨1, [97], .uInt8, .none, 1, [7]⟩, ⟨1, [98], .string, .hasValueLength, 2, [8, 9]⟩], []] messages := by
  refine history_built .little .default _ ?_ (by decide +kernel)
  intro f hf
  simp only [List.mem_cons, reduceCtorEq, List.not_mem_nil, BuildCall.serialize.injEq, or_false, false_or] at hf
  rcases hf with rfl | rfl | rfl <;> exact ⟨rfl, rfl⟩

end BuildCall

end ProjectTrans
