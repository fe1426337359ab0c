import ProjectTrans.Proof.Codec.History

/-!
# What parsing remembers

`deserialize` replaces the stored bytes and adds to the parsed map; only `reset_parse`
empties it. So what a message is parsed to depends on what was parsed before, unless
every message that left fields was followed by a reset (`ResetBetween`).

`parse_independent_iff`: over any two histories of calls, **an accepted message is
parsed to its own fields in both, and to the same, exactly when** both are such; a
rejected one changes nothing.
-/

namespace ProjectTrans

open Wire SerializeCodec

/-- A call on a codec. -/
inductive CodecCall
  | build (call : BuildCall)
  | deserialize (data : Bytes)
  | resetParse
  deriving DecidableEq, Repr

namespace CodecCall

/-- One call; what a get returns is dropped. -/
def run (host : Endian) (c : SerializeCodec) : CodecCall → Checked SerializeCodec
  | build call => do
    let (_, c) ← call.run host c
    return c
  | deserialize data => c.deserialize host data
  | resetParse => return c.resetParse

/-- One call after another. -/
def runAll (host : Endian) (c : SerializeCodec) (calls : List CodecCall) : Checked SerializeCodec :=
  calls.foldlM (run host) c

/-- The call is handed a message that is accepted and has fields. -/
def LeavesFields : CodecCall → Prop
  | deserialize data => ∃ header, Accepts data header ∧ header.fieldCount ≠ 0
  | _ => False

/-- After every message that left fields the parse was reset. -/
def ResetBetween : List CodecCall → Prop
  | [] => True
  | call :: calls => (call.LeavesFields → .resetParse ∈ calls) ∧ ResetBetween calls

end CodecCall

namespace SerializeCodec

variable {host : Endian} {data : Bytes} {header : SerializeHeader} {c c' : SerializeCodec}

/-- The parsed map holds the fields of this message and no others. -/
def OwnFields (data : Bytes) (header : SerializeHeader) (c : SerializeCodec) : Prop :=
  ∃ fs, fs.length = header.fieldCount.toNat ∧ HoldsFields data headerSize fs ∧
    c.getParsedDataMap.Perm (fs.map entry)

/-- A caller sees the same parsed message: the same multimap, and the same field under
each name. Which of several entries of a name is found is left to `find`. -/
structure SameParsed (find : List (Bytes × SerializeField) → Bytes → Option SerializeField)
    (c c' : SerializeCodec) : Prop where
  map : c.getParsedDataMap.Perm c'.getParsedDataMap
  field : ∀ key, find c.getParsedDataMap key = find c'.getParsedDataMap key
  first : ∀ key, c.getParsedField key = c'.getParsedField key

/-- A message has one header. -/
theorem Accepts.unique {header' : SerializeHeader} (h : Accepts data header) (h' : Accepts data header') :
    header = header' := by
  have e : getMessageHeader .big data = .ok (some header) := getMessageHeader_iff.2 h.1
  have e' : getMessageHeader .big data = .ok (some header') := getMessageHeader_iff.2 h'.1
  exact Option.some.inj (Except.ok.inj (e.symm.trans e'))

/-- The build side never touches the parsed map. -/
theorem serialize_dataMapParsed {field : SerializeField} (h : c.serialize host field = .ok c') :
    c'.dataMapParsed = c.dataMapParsed := by
  unfold serialize at h
  split at h
  · obtain rfl := Except.ok.inj h
    rfl
  · obtain ⟨bytes, -, h⟩ := Checked.bind_eq_ok.1 h
    obtain ⟨build, -, h⟩ := Checked.bind_eq_ok.1 h
    obtain rfl := Except.ok.inj h
    rfl

theorem getSerializedDataVectorBuild_dataMapParsed {message : Bytes}
    (h : c.getSerializedDataVectorBuild host = .ok (message, c')) : c'.dataMapParsed = c.dataMapParsed := by
  obtain ⟨c₁, hfinal, h⟩ := Checked.bind_eq_ok.1 h
  obtain ⟨build, -, hfinal⟩ := Checked.bind_eq_ok.1 hfinal
  obtain rfl := Except.ok.inj hfinal
  obtain rfl := congrArg Prod.snd (Except.ok.inj h)
  rfl

end SerializeCodec

namespace CodecCall

variable {host : Endian} {c c' : SerializeCodec}

theorem build_dataMapParsed {call : BuildCall} (h : (build call).run host c = .ok c') :
    c'.dataMapParsed = c.dataMapParsed := by
  obtain ⟨⟨message, c₁⟩, hrun, h⟩ := Checked.bind_eq_ok.1 h
  obtain rfl := Except.ok.inj h
  cases call with
  | serialize field =>
    obtain ⟨c₂, hserialize, hrun⟩ := Checked.bind_eq_ok.1 hrun
    obtain rfl := congrArg Prod.snd (Except.ok.inj hrun)
    exact serialize_dataMapParsed hserialize
  | resetBuild =>
    obtain rfl := congrArg Prod.snd (Except.ok.inj hrun)
    rfl
  | setConfig config =>
    obtain rfl := congrArg Prod.snd (Except.ok.inj hrun)
    rfl
  | getSerializedDataVectorBuild =>
    obtain ⟨⟨bytes, c₂⟩, hget, hrun⟩ := Checked.bind_eq_ok.1 hrun
    obtain rfl := congrArg Prod.snd (Except.ok.inj hrun)
    exact getSerializedDataVectorBuild_dataMapParsed hget

/-- **One call leaves the parsed map empty** when it resets it, or finds it empty and
leaves no fields. -/
theorem run_empty_iff {call : CodecCall} (h : call.run host c = .ok c') :
    c'.dataMapParsed = [] ↔ call = .resetParse ∨ c.dataMapParsed = [] ∧ ¬call.LeavesFields := by
  cases call with
  | build call =>
    rw [build_dataMapParsed h]
    simp [LeavesFields]
  | resetParse =>
    obtain rfl := Except.ok.inj h
    exact iff_of_true rfl (Or.inl rfl)
  | deserialize data =>
    have hne : (deserialize data : CodecCall) ≠ .resetParse := by simp
    by_cases ha : ∃ header, Accepts data header
    · obtain ⟨header, ha⟩ := ha
      obtain ⟨fs, hcount, -, rfl⟩ := (deserialize_accepted c ha).1 h
      -- the header of the message says how many fields were added
      have hleaves : (deserialize data).LeavesFields ↔ fs ≠ [] := by
        constructor
        · rintro ⟨header', ha', hpos⟩ rfl
          obtain rfl := ha.unique ha'
          exact hpos (UInt16.toNat_inj.1 hcount.symm)
        · intro hfs
          refine ⟨header, ha, fun hzero => hfs (List.eq_nil_of_length_eq_zero ?_)⟩
          rw [hcount, hzero]
          rfl
      rw [hleaves]
      simp [hne]
    · have hskip : c.deserialize host data = .ok c := deserialize_rejected c (not_exists.1 ha)
      obtain rfl := Except.ok.inj (hskip.symm.trans h)
      have hleaves : ¬(deserialize data).LeavesFields := fun ⟨header, hl, _⟩ => ha ⟨header, hl⟩
      simp [hne, hleaves]

/-- **The parsed map is empty after a history** exactly when every message that left
fields was followed by a reset. -/
theorem runAll_empty_iff (calls : List CodecCall) : ∀ {c : SerializeCodec}, runAll host c calls = .ok c' →
    (c'.dataMapParsed = [] ↔ (c.dataMapParsed = [] ∨ .resetParse ∈ calls) ∧ ResetBetween calls) := by
  induction calls with
  | nil =>
    intro c h
    obtain rfl := Except.ok.inj h
    simp [ResetBetween]
  | cons call calls ih =>
    intro c h
    unfold runAll at h
    rw [List.foldlM_cons] at h
    obtain ⟨c₁, hcall, hcalls⟩ := Checked.bind_eq_ok.1 h
    have hreset : call = .resetParse → ¬call.LeavesFields := by
      rintro rfl h
      exact h
    rw [ih hcalls, run_empty_iff hcall, ResetBetween, List.mem_cons, eq_comm (a := CodecCall.resetParse)]
    tauto

theorem history_empty_iff {config : SerializeConfig} {calls : List CodecCall}
    (h : runAll host (new config) calls = .ok c) : c.dataMapParsed = [] ↔ ResetBetween calls := by
  rw [runAll_empty_iff calls h]
  exact and_iff_right (Or.inl rfl)

/-- **An accepted message is parsed to its own fields** exactly when the map was empty. -/
theorem ownFields_iff {data : Bytes} {header : SerializeHeader} (ha : Accepts data header)
    (h : c.deserialize host data = .ok c') : OwnFields data header c' ↔ c.dataMapParsed = [] := by
  obtain ⟨fs, hcount, hfs, rfl⟩ := (deserialize_accepted c ha).1 h
  constructor
  · rintro ⟨gs, hcount', -, hperm⟩
    have hlength := hperm.length_eq
    unfold getParsedDataMap at hlength
    rw [List.length_append, List.length_map, List.length_map] at hlength
    exact List.eq_nil_of_length_eq_zero (by omega)
  · intro hempty
    refine ⟨fs, hcount, hfs, ?_⟩
    unfold getParsedDataMap
    rw [hempty, List.nil_append]

/-- **Parsing and its history.** Over any two histories of calls: a message that is
accepted after both is parsed to its own fields in both, and looks the same in both,
exactly when in each every earlier message that left fields was followed by a reset. A
message that is rejected leaves the codec as it is. -/
theorem parse_independent_iff (host : Endian)
    (find : List (Bytes × SerializeField) → Bytes → Option SerializeField) :
    (∀ (config₁ config₂ : SerializeConfig) (calls₁ calls₂ : List CodecCall) (c₁ c₂ c₁' c₂' : SerializeCodec)
        (data : Bytes) (header : SerializeHeader),
      runAll host (new config₁) calls₁ = .ok c₁ → runAll host (new config₂) calls₂ = .ok c₂ →
      Accepts data header → c₁.deserialize host data = .ok c₁' → c₂.deserialize host data = .ok c₂' →
      (SameParsed find c₁' c₂' ∧ OwnFields data header c₁' ∧ OwnFields data header c₂' ↔
        ResetBetween calls₁ ∧ ResetBetween calls₂)) ∧
    ∀ (c : SerializeCodec) (data : Bytes), (∀ header, ¬Accepts data header) →
      c.deserialize host data = .ok c := by
  refine ⟨?_, fun c data h => deserialize_rejected c h⟩
  intro config₁ config₂ calls₁ calls₂ c₁ c₂ c₁' c₂' data header h₁ h₂ ha e₁ e₂
  rw [ownFields_iff ha e₁, ownFields_iff ha e₂, history_empty_iff h₁, history_empty_iff h₂]
  refine and_iff_right_of_imp ?_
  rintro ⟨hreset₁, hreset₂⟩
  have hempty₁ := (history_empty_iff h₁).2 hreset₁
  have hempty₂ := (history_empty_iff h₂).2 hreset₂
  -- both maps are the fields that the first parse read
  obtain ⟨fs, hcount, hfs, rfl⟩ := (deserialize_accepted c₁ ha).1 e₁
  have hsecond : c₂.deserialize host data = .ok { c₂ with
      byteArrayParsed := data
      dataMapParsed := c₂.dataMapParsed ++ fs.map entry } :=
    (deserialize_accepted c₂ ha).2 ⟨fs, hcount, hfs, rfl⟩
  obtain rfl := Except.ok.inj (hsecond.symm.trans e₂)
  have hmap : c₁.dataMapParsed = c₂.dataMapParsed := hempty₁.trans hempty₂.symm
  refine ⟨?_, ?_, ?_⟩
  · unfold getParsedDataMap
    rw [hmap]
  · intro key
    unfold getParsedDataMap
    rw [hmap]
  · intro key
    unfold getParsedField
    rw [hmap]

/-- A message with one field, the number `x` under a name of one letter. -/
def oneField (name x : UInt8) : Bytes := frame [⟨1, [name], .uInt8, .none, 1, [x]⟩]

/-- After a message with a field `a`, one with a field `b` alone is parsed to both. -/
theorem earlierField_found :
    (runAll .little (new .default) [.deserialize (oneField 97 7), .deserialize (oneField 98 8)]).map
        (fun c => c.getParsedField [97]) = .ok (some ⟨1, [97], .uInt8, .none, 1, [7]⟩) ∧
      (runAll .little (new .default) [.deserialize (oneField 98 8)]).map
        (fun c => c.getParsedField [97]) = .ok none := by
  decide +kernel

end CodecCall

end ProjectTrans
