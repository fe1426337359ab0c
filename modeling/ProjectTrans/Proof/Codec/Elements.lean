import ProjectTrans.Proof.Codec.Parsers

/-!
# Where `to_array` reads

The elements of a parsed array value are read with an index of their own: by `sizeof(T)`
for a type of fixed size, whatever length the array declares, and by the declared
lengths for byte vectors. `toArray_inside_iff`: **every element is read from inside the
parsed elements exactly when** as many bytes as the elements take are there.
-/

namespace ProjectTrans

open Wire

variable {host : Endian}

/-! ## Loops -/

/-- The loop over values reads inside when that many values are there, and only then. -/
theorem readElements_inside_iff (host : Endian) {T : Type} [Scalar T] {value : Bytes}
    (hlt : value.length < 2 ^ 32) (n : ℕ) : ∀ {i : ℕ}, i ≤ value.length →
      ((∃ xs : List T, readElements T host value n i = .ok xs) ↔ i + Scalar.width T * n ≤ value.length) := by
  induction n with
  | zero => intro i hi; exact iff_of_true ⟨[], rfl⟩ (by omega)
  | succ n ih =>
    intro i hi
    rw [Nat.mul_succ]
    by_cases hfit : i + Scalar.width T ≤ value.length
    · -- the next element is inside, and the index behind it does not wrap
      have hplace : u32 (i + Scalar.width T) = i + Scalar.width T := u32_of_lt (by omega)
      have hread : toLocalByteOrderAt T host value i =
          .ok (toLocalByteOrder T host ((value.drop i).take (Scalar.width T))) := by
        unfold toLocalByteOrderAt
        rw [readAt_ok hfit]
        rfl
      have hnext := ih hfit
      rw [readElements, hread, Checked.ok_bind, hplace]
      constructor
      · rintro ⟨xs, hxs⟩
        obtain ⟨ys, hys, -⟩ := Checked.bind_eq_ok.1 hxs
        have hle := hnext.1 ⟨ys, hys⟩
        omega
      · intro hle
        obtain ⟨ys, hys⟩ := hnext.2 (by omega)
        exact ⟨_ :: ys, by rw [hys]; rfl⟩
    · -- this element leaves the vector
      refine iff_of_false ?_ (by omega)
      rintro ⟨xs, hxs⟩
      rw [readElements] at hxs
      obtain ⟨x, hx, -⟩ := Checked.bind_eq_ok.1 hxs
      unfold toLocalByteOrderAt readAt at hx
      rw [if_neg hfit] at hx
      cases hx

/-- The loop over byte vectors reads inside when the lengths are no more than is there. -/
theorem readByteElements_inside_iff {value : Bytes} (hlt : value.length < 2 ^ 32) (ls : List UInt32) :
    ∀ {i : ℕ}, i ≤ value.length →
      ((∃ xs, readByteElements value ls i = .ok xs) ↔ i + SerializeArrayValue.total ls ≤ value.length) := by
  induction ls with
  | nil => intro i hi; exact iff_of_true ⟨[], rfl⟩ (by simpa [SerializeArrayValue.total] using hi)
  | cons l ls ih =>
    intro i hi
    rw [SerializeArrayValue.total_cons]
    by_cases hfit : i + l.toNat ≤ value.length
    · have hplace : u32 (i + l.toNat) = i + l.toNat := u32_of_lt (by omega)
      have hnext := ih hfit
      rw [readByteElements, readAt_ok hfit, Checked.ok_bind, hplace]
      constructor
      · rintro ⟨xs, hxs⟩
        obtain ⟨ys, hys, -⟩ := Checked.bind_eq_ok.1 hxs
        have hle := hnext.1 ⟨ys, hys⟩
        omega
      · intro hle
        obtain ⟨ys, hys⟩ := hnext.2 (by omega)
        exact ⟨_ :: ys, by rw [hys]; rfl⟩
    · -- this element leaves the vector
      refine iff_of_false ?_ (by omega)
      rintro ⟨xs, hxs⟩
      rw [readByteElements] at hxs
      obtain ⟨x, hx, -⟩ := Checked.bind_eq_ok.1 hxs
      unfold readAt at hx
      rw [if_neg hfit] at hx
      cases hx

/-! ## The parsed array value -/

/-- The loop over the lengths reads as many as there are elements, and adds them up in 32 bits. -/
theorem readElementLengths_some {data : Bytes} (n : ℕ) : ∀ {ls ls' : List UInt32} {v v' : ℕ} {r r' : Reader},
    v < 2 ^ 32 → (SerializeArrayValue.readElementLengths host data n ls v r).run = .ok (some (ls', v', r')) →
    ls'.length = ls.length + n ∧ v' < 2 ^ 32 := by
  induction n with
  | zero =>
    intro ls ls' v v' r r' hv h
    cases h
    exact ⟨rfl, hv⟩
  | succ n ih =>
    intro ls ls' v v' r r' hv h
    rw [SerializeArrayValue.readElementLengths] at h
    obtain ⟨⟨p, r₁⟩, -, h⟩ := Checked.optionBind_some h
    obtain ⟨hlength, hv'⟩ := ih (u32_lt _) h
    rw [List.length_append, List.length_singleton] at hlength
    exact ⟨by omega, hv'⟩

/-- The elements are shorter than `2^32`, and a variable array has a length for each. -/
theorem fromSerializedByteArray_some {data : Bytes} {a : SerializeArrayValue}
    (h : (SerializeArrayValue.fromSerializedByteArray host data).run = .ok (some a)) :
    a.elementValue.length < 2 ^ 32 ∧ (a.isVariable = true → a.elementValueLength.length =
      a.elementCount.toNat) := by
  rcases Nat.lt_or_ge data.length 10 with hshort | hlen
  · rw [SerializeArrayValue.fromSerializedByteArray_short host hshort] at h
    cases h
  obtain ⟨type, count, flag, hhead⟩ := SerializeArrayValue.exists_headOf hlen
  rw [SerializeArrayValue.fromSerializedByteArray_eq host hhead hlen] at h
  by_cases hflag : hasFlag flag.bits SerializeArrayFlag.isElementLengthVariable.bits = true
  · rw [if_pos hflag] at h
    obtain ⟨⟨ls, v, r⟩, hlengths, h⟩ := Checked.optionBind_some h
    obtain ⟨⟨p, r'⟩, hnext, h⟩ := Checked.optionBind_some h
    obtain ⟨hcount, hv⟩ := readElementLengths_some count.toNat (by norm_num) hlengths
    have hp := Reader.next_length hnext
    cases h
    exact ⟨by dsimp only; omega, fun _ => by simpa using hcount⟩
  · rw [if_neg hflag] at h
    obtain ⟨⟨p, r⟩, -, h⟩ := Checked.optionBind_some h
    obtain ⟨⟨q, r'⟩, hnext, h⟩ := Checked.optionBind_some h
    have hq := Reader.next_length hnext
    have hlt := u32_lt ((toLocalByteOrder UInt32 host p).toNat * count.toNat)
    cases h
    exact ⟨by dsimp only; omega, fun hvariable => absurd hvariable hflag⟩

/-- **Where `to_array` reads.** For a type of fixed size: inside the elements exactly when
`sizeof(T)` times the count is there. For byte vectors: exactly when the sum of the lengths
is there, and for an array of fixed-length elements only when there are none. -/
theorem toArray_inside_iff {field : SerializeField} {a : SerializeArrayValue}
    (h : (SerializeArrayValue.fromSerializedByteArray host field.value).run = .ok (some a)) :
    (∀ (T : Type) [Scalar T] [HasDataType T],
      (∃ xs, toArray T host field = .ok xs ∧ (xs = [] ∨ xs.length = a.elementCount.toNat)) ↔
        (a.elementType = getDataType T → a.isVariable = false →
          Scalar.width T * a.elementCount.toNat ≤ a.elementValue.length)) ∧
    ((∃ xs, toArrayBytes host field = .ok xs ∧ (xs = [] ∨ xs.length = a.elementCount.toNat)) ↔
      (a.elementType = .byteArray →
        if a.isVariable then SerializeArrayValue.total a.elementValueLength ≤ a.elementValue.length
        else a.elementCount = 0)) := by
  obtain ⟨hlt, hcount⟩ := fromSerializedByteArray_some h
  constructor
  · intro T _ _
    unfold toArray
    rw [h, Checked.ok_bind]
    dsimp only
    by_cases htype : a.elementType = getDataType T
    swap
    · rw [if_pos htype]
      -- an array of another type is not read
      exact iff_of_true ⟨[], rfl, Or.inl rfl⟩ fun h => absurd h htype
    rw [if_neg (not_not.2 htype)]
    by_cases hvariable : a.isVariable = true
    · -- elements with lengths of their own are not read
      rw [if_pos hvariable]
      exact iff_of_true ⟨[], rfl, Or.inl rfl⟩ fun _ h => absurd hvariable (by simp [h])
    rw [if_neg hvariable]
    have hloop := readElements_inside_iff host (T := T) hlt a.elementCount.toNat (Nat.zero_le _)
    rw [Nat.zero_add] at hloop
    constructor
    · rintro ⟨xs, hxs, -⟩ _ _
      exact hloop.1 ⟨xs, hxs⟩
    · intro hfit
      obtain ⟨xs, hxs⟩ := hloop.2 (hfit htype (by simpa using hvariable))
      exact ⟨xs, hxs, Or.inr (readElements_length _ hxs)⟩
  · unfold toArrayBytes
    rw [h, Checked.ok_bind]
    dsimp only
    by_cases htype : a.elementType = .byteArray
    swap
    · rw [if_pos htype]
      exact iff_of_true ⟨[], rfl, Or.inl rfl⟩ fun h => absurd h htype
    rw [if_neg (not_not.2 htype)]
    by_cases hvariable : a.isVariable = true
    · have hlengths := hcount hvariable
      rw [if_pos hvariable, if_pos hvariable, if_neg (not_not.2 hlengths.symm)]
      have hloop := readByteElements_inside_iff hlt a.elementValueLength (Nat.zero_le _)
      rw [Nat.zero_add] at hloop
      constructor
      · rintro ⟨xs, hxs, -⟩ _
        exact hloop.1 ⟨xs, hxs⟩
      · intro hfit
        obtain ⟨xs, hxs⟩ := hloop.2 (hfit htype)
        exact ⟨xs, hxs, Or.inr ((readByteElements_length _ hxs).trans hlengths)⟩
    · rw [if_neg hvariable, if_neg hvariable]
      by_cases hzero : a.elementCount = 0
      · rw [if_pos hzero]
        exact iff_of_true ⟨[], rfl, Or.inl rfl⟩ fun _ => hzero
      · -- the object is overwritten
        rw [if_neg hzero]
        refine iff_of_false ?_ fun hcond => hzero (hcond htype)
        rintro ⟨xs, hxs, -⟩
        cases hxs

/-- Two elements of one byte each. -/
theorem toArray_inside_iff_two :
    (∃ xs, toArray UInt8 .little ⟨1, [97], .array, .hasValueLength, 12, [1, 0, 0, 0, 2, 0, 0, 0, 0, 1, 5, 6]⟩ =
        .ok xs ∧ (xs = [] ∨ xs.length = 2)) ↔
      (DataType.uInt8 = getDataType UInt8 →
        SerializeArrayValue.isVariable ⟨.uInt8, 2, .none, [1], [5, 6]⟩ = false →
          Scalar.width UInt8 * 2 ≤ [(5 : UInt8), 6].length) :=
  (toArray_inside_iff (a := ⟨.uInt8, 2, .none, [1], [5, 6]⟩) (by decide +kernel)).1 UInt8

/-- One element that declares a single byte, read as a number of four. -/
theorem toArray_outside :
    (SerializeArrayValue.fromSerializedByteArray .little [5, 0, 0, 0, 1, 0, 0, 0, 0, 1, 9]).run =
        .ok (some ⟨.uInt32, 1, .none, [1], [9]⟩) ∧
      toArray UInt32 .little ⟨1, [97], .array, .hasValueLength, 11, [5, 0, 0, 0, 1, 0, 0, 0, 0, 1, 9]⟩ =
        .error (.outOfRange 0 4 1) := by
  decide +kernel

end ProjectTrans
