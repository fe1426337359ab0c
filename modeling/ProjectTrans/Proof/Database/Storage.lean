import Mathlib.Data.List.TakeWhile
import Mathlib.Data.UInt
import ProjectTrans.Model.Database.SqliteDriver

/-!
# Values there and back

A value is bound to a statement, kept by SQLite as it was bound, and read again.
`readsBack_iff`: **it comes back as the same value exactly when** an unsigned number is
below `2^63`, a string has no zero byte, and a byte array has elements, or memory of its
own, and fewer than `2^31` of them.
-/

namespace ProjectTrans

open Wire

/-- What a value denotes: integers and booleans are numbers. -/
inductive Denotation
  | number (n : ℤ)
  | real (bits : UInt64)
  | text (v : Bytes)
  | bytes (v : Bytes)
  | nothing
  deriving DecidableEq, Repr

section Denotes

variable (widen : UInt32 → UInt64)

/-- What the data of a cell denotes. -/
def CellData.denotes : CellData → Denotation
  | .int8 v => .number v.toInt
  | .uInt8 v => .number v.toNat
  | .int16 v => .number v.toInt
  | .uInt16 v => .number v.toNat
  | .int32 v => .number v.toInt
  | .uInt32 v => .number v.toNat
  | .int64 v => .number v.toInt
  | .uInt64 v => .number v.toNat
  | .float bits => .real (widen bits)
  | .double bits => .real bits
  | .bool v => .number (if v then 1 else 0)
  | .string v => .text v
  | .byteArray v => .bytes v
  | .null => .nothing

end Denotes

/-- A value that comes back. -/
def CellData.Kept (owned : Bool) : CellData → Prop
  | .uInt64 v => v.toNat < 2 ^ 63
  | .string v => 0 ∉ v
  | .byteArray v => (v ≠ [] ∨ owned = true) ∧ v.length < 2 ^ 31
  | _ => True

/-- A byte string without a zero byte is its own C string, and no other is. -/
theorem cString_eq_self_iff {s : Bytes} : cString s = s ↔ 0 ∉ s := by
  rw [cString, List.takeWhile_eq_self_iff]
  constructor
  · intro h hmem
    exact absurd (h 0 hmem) (by decide)
  · intro h b hb
    refine decide_eq_true fun hzero => h ?_
    rwa [hzero] at hb

/-- A C string has no zero byte. -/
theorem zero_notMem_cString (s : Bytes) : (0 : UInt8) ∉ cString s := by
  intro hmem
  have hzero := List.mem_takeWhile_imp hmem
  exact absurd hzero (by decide)

namespace SqliteDriver

variable (widen : UInt32 → UInt64) (owned : Bool)

/-- The cell that is read where `data` was bound, if it was. -/
def readBack (data : CellData) (columnName : Text) : Checked (Option SqlCell) := do
  match ← bind widen owned ⟨data.type, data, columnName⟩ with
  | none => return none
  | some value => return (queryCells [columnName] [[value]]).flatten.head?

/-- **The cell that is read back** denotes what was bound, and has the type of its data. -/
def ReadsBack (data : CellData) (columnName : Text) : Prop :=
  ∃ cell, readBack widen owned data columnName = .ok (some cell) ∧ cell.data.denotes widen = data.denotes widen ∧
    cell.type = cell.data.type ∧ cell.columnName = columnName

/-- A cell whose type is that of its data is bound as its data is. -/
theorem bind_eq (data : CellData) (columnName : Text) :
    bind widen owned ⟨data.type, data, columnName⟩ = some <$> bindData widen owned data := by
  cases data <;> rfl

/-- What is read where the data was bound to a value. -/
theorem readBack_eq_ok {data : CellData} {value : SqliteValue} (h : bindData widen owned data = .ok value)
    (columnName : Text) : readBack widen owned data columnName = .ok (some (columnCell columnName value)) := by
  rw [readBack, bind_eq, h]
  rfl

theorem columnCell_type (columnName : Text) (value : SqliteValue) :
    (columnCell columnName value).type = (columnCell columnName value).data.type := by
  cases value <;> rfl

/-- A value that is bound comes back exactly when it is read as what was meant. -/
theorem readsBack_of_ok {data : CellData} {value : SqliteValue} (h : bindData widen owned data = .ok value)
    (columnName : Text) : ReadsBack widen owned data columnName ↔
      (columnCell columnName value).data.denotes widen = data.denotes widen := by
  have hread := readBack_eq_ok widen owned h columnName
  constructor
  · rintro ⟨cell, hcell, hdenotes, -, -⟩
    obtain rfl := Option.some.inj (Except.ok.inj (hread.symm.trans hcell))
    exact hdenotes
  · intro hdenotes
    refine ⟨_, hread, hdenotes, columnCell_type columnName value, ?_⟩
    cases value <;> rfl

/-- What cannot be bound does not come back. -/
theorem not_readsBack_of_error {data : CellData} {e : Fault} (h : bindData widen owned data = .error e)
    (columnName : Text) : ¬ReadsBack widen owned data columnName := by
  rintro ⟨cell, hcell, -⟩
  rw [readBack, bind_eq, h] at hcell
  cases hcell

/-- A number bound with 32 bits comes back. -/
theorem readsBack_int {data : CellData} {v : Int32} {n : ℤ} (h : bindData widen owned data = .ok (bindInt v))
    (hv : v.toInt = n) (columnName : Text) (hn : data.denotes widen = .number n := by rfl) :
    ReadsBack widen owned data columnName := by
  refine (readsBack_of_ok widen owned h columnName).2 ?_
  rw [hn, ← hv]
  exact congrArg Denotation.number (Int32.toInt_toInt64 v)

/-! ## Byte arrays -/

/-- The length a byte array is bound with, as a signed number. -/
theorem length_toInt {n : ℕ} (h : n < 2 ^ 31) : (Int32.ofNat n).toInt = n := Int32.toInt_ofNat_of_lt h

/-- **A byte array comes back** when it is not bound as NULL and its length has 31 bits. -/
theorem readsBack_byteArray_iff (v : Bytes) (columnName : Text) :
    ReadsBack widen owned (.byteArray v) columnName ↔ (v ≠ [] ∨ owned = true) ∧ v.length < 2 ^ 31 := by
  by_cases hnull : (v.isEmpty && !owned) = true
  · -- bytes that are not there are bound as NULL
    have hbind : bindData widen owned (.byteArray v) = .ok .null := if_pos hnull
    rw [readsBack_of_ok widen owned hbind]
    simp only [Bool.and_eq_true, List.isEmpty_iff, Bool.not_eq_true'] at hnull
    refine iff_of_false (fun h => by cases h) ?_
    rintro ⟨hne | howned, -⟩
    · exact hne hnull.1
    · exact absurd (hnull.2.symm.trans howned) Bool.false_ne_true
  have hkept : v ≠ [] ∨ owned = true := by
    by_contra hcon
    obtain ⟨hnil, howned⟩ := not_or.1 hcon
    refine hnull ?_
    rw [not_not.1 hnil, Bool.eq_false_of_not_eq_true howned]
    rfl
  rw [and_iff_right hkept]
  have hbind : bindData widen owned (.byteArray v) =
      if Int32.ofNat v.length < 0 then .error (.negativeLength (Int32.ofNat v.length).toInt)
      else .ok (.blob (v.take (Int32.ofNat v.length).toInt.toNat)) := if_neg hnull
  have hzero : (0 : Int32).toInt = 0 := rfl
  by_cases hneg : Int32.ofNat v.length < 0
  · rw [if_pos hneg] at hbind
    -- a length that becomes negative is refused
    refine iff_of_false (not_readsBack_of_error widen owned hbind columnName) ?_
    intro hlt
    rw [Int32.lt_iff_toInt_lt, length_toInt hlt, hzero] at hneg
    omega
  · rw [if_neg hneg] at hbind
    rw [readsBack_of_ok widen owned hbind]
    -- as many bytes are bound as the narrowed length says
    have hdenotes :
        (columnCell columnName (.blob (v.take (Int32.ofNat v.length).toInt.toNat))).data.denotes widen =
          (CellData.byteArray v).denotes widen ↔ v.length ≤ (Int32.ofNat v.length).toInt.toNat := by
      show Denotation.bytes _ = Denotation.bytes _ ↔ _
      rw [ Denotation.bytes.injEq, List.take_eq_self_iff]
    rw [hdenotes]
    constructor
    · intro hle
      have hlt := (Int32.ofNat v.length).toInt_lt
      omega
    · intro hlt
      rw [length_toInt hlt]
      omega

/-! ## All values -/

/-- **A value comes back exactly when** it is one of those that are kept. -/
theorem readsBack_iff (data : CellData) (columnName : Text) :
    ReadsBack widen owned data columnName ↔ data.Kept owned := by
  cases data with
  | string v =>
    have hbind : bindData widen owned (.string v) = .ok (.text (cString v)) := rfl
    rw [readsBack_of_ok widen owned hbind]
    -- the text is cut at its zero byte when it is bound; reading it cuts nothing more
    have htwice : cString (cString v) = cString v := cString_eq_self_iff.2 (zero_notMem_cString v)
    show Denotation.text (cString (cString v)) = Denotation.text v ↔ 0 ∉ v
    rw [htwice, Denotation.text.injEq, cString_eq_self_iff]
  | byteArray v => exact readsBack_byteArray_iff widen owned v columnName
  | uInt64 v =>
    have hbind : bindData widen owned (.uInt64 v) = .ok (.integer v.toInt64) := rfl
    rw [readsBack_of_ok widen owned hbind]
    show Denotation.number v.toInt64.toInt = Denotation.number v.toNat ↔ v.toNat < 2 ^ 63
    have hv := v.toNat_lt
    have hsigned : v.toInt64.toInt = (v.toNat : ℤ).bmod (2 ^ 64) := BitVec.toInt_eq_toNat_bmod v.toBitVec
    rw [ Denotation.number.injEq, hsigned]
    constructor
    · intro heq
      -- what is read is signed, so it is below `2 ^ 63`
      have hhigh : (v.toNat : ℤ).bmod (2 ^ 64) < 2 ^ 63 := by
        have h := v.toInt64.toInt_lt
        rwa [hsigned] at h
      omega
    · intro hlt
      exact Int.bmod_eq_of_le (by omega) (by omega)
  | int8 v => exact iff_of_true (readsBack_int widen owned rfl (Int8.toInt_toInt32 v) columnName) trivial
  | uInt8 v =>
    have hv := v.toNat_lt
    exact iff_of_true (readsBack_int widen owned rfl (Int32.toInt_ofNat_of_lt (by omega)) columnName) trivial
  | int16 v => exact iff_of_true (readsBack_int widen owned rfl (Int16.toInt_toInt32 v) columnName) trivial
  | uInt16 v =>
    have hv := v.toNat_lt
    exact iff_of_true (readsBack_int widen owned rfl (Int32.toInt_ofNat_of_lt (by omega)) columnName) trivial
  | int32 v => exact iff_of_true (readsBack_int widen owned rfl rfl columnName) trivial
  | uInt32 v =>
    have hv := v.toNat_lt
    have hbind : bindData widen owned (.uInt32 v) = .ok (.integer (.ofNat v.toNat)) := rfl
    refine iff_of_true ((readsBack_of_ok widen owned hbind columnName).2 ?_) trivial
    exact congrArg Denotation.number (Int64.toInt_ofNat_of_lt (by omega))
  | int64 v =>
    have hbind : bindData widen owned (.int64 v) = .ok (.integer v) := rfl
    exact iff_of_true ((readsBack_of_ok widen owned hbind columnName).2 rfl) trivial
  | float bits =>
    have hbind : bindData widen owned (.float bits) = .ok (.real (widen bits)) := rfl
    exact iff_of_true ((readsBack_of_ok widen owned hbind columnName).2 rfl) trivial
  | double bits =>
    have hbind : bindData widen owned (.double bits) = .ok (.real bits) := rfl
    exact iff_of_true ((readsBack_of_ok widen owned hbind columnName).2 rfl) trivial
  | bool v =>
    have hv : (if v then (1 : Int32) else 0).toInt = if v then 1 else 0 := by cases v <;> rfl
    exact iff_of_true (readsBack_int widen owned rfl hv columnName) trivial
  | null =>
    have hbind : bindData widen owned .null = .ok .null := rfl
    exact iff_of_true ((readsBack_of_ok widen owned hbind columnName).2 rfl) trivial

/-- The number `2^63` comes back negative, a text ends at its zero byte, and an empty byte
array comes back as NULL. -/
theorem lost_values :
    readBack UInt32.toUInt64 false (.uInt64 (2 ^ 63)) [] = .ok (some ⟨.int64, .int64 (-2 ^ 63), []⟩) ∧
      readBack UInt32.toUInt64 false (.string [65, 0, 66]) [] = .ok (some ⟨.string, .string [65], []⟩) ∧
      readBack UInt32.toUInt64 false (.byteArray []) [] = .ok (some ⟨.null, .null, []⟩) ∧
      ¬ReadsBack UInt32.toUInt64 false (.uInt64 (2 ^ 63)) [] ∧
      ¬ReadsBack UInt32.toUInt64 false (.string [65, 0, 66]) [] ∧
      ¬ReadsBack UInt32.toUInt64 false (.byteArray []) [] := by
  have hnumber : bindData UInt32.toUInt64 false (.uInt64 (2 ^ 63)) = .ok (.integer (-2 ^ 63)) := by decide +kernel
  have htext : bindData UInt32.toUInt64 false (.string [65, 0, 66]) = .ok (.text [65]) := by decide
  have hbytes : bindData UInt32.toUInt64 false (.byteArray []) = .ok .null := by decide
  refine ⟨readBack_eq_ok _ _ hnumber [], readBack_eq_ok _ _ htext [], readBack_eq_ok _ _ hbytes [], ?_⟩
  rw [readsBack_of_ok _ _ hnumber, readsBack_of_ok _ _ htext, readsBack_of_ok _ _ hbytes]
  decide +kernel

end SqliteDriver

end ProjectTrans
