import Mathlib.Tactic

/-!
# Numbers as bytes

Fixed-width unsigned numbers in the two byte orders, and the scalar types whose
object representation is such a number. `encode_decode` and `decode_encode` are
the two round trips; `Endian.encode_swap` is what reversing the bytes of a
number does to its order.
-/

namespace Wire

/-- A byte vector. -/
abbrev Bytes := List UInt8

/-- The bytes of an ASCII literal. -/
def ascii (s : String) : Bytes := s.toList.map fun c => UInt8.ofNat c.toNat

/-- The byte order of a machine's own representation of numbers. -/
inductive Endian
  | little
  | big
  deriving DecidableEq, Repr

/-- The other order. -/
def Endian.swap : Endian → Endian
  | .little => .big
  | .big => .little

/-- The low `w` bytes of `n`, least significant first. -/
def leBytes : ℕ → ℕ → Bytes
  | 0, _ => []
  | w + 1, n => UInt8.ofNat n :: leBytes w (n / 256)

/-- The number whose bytes are given, least significant first. -/
def leVal : Bytes → ℕ
  | [] => 0
  | b :: bs => b.toNat + 256 * leVal bs

/-- The low `w` bytes of `n` in a byte order. -/
def Endian.encode : Endian → ℕ → ℕ → Bytes
  | .little, w, n => leBytes w n
  | .big, w, n => (leBytes w n).reverse

/-- The number whose bytes are given in a byte order. -/
def Endian.decode : Endian → Bytes → ℕ
  | .little, bs => leVal bs
  | .big, bs => leVal bs.reverse

@[simp] theorem leBytes_length (w n : ℕ) : (leBytes w n).length = w := by
  induction w generalizing n with
  | zero => rfl
  | succ w ih => simp [leBytes, ih]

@[simp] theorem Endian.encode_length (e : Endian) (w n : ℕ) : (e.encode w n).length = w := by
  cases e <;> simp [Endian.encode]

theorem leVal_lt (bs : Bytes) : leVal bs < 256 ^ bs.length := by
  induction bs with
  | nil => simp [leVal]
  | cons b bs ih =>
    have hb : b.toNat < 256 := b.toNat_lt
    simp only [leVal, List.length_cons, pow_succ]
    omega

theorem leVal_leBytes (w n : ℕ) (h : n < 256 ^ w) : leVal (leBytes w n) = n := by
  induction w generalizing n with
  | zero => simp only [pow_zero] at h; simp only [leBytes, leVal]; omega
  | succ w ih =>
    have hq : n / 256 < 256 ^ w := by
      rw [Nat.div_lt_iff_lt_mul (by norm_num)]; rwa [pow_succ] at h
    have hr : (UInt8.ofNat n).toNat = n % 256 := by simp
    simp only [leBytes, leVal, ih _ hq, hr]
    omega

theorem leBytes_leVal (bs : Bytes) : leBytes bs.length (leVal bs) = bs := by
  induction bs with
  | nil => rfl
  | cons b bs ih =>
    have hb : b.toNat < 256 := b.toNat_lt
    have hq : (b.toNat + 256 * leVal bs) / 256 = leVal bs := by omega
    have hr : UInt8.ofNat (b.toNat + 256 * leVal bs) = b := by
      apply UInt8.toNat_inj.1
      rw [UInt8.toNat_ofNat']; omega
    simp only [leVal, List.length_cons, leBytes, hq, hr, ih]

/-- A number that fits its width is read back. -/
theorem Endian.decode_encode (e : Endian) {w n : ℕ} (h : n < 256 ^ w) :
    e.decode (e.encode w n) = n := by
  cases e <;> simp [Endian.encode, Endian.decode, leVal_leBytes w n h]

/-- The bytes of a number are the bytes it was read from. -/
theorem Endian.encode_decode (e : Endian) (bs : Bytes) : e.encode bs.length (e.decode bs) = bs := by
  cases e with
  | little => exact leBytes_leVal bs
  | big =>
    have h := leBytes_leVal bs.reverse
    rw [List.length_reverse] at h
    simp only [Endian.encode, Endian.decode, h, List.reverse_reverse]

theorem Endian.decode_lt (e : Endian) (bs : Bytes) : e.decode bs < 256 ^ bs.length := by
  cases e with
  | little => exact leVal_lt bs
  | big => have h := leVal_lt bs.reverse; rwa [List.length_reverse] at h

/-- Reversing the bytes of a number gives its bytes in the other order. -/
theorem Endian.encode_swap (e : Endian) (w n : ℕ) : (e.encode w n).reverse = e.swap.encode w n := by
  cases e <;> simp [Endian.encode, Endian.swap]

theorem Endian.decode_reverse (e : Endian) (bs : Bytes) : e.decode bs.reverse = e.swap.decode bs := by
  cases e <;> simp [Endian.decode, Endian.swap]

/-- Most significant byte first: the order of the wire. -/
abbrev beBytes (w n : ℕ) : Bytes := Endian.big.encode w n

/-- The number whose bytes are given most significant first. -/
abbrev beVal (bs : Bytes) : ℕ := Endian.big.decode bs

theorem beVal_beBytes {w n : ℕ} (h : n < 256 ^ w) : beVal (beBytes w n) = n := Endian.big.decode_encode h

theorem beBytes_beVal (bs : Bytes) : beBytes bs.length (beVal bs) = bs := Endian.big.encode_decode bs

/-! ## Scalar types -/

/-- A type whose values are exactly the bit patterns of `width` bytes. -/
class Scalar (T : Type) where
  width : ℕ
  bits : T → ℕ
  ofBits : ℕ → T
  bits_lt : ∀ x, bits x < 256 ^ width
  ofBits_bits : ∀ x, ofBits (bits x) = x
  bits_ofBits : ∀ n, n < 256 ^ width → bits (ofBits n) = n

instance : Scalar UInt8 where
  width := 1
  bits := UInt8.toNat
  ofBits := UInt8.ofNat
  bits_lt x := x.toNat_lt
  ofBits_bits x := by simp
  bits_ofBits n h := by simp; omega

instance : Scalar UInt16 where
  width := 2
  bits := UInt16.toNat
  ofBits := UInt16.ofNat
  bits_lt x := x.toNat_lt
  ofBits_bits x := by simp
  bits_ofBits n h := by simp; omega

instance : Scalar UInt32 where
  width := 4
  bits := UInt32.toNat
  ofBits := UInt32.ofNat
  bits_lt x := x.toNat_lt
  ofBits_bits x := by simp
  bits_ofBits n h := by simp; omega

instance : Scalar UInt64 where
  width := 8
  bits := UInt64.toNat
  ofBits := UInt64.ofNat
  bits_lt x := x.toNat_lt
  ofBits_bits x := by simp
  bits_ofBits n h := by simp; omega

instance : Scalar Int8 where
  width := 1
  bits x := x.toUInt8.toNat
  ofBits n := (UInt8.ofNat n).toInt8
  bits_lt x := x.toUInt8.toNat_lt
  ofBits_bits x := by simp
  bits_ofBits n h := by simp; omega

instance : Scalar Int16 where
  width := 2
  bits x := x.toUInt16.toNat
  ofBits n := (UInt16.ofNat n).toInt16
  bits_lt x := x.toUInt16.toNat_lt
  ofBits_bits x := by simp
  bits_ofBits n h := by simp; omega

instance : Scalar Int32 where
  width := 4
  bits x := x.toUInt32.toNat
  ofBits n := (UInt32.ofNat n).toInt32
  bits_lt x := x.toUInt32.toNat_lt
  ofBits_bits x := by simp
  bits_ofBits n h := by simp; omega

instance : Scalar Int64 where
  width := 8
  bits x := x.toUInt64.toNat
  ofBits n := (UInt64.ofNat n).toInt64
  bits_lt x := x.toUInt64.toNat_lt
  ofBits_bits x := by simp
  bits_ofBits n h := by simp; omega

@[simp] theorem Scalar.width_int8 : Scalar.width Int8 = 1 := rfl
@[simp] theorem Scalar.width_int16 : Scalar.width Int16 = 2 := rfl
@[simp] theorem Scalar.width_int32 : Scalar.width Int32 = 4 := rfl
@[simp] theorem Scalar.width_uInt8 : Scalar.width UInt8 = 1 := rfl
@[simp] theorem Scalar.width_uInt16 : Scalar.width UInt16 = 2 := rfl
@[simp] theorem Scalar.width_uInt32 : Scalar.width UInt32 = 4 := rfl
@[simp] theorem Scalar.width_uInt64 : Scalar.width UInt64 = 8 := rfl
@[simp] theorem Scalar.width_int64 : Scalar.width Int64 = 8 := rfl
@[simp] theorem Scalar.bits_uInt8 (x : UInt8) : Scalar.bits x = x.toNat := rfl
@[simp] theorem Scalar.bits_uInt16 (x : UInt16) : Scalar.bits x = x.toNat := rfl
@[simp] theorem Scalar.bits_uInt32 (x : UInt32) : Scalar.bits x = x.toNat := rfl
@[simp] theorem Scalar.bits_uInt64 (x : UInt64) : Scalar.bits x = x.toNat := rfl

variable {T : Type} [Scalar T]

/-- The bytes of a value in memory. -/
def objectBytes (e : Endian) (x : T) : Bytes := e.encode (Scalar.width T) (Scalar.bits x)

/-- The value whose bytes in memory are given. -/
def ofObject (T : Type) [Scalar T] (e : Endian) (bs : Bytes) : T := Scalar.ofBits (e.decode bs)

@[simp] theorem objectBytes_length (e : Endian) (x : T) :
    (objectBytes e x).length = Scalar.width T := by simp [objectBytes]

@[simp] theorem ofObject_objectBytes (e : Endian) (x : T) : ofObject T e (objectBytes e x) = x := by
  simp [ofObject, objectBytes, e.decode_encode (Scalar.bits_lt x), Scalar.ofBits_bits]

/-- The bytes are those of the value read from them. -/
theorem objectBytes_ofObject (e : Endian) {bs : Bytes} (h : bs.length = Scalar.width T) :
    objectBytes e (ofObject T e bs) = bs := by
  have hlt : e.decode bs < 256 ^ Scalar.width T := h ▸ e.decode_lt bs
  rw [objectBytes, ofObject, Scalar.bits_ofBits _ hlt, ← h, e.encode_decode]

/-- **Bytes of one machine read on another** are the same value exactly when they are its
bytes there too. -/
theorem ofObject_objectBytes_iff {e e' : Endian} {x : T} :
    ofObject T e' (objectBytes e x) = x ↔ objectBytes e x = objectBytes e' x := by
  constructor
  · intro h
    have hb := objectBytes_ofObject e' (objectBytes_length e x)
    rw [h] at hb
    exact hb.symm
  · intro h
    rw [h, ofObject_objectBytes]

/-! ## 32-bit arithmetic -/

/-- The value of an unsigned 32-bit computation. -/
def u32 (n : ℕ) : ℕ := n % 2 ^ 32

theorem u32_lt (n : ℕ) : u32 n < 2 ^ 32 := Nat.mod_lt _ (by norm_num)

theorem u32_add (m n : ℕ) : u32 (u32 m + n) = u32 (m + n) := by unfold u32; omega

theorem u32_of_lt {n : ℕ} (h : n < 2 ^ 32) : u32 n = n := Nat.mod_eq_of_lt h

end Wire
