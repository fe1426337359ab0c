import ProjectTrans.Lib.Buffer

/-!
# Byte order (`common/binary`)

The conversions between the host's byte order and the network's. The host's own
order is a parameter of every conversion. A single scalar reaches the wire most
significant byte first (`toNetworkByteOrder_eq`) whatever the host; a run of
bytes is not moved at all (`convertByteOrderArray_one`).
-/

namespace ProjectTrans

open Wire

/-- `ByteOrder`. -/
inductive ByteOrder
  | unknown
  | littleEndian
  | bigEndian
  deriving DecidableEq, Repr

/-- `DANEJOE_NETWORK_BYTE_ORDER`. -/
def networkByteOrder : ByteOrder := .bigEndian

/-- `get_local_byte_order`: look at the first byte of a 16-bit one in memory. -/
def getLocalByteOrder (host : Endian) : ByteOrder :=
  if (objectBytes host (1 : UInt16)).head? = some 1 then .littleEndian else .bigEndian

/-- `is_network_byte_order`. -/
def isNetworkByteOrder (host : Endian) : Bool := getLocalByteOrder host == networkByteOrder

@[simp] theorem isNetworkByteOrder_big : isNetworkByteOrder .big = true := by decide

@[simp] theorem isNetworkByteOrder_little : isNetworkByteOrder .little = false := by decide

/-- `convert_byte_order` of one element, given by its bytes in memory. -/
def convertByteOrder (host : Endian) (src : Bytes) : Bytes :=
  if isNetworkByteOrder host then src else src.reverse

/-- `convert_byte_order` of `count` elements of `size` bytes each. -/
def convertByteOrderArray (host : Endian) (size count : ℕ) (src : Bytes) : Bytes :=
  if isNetworkByteOrder host then src.take (size * count)
  else (List.range count).flatMap fun i => ((src.drop (i * size)).take size).reverse

variable {T : Type} [Scalar T]

/-- `to_network_byte_order` of a scalar: the bytes it writes. -/
def toNetworkByteOrder (host : Endian) (x : T) : Bytes := convertByteOrder host (objectBytes host x)

/-- `to_local_byte_order` of a scalar: the value read from wire bytes. -/
def toLocalByteOrder (T : Type) [Scalar T] (host : Endian) (src : Bytes) : T :=
  ofObject T host (convertByteOrder host src)

/-- `to_byte_array` of a scalar: its bytes in memory. -/
def toByteArray (host : Endian) (x : T) : Bytes := objectBytes host x

/-- `try_cast`: the value in the first bytes of a vector. -/
def tryCast (T : Type) [Scalar T] (host : Endian) (bytes : Bytes) : Option T :=
  if bytes.length < Scalar.width T then none
  else some (ofObject T host (bytes.take (Scalar.width T)))

/-- **A scalar goes out most significant byte first**, on every host. -/
theorem toNetworkByteOrder_eq (host : Endian) (x : T) :
    toNetworkByteOrder host x = beBytes (Scalar.width T) (Scalar.bits x) := by
  cases host <;> simp [toNetworkByteOrder, convertByteOrder, objectBytes, Endian.encode_swap, Endian.swap]

@[simp] theorem toNetworkByteOrder_length (host : Endian) (x : T) :
    (toNetworkByteOrder host x).length = Scalar.width T := by simp [toNetworkByteOrder_eq]

theorem toLocalByteOrder_eq (host : Endian) (src : Bytes) :
    toLocalByteOrder T host src = Scalar.ofBits (beVal src) := by
  cases host <;>
    simp [toLocalByteOrder, convertByteOrder, ofObject, Endian.decode_reverse, Endian.swap]

/-- What one host sends another one reads. -/
@[simp] theorem toLocalByteOrder_toNetworkByteOrder (host host' : Endian) (x : T) :
    toLocalByteOrder T host' (toNetworkByteOrder host x) = x := by
  rw [toNetworkByteOrder_eq, toLocalByteOrder_eq, beVal_beBytes (Scalar.bits_lt x), Scalar.ofBits_bits]

theorem toNetworkByteOrder_toLocalByteOrder (host host' : Endian) {src : Bytes}
    (h : src.length = Scalar.width T) :
    toNetworkByteOrder host (toLocalByteOrder T host' src) = src := by
  have hlt : beVal src < 256 ^ Scalar.width T := h ▸ Endian.decode_lt _ src
  rw [toNetworkByteOrder_eq, toLocalByteOrder_eq, Scalar.bits_ofBits _ hlt, ← h, beBytes_beVal]

theorem beBytes_toLocalByteOrder (host : Endian) {src : Bytes} (h : src.length = Scalar.width T) :
    beBytes (Scalar.width T) (Scalar.bits (toLocalByteOrder T host src)) = src := by
  rw [← toNetworkByteOrder_eq host, toNetworkByteOrder_toLocalByteOrder host host h]

@[simp] theorem toLocalByteOrder_beBytes (host : Endian) (x : T) :
    toLocalByteOrder T host (beBytes (Scalar.width T) (Scalar.bits x)) = x := by
  rw [← toNetworkByteOrder_eq host, toLocalByteOrder_toNetworkByteOrder]

/-- `to_local_byte_order` from a place in a byte vector. -/
def toLocalByteOrderAt (T : Type) [Scalar T] (host : Endian) (data : Bytes) (i : ℕ) : Checked T := do
  let src ← readAt data i (Scalar.width T)
  return toLocalByteOrder T host src

/-- **Reading a scalar** finds its wire bytes, whatever the host. -/
theorem toLocalByteOrderAt_iff {host : Endian} {data : Bytes} {i : ℕ} {x : T} :
    toLocalByteOrderAt T host data i = .ok x ↔
      LiesAt data i (beBytes (Scalar.width T) (Scalar.bits x)) := by
  unfold toLocalByteOrderAt
  simp only [Checked.bind_eq_ok, readAt_iff, Checked.pure_eq, Except.ok.injEq]
  constructor
  · rintro ⟨src, ⟨hl, hs⟩, rfl⟩
    rw [beBytes_toLocalByteOrder host hl]
    exact hs
  · intro h
    rw [← toNetworkByteOrder_eq host] at h
    exact ⟨_, ⟨by simp, h⟩, by simp⟩

/-- **A run of single bytes keeps its order**, on every host. -/
theorem convertByteOrderArray_one (host : Endian) {count : ℕ} {src : Bytes} (h : count ≤ src.length) :
    convertByteOrderArray host 1 count src = src.take count := by
  unfold convertByteOrderArray
  split
  · rw [Nat.one_mul]
  clear * - h
  induction count with
  | zero => simp
  | succ n ih =>
    rw [List.range_succ, List.flatMap_append, ih (by omega)]
    have hn : n < src.length := by omega
    rw [List.take_add_one, List.getElem?_eq_getElem hn, List.flatMap_singleton, Nat.mul_one,
      List.drop_eq_getElem_cons hn]
    rfl

@[simp] theorem tryCast_toByteArray (host : Endian) (x : T) :
    tryCast T host (toByteArray host x) = some x := by
  have h : (objectBytes host x).take (Scalar.width T) = objectBytes host x :=
    List.take_of_length_le (by simp)
  simp [tryCast, toByteArray, h]

end ProjectTrans
