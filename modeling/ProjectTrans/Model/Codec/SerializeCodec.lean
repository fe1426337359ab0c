import ProjectTrans.Model.Codec.ArrayValue

/-!
# The codec (`network/codec/serialize_codec`)

One object builds a message field by field and takes a received one apart into a
map of fields. Building appends to a byte vector behind room left for the header;
parsing walks over the fields with a 32-bit index.
-/

namespace ProjectTrans

open Wire

/-- `SerializeConfig`. -/
structure SerializeConfig where
  maxFieldValueLength : UInt64 := 256 * 1024 * 1024
  maxFieldNameLength : UInt32 := 128
  preAllocatedSize : UInt32 := 4 * 1024
  deriving DecidableEq, Repr

/-- The configuration of a codec that is given none. -/
def SerializeConfig.default : SerializeConfig := {}

/-- `HEADER_SIZE`. -/
def headerSize : ℕ := 16

/-- `SerializeCodec`. A multimap is the list of its entries in the order they were
inserted. -/
structure SerializeCodec where
  config : SerializeConfig
  currentIndex : ℕ
  byteArrayBuild : Bytes
  byteArrayParsed : Bytes
  dataMapBuild : List (Bytes × SerializeField)
  dataMapParsed : List (Bytes × SerializeField)
  deriving DecidableEq, Repr

namespace SerializeCodec

/-- The constructor. -/
def new (config : SerializeConfig) : SerializeCodec where
  config := config
  currentIndex := headerSize
  byteArrayBuild := List.replicate config.preAllocatedSize.toNat 0
  byteArrayParsed := []
  dataMapBuild := []
  dataMapParsed := []

/-- `set_config`. -/
def setConfig (c : SerializeCodec) (config : SerializeConfig) : SerializeCodec :=
  { c with
    config := config
    byteArrayBuild := growTo c.byteArrayBuild config.preAllocatedSize.toNat }

/-- `reset_build`. -/
def resetBuild (c : SerializeCodec) : SerializeCodec :=
  { c with byteArrayBuild := [], dataMapBuild := [], currentIndex := headerSize }

/-- `reset_parse`. -/
def resetParse (c : SerializeCodec) : SerializeCodec :=
  { c with byteArrayParsed := [], dataMapParsed := [] }

/-! ## Parsing -/

/-- `get_message_header`. -/
def getMessageHeader (host : Endian) (data : Bytes) : Checked (Option SerializeHeader) :=
  if data.length < headerSize then .ok none
  else SerializeHeader.fromSerializedByteArray host (data.take headerSize)

/-- The value length, from the field where its flag says so, else from its type. -/
def deserializeValueLength (host : Endian) (data : Bytes) (type : DataType) (flag : SerializeFieldFlag)
    (i : ℕ) : Checked (UInt32 × ℕ) :=
  if hasFlag flag.bits SerializeFieldFlag.hasValueLength.bits then do
    let valueLength ← toLocalByteOrderAt UInt32 host data i
    return (valueLength, u32 (i + 4))
  else .ok (getDataTypeLength type, i)

/-- One round of the loop of `deserialize`: the field at an index, and the index
behind it. -/
def deserializeField (host : Endian) (data : Bytes) (i : ℕ) : Checked (SerializeField × ℕ) := do
  let nameLength ← toLocalByteOrderAt UInt16 host data i
  let i := u32 (i + 2)
  let name ← readAt data i nameLength.toNat
  let i := u32 (i + nameLength.toNat)
  let type ← toLocalByteOrderAt UInt8 host data i
  let i := u32 (i + 1)
  let flag ← toLocalByteOrderAt UInt8 host data i
  let i := u32 (i + 1)
  let (valueLength, i) ← deserializeValueLength host data ⟨type⟩ ⟨flag⟩ i
  let value ← readAt data i valueLength.toNat
  let value :=
    if isCopiedType ⟨type⟩ then value else convertByteOrderArray host 1 valueLength.toNat value
  return (⟨nameLength, name, ⟨type⟩, ⟨flag⟩, valueLength, value⟩, u32 (i + valueLength.toNat))

/-- The loop of `deserialize`, for `n` more fields. -/
def deserializeLoop (host : Endian) (data : Bytes) :
    ℕ → ℕ → List (Bytes × SerializeField) → Checked (List (Bytes × SerializeField))
  | 0, _, map => .ok map
  | n + 1, i, map => do
    let (field, i) ← deserializeField host data i
    deserializeLoop host data n i (map ++ [(field.name, field)])

/-- `deserialize`. -/
def deserialize (host : Endian) (c : SerializeCodec) (data : Bytes) : Checked SerializeCodec := do
  match ← getMessageHeader host data with
  | none => return c
  | some header =>
    if u32 (header.messageLength.toNat + headerSize) > data.length then
      return c
    let map ← deserializeLoop host data header.fieldCount.toNat headerSize c.dataMapParsed
    return { c with byteArrayParsed := data, dataMapParsed := map }

/-- `get_parsed_field`. Which of several fields of one name `find` returns is left
open by the library; here it is the first. -/
def getParsedField (c : SerializeCodec) (key : Bytes) : Option SerializeField :=
  (c.dataMapParsed.find? fun entry => entry.1 == key).map Prod.snd

/-- `get_parsed_data_map`. -/
def getParsedDataMap (c : SerializeCodec) : List (Bytes × SerializeField) := c.dataMapParsed

/-! ## Building -/

/-- `ensure_enough_capacity_rest_to_build`. -/
def ensureEnoughCapacityRestToBuild (c : SerializeCodec) (sizeNeed : ℕ) : SerializeCodec :=
  { c with byteArrayBuild := growTo c.byteArrayBuild (u32 (c.currentIndex + sizeNeed)) }

/-- A field is left out when one of its lengths exceeds the configured limit. -/
def exceedsLimit (config : SerializeConfig) (field : SerializeField) : Bool :=
  field.nameLength.toNat > config.maxFieldNameLength.toNat ||
    field.valueLength.toNat > config.maxFieldValueLength.toNat

/-- `serialize` of a field. -/
def serialize (host : Endian) (c : SerializeCodec) (field : SerializeField) : Checked SerializeCodec := do
  if exceedsLimit c.config field then
    return c
  let fieldSize := field.serializedSize
  let c := c.ensureEnoughCapacityRestToBuild fieldSize
  let data ← field.toSerializedByteArray host
  let build ← writeAt c.byteArrayBuild c.currentIndex data
  return { c with
    byteArrayBuild := build
    currentIndex := u32 (c.currentIndex + fieldSize)
    dataMapBuild := c.dataMapBuild ++ [(field.name, field)] }

/-- The header `finalize_message_header` writes. -/
def buildHeader (c : SerializeCodec) : SerializeHeader where
  messageLength := UInt32.ofNat (c.currentIndex + (2 ^ 32 - headerSize))
  flag := .none
  checksum := 0
  fieldCount := UInt16.ofNat c.dataMapBuild.length

/-- `finalize_message_header`. -/
def finalizeMessageHeader (host : Endian) (c : SerializeCodec) : Checked SerializeCodec := do
  let header := c.buildHeader
  let build ← writeAll (resize c.byteArrayBuild c.currentIndex) 0
    [toNetworkByteOrder host header.magicNumber, toNetworkByteOrder host header.version,
      toNetworkByteOrder host header.messageLength, toNetworkByteOrder host header.flag.bits,
      toNetworkByteOrder host header.checksum, toNetworkByteOrder host header.fieldCount]
  return { c with byteArrayBuild := build }

/-- `get_serialized_data_vector_build`. -/
def getSerializedDataVectorBuild (host : Endian) (c : SerializeCodec) :
    Checked (Bytes × SerializeCodec) := do
  let c ← c.finalizeMessageHeader host
  return (c.byteArrayBuild, c)

/-! ## Typed fields -/

variable {T : Type} [Scalar T] [HasDataType T]

/-- `serialize<T>` of a value. -/
def serializeValue (host : Endian) (c : SerializeCodec) (data : T) (name : Bytes) : Checked SerializeCodec :=
  let value := toByteArray host data
  c.serialize host ⟨UInt16.ofNat name.length, name, getDataType T, .none, UInt32.ofNat value.length, value⟩

/-- `serialize` of a string. -/
def serializeString (host : Endian) (c : SerializeCodec) (data name : Bytes) : Checked SerializeCodec :=
  c.serialize host
    ⟨UInt16.ofNat name.length, name, .string, .hasValueLength, UInt32.ofNat data.length, data⟩

/-- `serialize<T>` of `size` elements behind a pointer: none is skipped, a single one
is a plain value, more than one are an array value. -/
def serializePointer (host : Endian) (c : SerializeCodec) (data : List T) (size : UInt32) (name : Bytes) :
    Checked SerializeCodec := do
  if data = [] ∨ size = 0 then
    return c
  if 1 < size then
    let elementValue ← writeAll (List.replicate (Scalar.width T * size.toNat) 0) 0
      ((data.take size.toNat).map (toNetworkByteOrder host))
    let arrayValue : SerializeArrayValue :=
      ⟨getDataType T, size, .none, [UInt32.ofNat (Scalar.width T)], elementValue⟩
    let value ← arrayValue.toSerializedByteArray host
    c.serialize host
      ⟨UInt16.ofNat name.length, name, .array, .hasValueLength, UInt32.ofNat value.length, value⟩
  else
    let value := ((data.take size.toNat).map (toByteArray host)).flatten
    c.serialize host
      ⟨UInt16.ofNat name.length, name, getDataType T, .none, UInt32.ofNat value.length, value⟩

/-- `serialize<T>` of a vector. -/
def serializeVector (host : Endian) (c : SerializeCodec) (data : List T) (name : Bytes) :
    Checked SerializeCodec :=
  c.serializePointer host data (UInt32.ofNat data.length) name

/-- `to_value<T>`. -/
def toValue (T : Type) [Scalar T] [HasDataType T] (host : Endian) (field : SerializeField) : Option T :=
  if field.type ≠ getDataType T then none else tryCast T host field.value

end SerializeCodec

end ProjectTrans
