import ProjectTrans.Model.Codec.SerializeCodec

/-!
# What the two programs say to each other (`model/transfer`)

The envelopes and bodies of the three exchanges (test, download, block), as both
programs declare them, and the helpers their codecs parse them with. A string is
the list of its bytes.
-/

namespace ProjectTrans

open Wire

/-- `ContentType`, a byte. -/
structure ContentType where
  code : UInt8
  deriving DecidableEq, Repr

def ContentType.json : ContentType := ⟨0⟩
def ContentType.daneJoe : ContentType := ⟨1⟩
def ContentType.unknown : ContentType := ⟨2⟩

/-- `ResponseStatus`, two bytes. -/
structure ResponseStatus where
  code : UInt16
  deriving DecidableEq, Repr

def ResponseStatus.unknown : ResponseStatus := ⟨0⟩
def ResponseStatus.ok : ResponseStatus := ⟨200⟩
def ResponseStatus.badRequest : ResponseStatus := ⟨400⟩
def ResponseStatus.notFound : ResponseStatus := ⟨404⟩

/-- `EnvelopeRequestTransfer`. -/
structure EnvelopeRequestTransfer where
  version : UInt16
  requestId : UInt64
  requestType : UInt8
  path : Bytes
  contentType : ContentType
  body : Bytes
  deriving DecidableEq, Repr

/-- `EnvelopeResponseTransfer`. -/
structure EnvelopeResponseTransfer where
  version : UInt16
  requestId : UInt64
  status : ResponseStatus
  contentType : ContentType
  body : Bytes
  deriving DecidableEq, Repr

/-- `BlockRequestTransfer`. -/
structure BlockRequestTransfer where
  blockId : Int64 := -1
  fileId : Int64 := -1
  taskId : Int64 := -1
  offset : Int64 := 0
  blockSize : Int64 := 0
  deriving DecidableEq, Repr

/-- `BlockResponseTransfer`. -/
structure BlockResponseTransfer where
  blockId : Int64 := -1
  fileId : Int64 := -1
  taskId : Int64 := -1
  offset : Int64 := 0
  blockSize : Int64 := 0
  data : Bytes := []
  deriving DecidableEq, Repr

/-- `DownloadRequestTransfer`. -/
structure DownloadRequestTransfer where
  fileId : Int64 := -1
  taskId : Int64 := -1
  deriving DecidableEq, Repr

/-- `DownloadResponseTransfer`. -/
structure DownloadResponseTransfer where
  fileId : Int64 := -1
  taskId : Int64 := -1
  fileName : Bytes := []
  fileSize : Int64 := 0
  md5Code : Bytes := []
  deriving DecidableEq, Repr

/-- `TestRequestTransfer`. -/
structure TestRequestTransfer where
  message : Bytes := []
  deriving DecidableEq, Repr

/-- `TestResponseTransfer`. -/
structure TestResponseTransfer where
  message : Bytes := []
  deriving DecidableEq, Repr

/-! ## Reading members from fields -/

/-- A parse that may refuse its input, or fault. -/
abbrev Parse := OptionT Checked

/-- Go on with a value, or refuse. -/
def Parse.ofOption {α : Type} (x : Option α) : Parse α := OptionT.mk (.ok x)

@[simp] theorem Parse.lift_ok_bind {α β : Type} (a : α) (f : α → Parse β) :
    ((liftM (.ok a : Checked α) : Parse α) >>= f) = f a := rfl

@[simp] theorem Parse.some_bind {α β : Type} (a : α) (f : α → Parse β) :
    (Parse.ofOption (some a) >>= f) = f a := rfl

@[simp] theorem Parse.none_bind {α β : Type} (f : α → Parse β) :
    (Parse.ofOption none >>= f) = Parse.ofOption none := rfl

@[simp] theorem Parse.run_ofOption {α : Type} (x : Option α) : (Parse.ofOption x).run = .ok x := rfl

@[simp] theorem Parse.run_pure {α : Type} (a : α) : (pure a : Parse α).run = .ok (some a) := rfl

/-- A member that stays as it is without its field, and refuses a field of another type. -/
def Parse.optional {T : Type} [Scalar T] [HasDataType T] (host : Endian) (field : Option SerializeField)
    (old : T) : Parse T :=
  match field with
  | none => pure old
  | some field => Parse.ofOption (SerializeCodec.toValue T host field)

/-- A member that needs its field, of the right type. -/
def Parse.required (T : Type) [Scalar T] [HasDataType T] (host : Endian) (field : Option SerializeField) :
    Parse T :=
  Parse.ofOption (field.bind (SerializeCodec.toValue T host))

/-- A member that stays as it is without a field of its type. -/
def lenient {T : Type} [Scalar T] [HasDataType T] (host : Endian) (field : Option SerializeField) (old : T) : T :=
  (field.bind (SerializeCodec.toValue T host)).getD old

/-- `to_string` of a field; `text` renders the fields that are not strings. -/
def fieldToString (text : SerializeField → Bytes) (field : SerializeField) : Bytes :=
  if field.type = .string then field.value else text field

/-- The body of an envelope: what `to_array` makes of its field, none without it. -/
def parseBody (host : Endian) (field : Option SerializeField) : Checked Bytes :=
  match field with
  | none => .ok []
  | some field => toArray UInt8 host field

end ProjectTrans
