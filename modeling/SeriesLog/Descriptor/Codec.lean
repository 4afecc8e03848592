import SeriesLog.Format.Error
import SeriesLog.Series.Codec

/-! # The messages of descriptors

A descriptor is written as a message whose fields are left out when they are empty. It is
read in two steps: the fields are merged into a record in which everything may be missing,
and the record is then checked. What passes the checks is exactly what writing and reading
again leaves unchanged. -/
namespace SeriesLog

open Wire

structure FileRecord where
  version : Option Version
  annotations : Labels
  checksumKind : Int32
  checksumBytes : UInt32
  deriving DecidableEq

structure ShapeRecord where
  element : Int32
  dimensions : List UInt32
  deriving DecidableEq, Repr

inductive ContentRecord where
  | message (type : MessageType)
  | pod (shape : ShapeRecord)
  deriving DecidableEq, Repr

structure SeriesRecord where
  index : UInt32
  id : Option SeriesId
  idHash : UInt64
  content : Option ContentRecord
  annotations : Labels
  indexNames : List String
  deriving DecidableEq

structure SeriesIndexRecord where
  descriptor : Option SeriesRecord
  entries : List IndexEntry
  deriving DecidableEq

inductive DescriptorRecord where
  | file (r : FileRecord)
  | series (r : SeriesRecord)
  | index (r : List SeriesIndexRecord)
  deriving DecidableEq

def FileRecord.empty : FileRecord := ⟨none, .empty, 0, 0⟩

def ShapeRecord.empty : ShapeRecord := ⟨0, []⟩

def SeriesRecord.empty : SeriesRecord := ⟨0, none, 0, none, .empty, []⟩

def SeriesIndexRecord.empty : SeriesIndexRecord := ⟨none, []⟩

def Version.encode (v : Version) : Bytes :=
  varintFieldUnlessZero 1 v.major.toNat ++ varintFieldUnlessZero 2 v.minor.toNat ++
    varintFieldUnlessZero 3 v.patch.toNat

def sha1Kind : Nat := 2

def FileDescriptor.encode (d : FileDescriptor) : Bytes :=
  delimitedField 1 d.version.encode ++ labelFields 2 d.annotations ++ varintField 3 sha1Kind ++
    varintField 4 checksumSize

def MessageType.encode (m : MessageType) : Bytes :=
  delimitedFieldUnlessEmpty 1 (utf8 m.contentType) ++ delimitedFieldUnlessEmpty 2 (utf8 m.typeName) ++
    varintFieldUnlessZero 3 m.isMetadata.toNat

def Pod.Shape.encode (s : Pod.Shape) : Bytes :=
  varintField 1 s.element.code ++ packedField 2 (s.dimensions.map UInt32.toNat)

def SeriesKind.encode : SeriesKind → Bytes
  | untyped => []
  | message type => delimitedField 4 type.encode
  | pod shape => delimitedField 5 shape.encode

def SeriesDescriptor.encode (d : SeriesDescriptor) : Bytes :=
  varintFieldUnlessZero 1 d.index.toNat ++ delimitedField 2 d.id.encode ++
    varintFieldUnlessZero 3 d.idHash.toNat ++ d.kind.encode ++ labelFields 9 d.annotations ++
    d.indexNames.flatMap fun name => delimitedField 10 (utf8 name)

def IndexEntry.encode (e : IndexEntry) : Bytes :=
  varintFieldUnlessZero 1 e.timestamp.toUInt64.toNat ++ varintFieldUnlessZero 2 e.offset.toNat

def SeriesIndex.encode (s : SeriesIndex) : Bytes :=
  delimitedField 1 s.descriptor.encode ++ s.entries.flatMap fun e => delimitedField 2 e.encode

def FileIndex.encode (index : FileIndex) : Bytes :=
  index.series.flatMap fun s => delimitedField 1 s.encode

def Descriptor.encode : Descriptor → Bytes
  | file d => delimitedField 1 d.encode
  | series d => delimitedField 2 d.encode
  | index d => delimitedField 4 d.encode

def Version.mergeField (_ : Nat) (v : Version) (field : Field) : Option Version :=
  match field.number with
  | 1 => field.value.number?.map fun n => { v with major := UInt32.ofNat n }
  | 2 => field.value.number?.map fun n => { v with minor := UInt32.ofNat n }
  | 3 => field.value.number?.map fun n => { v with patch := UInt32.ofNat n }
  | _ => some v

def FileRecord.mergeField (limit : Nat) (r : FileRecord) (field : Field) : Option FileRecord :=
  match field.number with
  | 1 => field.value.body?.bind fun body =>
    (mergeFields noEntries Version.mergeField limit (r.version.getD ⟨0, 0, 0⟩) body).map fun v =>
      { r with version := some v }
  | 2 => (mergeLabel limit r.annotations field.value).map fun a => { r with annotations := a }
  | 3 => field.value.number?.map fun n => { r with checksumKind := (UInt32.ofNat n).toInt32 }
  | 4 => field.value.number?.map fun n => { r with checksumBytes := UInt32.ofNat n }
  | _ => some r

def MessageType.mergeField (_ : Nat) (m : MessageType) (field : Field) : Option MessageType :=
  match field.number with
  | 1 => field.value.text?.map fun s => { m with contentType := s }
  | 2 => field.value.text?.map fun s => { m with typeName := s }
  | 3 => field.value.number?.map fun n => { m with isMetadata := n != 0 }
  | _ => some m

def ShapeRecord.mergeField (_ : Nat) (s : ShapeRecord) (field : Field) : Option ShapeRecord :=
  match field.number with
  | 1 => field.value.number?.map fun n => { s with element := (UInt32.ofNat n).toInt32 }
  | 2 => field.value.numbers?.map fun ns =>
    { s with dimensions := s.dimensions ++ ns.map UInt32.ofNat }
  | _ => some s

def ContentRecord.messageSoFar : Option ContentRecord → MessageType
  | some (.message type) => type
  | _ => ⟨"", "", false⟩

def ContentRecord.shapeSoFar : Option ContentRecord → ShapeRecord
  | some (.pod shape) => shape
  | _ => .empty

def SeriesRecord.mergeField (limit : Nat) (r : SeriesRecord) (field : Field) :
    Option SeriesRecord :=
  match field.number with
  | 1 => field.value.number?.map fun n => { r with index := UInt32.ofNat n }
  | 2 => field.value.body?.bind fun body =>
    (SeriesId.merge limit (r.id.getD ⟨"", .empty⟩) body).map fun id => { r with id := some id }
  | 3 => field.value.number?.map fun n => { r with idHash := UInt64.ofNat n }
  | 4 => field.value.body?.bind fun body =>
    (mergeFields noEntries MessageType.mergeField limit (ContentRecord.messageSoFar r.content)
      body).map fun m => { r with content := some (.message m) }
  | 5 => field.value.body?.bind fun body =>
    (mergeFields noEntries ShapeRecord.mergeField limit (ContentRecord.shapeSoFar r.content)
      body).map fun s => { r with content := some (.pod s) }
  | 9 => (mergeLabel limit r.annotations field.value).map fun a => { r with annotations := a }
  | 10 => field.value.text?.map fun s => { r with indexNames := r.indexNames ++ [s] }
  | _ => some r

def IndexEntry.mergeField (_ : Nat) (e : IndexEntry) (field : Field) : Option IndexEntry :=
  match field.number with
  | 1 => field.value.number?.map fun n => { e with timestamp := (UInt64.ofNat n).toInt64 }
  | 2 => field.value.number?.map fun n => { e with offset := UInt64.ofNat n }
  | _ => some e

def SeriesRecord.merge (limit : Nat) (r : SeriesRecord) (bytes : Bytes) : Option SeriesRecord :=
  mergeFields (entriesIn 9) SeriesRecord.mergeField limit r bytes

def SeriesIndexRecord.mergeField (limit : Nat) (r : SeriesIndexRecord) (field : Field) :
    Option SeriesIndexRecord :=
  match field.number with
  | 1 => field.value.body?.bind fun body =>
    (SeriesRecord.merge limit (r.descriptor.getD .empty) body).map fun d =>
      { r with descriptor := some d }
  | 2 => field.value.body?.bind fun body =>
    (mergeFields noEntries IndexEntry.mergeField limit ⟨0, 0⟩ body).map fun e =>
      { r with entries := r.entries ++ [e] }
  | _ => some r

def mergeIndexField (limit : Nat) (r : List SeriesIndexRecord) (field : Field) :
    Option (List SeriesIndexRecord) :=
  match field.number with
  | 1 => field.value.body?.bind fun body =>
    (mergeFields noEntries SeriesIndexRecord.mergeField limit .empty body).map fun s => r ++ [s]
  | _ => some r

def DescriptorRecord.fileSoFar : Option DescriptorRecord → FileRecord
  | some (.file r) => r
  | _ => .empty

def DescriptorRecord.seriesSoFar : Option DescriptorRecord → SeriesRecord
  | some (.series r) => r
  | _ => .empty

def DescriptorRecord.indexSoFar : Option DescriptorRecord → List SeriesIndexRecord
  | some (.index r) => r
  | _ => []

def DescriptorRecord.mergeField (limit : Nat) (r : Option DescriptorRecord) (field : Field) :
    Option (Option DescriptorRecord) :=
  match field.number with
  | 1 => field.value.body?.bind fun body =>
    (mergeFields (entriesIn 2) FileRecord.mergeField limit (fileSoFar r) body).map fun d =>
      some (.file d)
  | 2 => field.value.body?.bind fun body =>
    (SeriesRecord.merge limit (seriesSoFar r) body).map fun d => some (.series d)
  | 4 => field.value.body?.bind fun body =>
    (mergeFields noEntries mergeIndexField limit (indexSoFar r) body).map fun d => some (.index d)
  | _ => some r

/-- The record of a descriptor block: `none` when the bytes are no message, `some none` when the
message holds no descriptor. -/
def DescriptorRecord.read (body : Bytes) : Option (Option DescriptorRecord) :=
  mergeFields noEntries DescriptorRecord.mergeField depthLimit none body

/-- A file descriptor has a version of the same major number, and no checksum kind or the one
used here. -/
def FileRecord.check (r : FileRecord) : Except FormatError FileDescriptor :=
  match r.version with
  | none => .error (.malformed .noVersion)
  | some version =>
    if version.major ≠ Version.current.major then .error (.unsupportedVersion version)
    else if r.checksumKind.toInt = 0 ∨
        (r.checksumKind.toInt = sha1Kind ∧ r.checksumBytes.toNat = checksumSize) then
      .ok ⟨version, r.annotations⟩
    else .error (.malformed (.checksumKind r.checksumKind r.checksumBytes))

/-- A shape has a known element type and a sample size that fits. -/
def ShapeRecord.check (r : ShapeRecord) : Except FormatError Pod.Shape :=
  match Pod.Element.ofCode? r.element.toInt.toNat with
  | none =>
    .error (.malformed (if r.element = 0 then .noElement else .unknownElement r.element))
  | some element =>
    let shape : Pod.Shape := ⟨element, r.dimensions⟩
    if shape.sampleSize.isNone then .error (.invalidPod (.overflow shape)) else .ok shape

def ContentRecord.check : Option ContentRecord → Except FormatError SeriesKind
  | none => .ok .untyped
  | some (.message type) => .ok (.message type)
  | some (.pod shape) => shape.check.map .pod

/-- A series descriptor has an identifier, of a type that is not empty; its hash is computed. -/
def SeriesRecord.check (r : SeriesRecord) : Except FormatError SeriesDescriptor :=
  match r.id with
  | none => .error (.malformed (.noIdentifier r.index))
  | some id =>
    if id.type = "" then .error (.invalidSeries .emptyType)
    else
      (ContentRecord.check r.content).map fun kind =>
        .make r.index id kind r.indexNames r.annotations

/-- The series of an index have descriptors, numbered in order from `position`. -/
def checkSeriesIndexes : (position : Nat) → List SeriesIndexRecord →
    Except FormatError (List SeriesIndex)
  | _, [] => .ok []
  | position, r :: rest =>
    match r.descriptor with
    | none => .error (.malformed (.indexWithoutDescriptor position))
    | some d =>
      match d.check with
      | .error e => .error e
      | .ok d =>
        if d.index.toNat ≠ position then .error (.malformed (.indexOrder position d.index))
        else (checkSeriesIndexes (position + 1) rest).map (⟨d, r.entries⟩ :: ·)

def DescriptorRecord.check : DescriptorRecord → Except FormatError Descriptor
  | file r => r.check.map .file
  | series r => r.check.map .series
  | index r => (checkSeriesIndexes 0 r).map fun series => .index ⟨series⟩

def Descriptor.decode (body : Bytes) : Except FormatError Descriptor :=
  match DescriptorRecord.read body with
  | none => .error .undecodable
  | some none => .error (.malformed .noDescriptor)
  | some (some record) => record.check

end SeriesLog
