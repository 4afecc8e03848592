import SeriesLog.Config
import SeriesLog.Descriptor.Basic
import SeriesLog.Document.Basic
import SeriesLog.Reader.Basic
import SeriesLog.Repair

/-! # Documents of a log

How the parts of a log look as documents, and which documents stand for settings and
descriptors. -/
namespace SeriesLog

open Document

def Labels.document (labels : Labels) : Document :=
  .table (labels.entries.map fun entry => (entry.1, .text entry.2))

def SeriesId.document (id : SeriesId) : Document :=
  .table [("series_type", .text id.type), ("spec", id.spec.document)]

def Pod.Shape.fields (s : Pod.Shape) : List (String × Document) :=
  [("pod_type", .text s.element.name),
    ("dimensions", .list (s.dimensions.map fun d => .integer d.toNat))]

def MessageType.fields (m : MessageType) : List (String × Document) :=
  [("content_type", .text m.contentType), ("type_name", .text m.typeName),
    ("is_metadata", .bool m.isMetadata)]

def SeriesKind.document : SeriesKind → Document
  | untyped => .table [("kind", .text "opaque")]
  | message type => .table (("kind", .text "message") :: type.fields)
  | pod shape => .table (("kind", .text "pod") :: shape.fields)

def SeriesDescriptor.document (d : SeriesDescriptor) : Document :=
  .table [("series_index", .integer d.index.toNat), ("identifier", d.id.document),
    ("identifier_hash", .integer d.idHash.toNat), ("kind", d.kind.document),
    ("index_names", .list (d.indexNames.map .text)), ("annotations", d.annotations.document)]

def Version.document (v : Version) : Document :=
  .table [("major", .integer v.major.toNat), ("minor", .integer v.minor.toNat),
    ("patch", .integer v.patch.toNat)]

def IndexEntry.document (e : IndexEntry) : Document :=
  .table [("timestamp_nsec", .integer e.timestamp.toInt), ("file_offset", .integer e.offset.toNat)]

def SeriesIndex.document (s : SeriesIndex) : Document :=
  .table [("descriptor", s.descriptor.document), ("entries", .list (s.entries.map (·.document)))]

def Descriptor.document : Descriptor → Document
  | file d => .table [("version", d.version.document), ("annotations", d.annotations.document)]
  | series d => d.document
  | index d => .table [("series", .list (d.series.map (·.document)))]

def ChecksumStatus.document : ChecksumStatus → Document
  | valid => .table [("status", .text "valid")]
  | mismatch stored computed =>
    .table [("status", .text "mismatch"), ("stored", .text stored.hex),
      ("computed", .text computed.hex)]
  | unsealed => .table [("status", .text "unsealed")]

def ScanReason.key : ScanReason → String
  | noIndex => "no_index"
  | unsealed => "unsealed"
  | unreadableIndex => "unreadable_index"

def IndexSource.document : IndexSource → Document
  | fileIndex offset => .table [("source", .text "file_index"), ("offset", .integer offset.toNat)]
  | scan reason => .table [("source", .text "scan"), ("reason", .text reason.key)]

def RepairReport.document (r : RepairReport) : Document :=
  .table [("series_count", .integer r.seriesCount), ("blocks_copied", .integer r.blocksCopied),
    ("blocks_dropped", .integer r.blocksDropped), ("reserved_skipped", .integer r.reservedSkipped),
    ("undecodable_skipped", .integer r.undecodableSkipped),
    ("source_had_index", .bool r.sourceHadIndex), ("source_sealed", .bool r.sourceSealed),
    ("truncated_tail", .bool r.tornTail), ("index_offset", .integer r.indexOffset),
    ("bytes_written", .integer r.bytesWritten)]

def ReaderConfig.document (c : ReaderConfig) : Document :=
  .table [("verify_checksum", .bool c.verifyChecksum),
    ("strict_block_types", .bool c.strictBlockTypes), ("allow_unsealed", .bool c.allowUnsealed),
    ("max_block_size", .integer c.maxBlockSize)]

def WriterConfig.document (c : WriterConfig) : Document :=
  .table [("annotations", c.annotations.document), ("buffer_capacity", .integer c.bufferCapacity),
    ("max_block_size", .integer c.maxBlockSize), ("sync_on_close", .bool c.syncOnClose)]

def word32? (d : Document) : Option UInt32 := (d.naturalBelow? UInt32.size).map UInt32.ofNat

def word64? (d : Document) : Option UInt64 := (d.naturalBelow? UInt64.size).map UInt64.ofNat

def timestamp? (d : Document) : Option Int64 :=
  d.integer?.bind fun n =>
    if Int64.minValue.toInt ≤ n ∧ n ≤ Int64.maxValue.toInt then some (Int64.ofInt n) else none

def textField? (field : String × Document) : Option (String × String) :=
  field.2.text?.map fun value => (field.1, value)

def Labels.ofDocument? (d : Document) : Option Labels :=
  d.table?.bind fun fields => (fields.mapM textField?).map Labels.ofList

def SeriesId.ofDocument? (d : Document) : Option SeriesId := do
  match ← d.record? ["series_type", "spec"] with
  | [type, spec] => return ⟨← required text? type, ← required Labels.ofDocument? spec⟩
  | _ => none

/-- Nothing and the empty table say nothing beside the name of an element type. -/
def Pod.Element.ofDocument? (d : Document) : Option Pod.Element :=
  (d.choice? fun
    | .null | .table [] => true
    | _ => false).bind Element.ofName?

def Pod.Shape.ofDocument? (d : Document) : Option Pod.Shape := do
  match ← d.record? ["pod_type", "dimensions"] with
  | [element, dimensions] =>
    return ⟨← required Element.ofDocument? element, ← required (listOf? word32?) dimensions⟩
  | _ => none

def MessageType.ofDocument? (d : Document) : Option MessageType := do
  match ← d.record? ["content_type", "type_name", "is_metadata"] with
  | [contentType, typeName, isMetadata] =>
    return ⟨← required text? contentType, ← required text? typeName, ← required bool? isMetadata⟩
  | _ => none

/-- The tag of a tagged record, by name in a table or at the front of a list, and the rest. -/
def tagged? (tag : String) : Document → Option (Document × Document)
  | .table fields =>
    ((Document.table fields).field? tag).map fun value =>
      (value, .table (fields.filter fun f => f.1 ≠ tag))
  | .list (value :: rest) => some (value, .list rest)
  | _ => none

def SeriesKind.ofDocument? (d : Document) : Option SeriesKind := do
  let (tag, rest) ← tagged? "kind" d
  match ← tag.text? with
  | "opaque" => (rest.record? []).map fun _ => .untyped
  | "message" => (MessageType.ofDocument? rest).map .message
  | "pod" => (Pod.Shape.ofDocument? rest).map .pod
  | _ => none

def SeriesDescriptor.ofDocument? (d : Document) : Option SeriesDescriptor := do
  match ← d.record?
      ["series_index", "identifier", "identifier_hash", "kind", "index_names", "annotations"] with
  | [index, id, idHash, kind, indexNames, annotations] =>
    return ⟨← required word32? index, ← required SeriesId.ofDocument? id, ← required word64? idHash,
      ← required SeriesKind.ofDocument? kind, ← required (listOf? text?) indexNames,
      ← required Labels.ofDocument? annotations⟩
  | _ => none

def Version.ofDocument? (d : Document) : Option Version := do
  match ← d.record? ["major", "minor", "patch"] with
  | [major, minor, patch] =>
    return ⟨← required word32? major, ← required word32? minor, ← required word32? patch⟩
  | _ => none

def IndexEntry.ofDocument? (d : Document) : Option IndexEntry := do
  match ← d.record? ["timestamp_nsec", "file_offset"] with
  | [timestamp, offset] => return ⟨← required timestamp? timestamp, ← required word64? offset⟩
  | _ => none

def SeriesIndex.ofDocument? (d : Document) : Option SeriesIndex := do
  match ← d.record? ["descriptor", "entries"] with
  | [descriptor, entries] =>
    return ⟨← required SeriesDescriptor.ofDocument? descriptor,
      ← required (listOf? IndexEntry.ofDocument?) entries⟩
  | _ => none

def FileDescriptor.ofDocument? (d : Document) : Option FileDescriptor := do
  match ← d.record? ["version", "annotations"] with
  | [version, annotations] =>
    return ⟨← required Version.ofDocument? version, ← required Labels.ofDocument? annotations⟩
  | _ => none

def FileIndex.ofDocument? (d : Document) : Option FileIndex := do
  match ← d.record? ["series"] with
  | [series] => return ⟨← required (listOf? SeriesIndex.ofDocument?) series⟩
  | _ => none

def ReaderConfig.ofDocument? (d : Document) : Option ReaderConfig := do
  let start := ReaderConfig.default
  match ← d.record? ["verify_checksum", "strict_block_types", "allow_unsealed", "max_block_size"] with
  | [verify, strict, unsealed, size] =>
    return ⟨← optional start.verifyChecksum bool? verify,
      ← optional start.strictBlockTypes bool? strict,
      ← optional start.allowUnsealed bool? unsealed,
      ← optional start.maxBlockSize (naturalBelow? UInt64.size) size⟩
  | _ => none

def WriterConfig.ofDocument? (d : Document) : Option WriterConfig := do
  let start := WriterConfig.default
  match ← d.record? ["annotations", "buffer_capacity", "max_block_size", "sync_on_close"] with
  | [annotations, capacity, size, sync] =>
    return ⟨← optional start.annotations Labels.ofDocument? annotations,
      ← optional start.bufferCapacity (naturalBelow? UInt64.size) capacity,
      ← optional start.maxBlockSize (naturalBelow? UInt64.size) size,
      ← optional start.syncOnClose bool? sync⟩
  | _ => none

end SeriesLog
